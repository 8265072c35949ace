import DatapackDebug.Proofs.InjectedBlocks

namespace DatapackDebug

/-!
# Selectors that leave out the debugger

A selector of all entities is edited so that it leaves out the entities of the debugger.  The edit
looks at the bytes behind `@e` only, and must agree with all spellings that the reader of selectors
accepts.

* `Argument.selectorOptions_exclusion_iff` — the new condition in front of other options;
* `Rewrites` — what the edit of a selector puts in its place, wherever it stands;
* `Selector.HiddenIn` — a text is the selector with the new condition in front;
* `hidden_iff_not_blankBrackets` — every selector is edited so, but for brackets with nothing but
  blanks.
-/

variable {b : UInt8} {w : Text} {options : List SelectorOption}

/-! ### Spellings of selectors -/

/-- The letter of a selector gives its type. -/
theorem SelectorType.letter_of_ofLetter? {type : SelectorType} (h : ofLetter? b = some type) :
    type.letter = b := by
  have hfound := List.find?_some h
  exact eq_of_beq hfound

/-! ### The new condition -/

namespace Argument

/-- Namespaces are words. -/
theorem isWord_ns {c : PackConfig} (hc : c.error? = none) : IsWord c.ns := by
  obtain ⟨hne, hns⟩ := PackConfig.ns_of_error?_eq_none hc
  refine ⟨hne, fun b hb => ?_⟩
  have hb := hns b hb
  simp only [PackConfig.isNamespaceByte, isWordByte, Bool.or_eq_true] at hb ⊢
  tauto

variable {ns : Text}

/-- What the new condition says. -/
def excluded (ns : Text) : Text × Bool × SelectorValue := ("tag", true, .string ns)

/-- The new condition is read as an option. -/
theorem selectorOption_exclusion (hns : IsWord ns) (total : Nat) (hb : isWordByte b = false)
    (rest : Text) :
    ∃ o, o.content = excluded ns ∧
      selectorOption total (exclusion ns ++ b :: rest) = .ok (o, b :: rest) := by
  let value : Text := ns ++ b :: rest
  have htext : exclusion ns ++ b :: rest = Text.ofString "tag" ++ ([0x3d] ++ 0x21 :: value) := rfl
  have hkey : phrase? (Text.ofString "tag" ++ ([0x3d] ++ 0x21 :: value)) =
      .ok (some "tag", 0x3d :: 0x21 :: value) :=
    phrase?_word (by decide +kernel) rfl _
  have hequals : require '=' (.missingOptionValue "tag") (0x3d :: 0x21 :: value) =
      .ok ((), 0x21 :: value) :=
    require_same _ _ _
  have hlookup : optionRules.lookup (Text.ofString "tag") = some labelOption := rfl
  have hnegated : accept '!' (0x21 :: value) = .ok (true, value) := accept_same _ _
  have hskip : skipBlanks value = .ok ((), value) := by
    obtain ⟨c, w, rfl⟩ := List.exists_cons_of_ne_nil hns.1
    exact skipBlanks_eq (head?_ne_blank rfl (ne_of_class (hns.2 c List.mem_cons_self) (by decide)))
  have hsep : ([b] : Text).head?.map isWordByte = some false := congrArg some hb
  have hvalue : word value = .ok (ns, b :: rest) := word_eq hns hsep rest
  have hlabel : labelOption.value value = .ok (.string ns, b :: rest) := bind_eq hvalue _
  have hnegatable : labelOption.negatable = true := rfl
  have hblank : ∀ c u, c ≠ Text.blank → skipBlanks (c :: u) = .ok ((), c :: u) :=
    fun c u hc => skipBlanks_eq (head?_ne_blank rfl hc)
  refine ⟨⟨"tag", true, .string ns, total - (exclusion ns ++ b :: rest).length⟩, rfl, ?_⟩
  rw [htext, selectorOption, get_bind_eq, bind_eq hkey]
  dsimp only
  rw [bind_eq (hblank _ _ (by decide)), bind_eq hequals, bind_eq (hblank _ _ (by decide)), hlookup]
  dsimp only
  rw [if_pos hnegatable, bind_eq hnegated, if_pos rfl, bind_eq hskip, bind_eq hlabel]
  rfl

/-- No option begins with the closing bracket. -/
theorem selectorOption_close (total : Nat) (u : Text) (r : SelectorOption × Text) :
    selectorOption total (0x5d :: u) ≠ .ok r := by
  have hkey : phrase? (0x5d :: u) = .ok (none, 0x5d :: u) := rfl
  intro h
  rw [selectorOption, get_bind_eq, bind_eq hkey] at h
  cases h

theorem head?_exclusion (ns u : Text) : (exclusion ns ++ u).head? = some 0x74 := rfl

theorem selectorOptions_eq (total : Nat) (ns u : Text) :
    selectorOptions total (exclusion ns ++ u) =
      separated (selectorOption total) 0x5d .unclosedOptions .unfinishedOptions
        ((exclusion ns ++ u).length + 1) (exclusion ns ++ u) :=
  bracketed_eq (head?_exclusion ns u) (by decide) (by decide)

/-- Brackets that hold the new condition alone. -/
theorem selectorOptions_exclusion (hns : IsWord ns) (total : Nat) :
    ∃ o, o.content = excluded ns ∧
      selectorOptions total (exclusion ns ++ [0x5d]) = .ok ([o], []) := by
  obtain ⟨o, ho, hoption⟩ := selectorOption_exclusion hns total (b := 0x5d) rfl []
  refine ⟨o, ho, ?_⟩
  rw [selectorOptions_eq]
  exact separated_close (head?_ne_blank (head?_exclusion ns _) (by decide)) hoption (by decide)
    (by decide)

/-- Brackets that hold the new condition, a comma and other options. -/
theorem selectorOptions_exclusion_iff (hns : IsWord ns) (total : Nat) (w : Text) :
    ∃ o, o.content = excluded ns ∧ ∀ options rest,
      selectorOptions total (exclusion ns ++ 0x2c :: w) = .ok (options, rest) ↔
        ∃ others, options = o :: others ∧
          separated (selectorOption total) 0x5d .unclosedOptions .unfinishedOptions
            (exclusion ns ++ 0x2c :: w).length w = .ok (others, rest) := by
  obtain ⟨o, ho, hoption⟩ := selectorOption_exclusion hns total (b := 0x2c) rfl w
  have hhead : (exclusion ns ++ 0x2c :: w).head? ≠ some Text.blank :=
    head?_ne_blank (head?_exclusion ns _) (by decide)
  refine ⟨o, ho, fun options rest => ?_⟩
  rw [selectorOptions_eq]
  constructor
  · intro h
    obtain ⟨o', mid, hitem, hcase⟩ := (separated_succ_eq_ok_iff (by decide)).mp h
    rw [unblanked_eq hhead] at hitem
    cases hoption.symm.trans hitem
    rw [unblanked_eq (head?_ne_blank rfl (by decide))] at hcase
    rcases hcase with ⟨after, others, hcomma, hothers, rfl⟩ | ⟨hclose, -⟩
    · cases hcomma
      exact ⟨others, rfl, hothers⟩
    · cases (List.cons.inj hclose).1
  · rintro ⟨others, rfl, hothers⟩
    exact separated_comma hhead hoption hothers

end Argument

/-! ### Edits -/

/-- In front of the rest, the edit of a selector puts one text in the place of another, wherever it
    stands. -/
def Rewrites (ns text edited rest : Text) : Prop :=
  ∀ front, Edit.apply (front ++ (text ++ rest))
    (hideEdits ns (front ++ (text ++ rest)) [front.length]) =
    front ++ (edited ++ rest)

/-- The text of a selector after its edit. -/
def hideSelector (ns text : Text) : Text := Edit.apply text (hideEdits ns text [0])

section Edits

variable {ns rest : Text}

theorem Rewrites.hideSelector_eq {text edited : Text} (h : Rewrites ns text edited []) :
    hideSelector ns text = edited := by
  have hstart := h []
  rwa [List.append_nil, List.append_nil] at hstart

/-- Where the edit is known, its text is inserted. -/
theorem Rewrites.of_insert (before after insert : Text)
    (h : ∀ front : Text, Excludes ns (front ++ (before ++ after ++ rest)) front.length
      { offset := front.length + before.length, insert }) :
    Rewrites ns (before ++ after) (before ++ insert ++ after) rest := by
  intro front
  have hedits : hideEdits ns (front ++ (before ++ after ++ rest)) [front.length] =
      [{ offset := front.length + before.length, insert }] := by
    rw [hideEdits, List.filterMap_cons_some (h front).hideEdit?_eq, List.filterMap_nil]
  have happly : Edit.applyOne (front ++ before ++ [] ++ (after ++ rest))
      { offset := front.length + before.length, insert } =
        front ++ before ++ insert ++ (after ++ rest) :=
    Edit.applyOne_replace List.length_append.symm rfl
  rw [hedits, Edit.apply, List.mergeSort_singleton]
  simpa only [List.foldl_cons, List.foldl_nil, List.append_assoc, List.nil_append] using happly

/-- A selector of other entities is left as it is. -/
theorem rewrites_other (hb : b ≠ 0x65) (u : Text) :
    Rewrites ns (0x40 :: b :: u) (0x40 :: b :: u) rest := by
  intro front
  have hdrop : Text.dropStart? "@e" (0x40 :: b :: u ++ rest) = none := by
    have hletter : ¬ ((0x65 : UInt8) == b) = true := by simpa using hb.symm
    exact if_neg hletter
  have hnone : hideEdit? ns (front ++ (0x40 :: b :: u ++ rest)) front.length = none := by
    rw [hideEdit?, List.drop_left, hdrop]
    exact ite_self none
  rw [hideEdits, List.filterMap_cons_none hnone, List.filterMap_nil, Edit.apply, List.mergeSort_nil,
    List.foldl_nil]

/-- A selector without brackets gets some. -/
theorem rewrites_plain (hrest : rest.head? ≠ some 0x5b) :
    Rewrites ns "@e" ("@e[" ++ exclusion ns ++ "]") rest := by
  let brackets : Text := "[" ++ exclusion ns ++ "]"
  have hinsert : Rewrites ns (Text.ofString "@e" ++ [])
      (Text.ofString "@e" ++ brackets ++ []) rest :=
    .of_insert "@e" [] brackets fun front => .plain hrest
  rwa [List.append_nil, List.append_nil] at hinsert

/-- Empty brackets get the new condition. -/
theorem rewrites_empty : Rewrites ns "@e[]" ("@e[" ++ exclusion ns ++ "]") rest :=
  .of_insert "@e[" "]" (exclusion ns) fun _ => .empty

/-- Brackets with something in them get the new condition and a comma. -/
theorem rewrites_options (hb : b ≠ 0x5d) (w : Text) :
    Rewrites ns ("@e[" ++ b :: w) ("@e[" ++ (exclusion ns ++ ",") ++ b :: w) rest :=
  .of_insert "@e[" (b :: w) (exclusion ns ++ ",") fun _ => .options fun h => hb (Option.some.inj h)

end Edits

/-! ### Selectors -/

/-- A text is the selector with the new condition in front of its options. -/
def Selector.HiddenIn (s : Selector) (ns text : Text) : Prop :=
  ∃ s', Argument.selector text = .ok (s', []) ∧ s'.type = .entities ∧
    s'.options.map SelectorOption.content =
      Argument.excluded ns :: s.options.map SelectorOption.content

/-- A selector with nothing but blanks in its brackets. -/
def blankBrackets (n : Nat) : Text := "@e[" ++ (List.replicate n Text.blank ++ "]")

namespace Argument

/-- What stands between the brackets of a selector, at any distance from its start. -/
def SpelledIn (options : List SelectorOption) (w : Text) : Prop :=
  ∀ total, ∃ options', options'.map SelectorOption.content = options.map SelectorOption.content ∧
    selectorOptions total w = .ok (options', [])

/-- A selector is spelled with its letter, and possibly with brackets; what follows does not
    matter. -/
theorem exists_spelling {t rest : Text} {s : Selector} (h : selector t = .ok (s, rest)) :
    (s.options = [] ∧ rest.head? ≠ some 0x5b ∧ t = 0x40 :: s.type.letter :: rest) ∨
      ∃ w, SpelledIn s.options w ∧ t = 0x40 :: s.type.letter :: 0x5b :: (w ++ rest) := by
  obtain ⟨b, type, u, rfl, hletter, hcase⟩ := selector_eq_ok_iff.mp h
  obtain rfl := SelectorType.letter_of_ofLetter? hletter
  rcases hcase with ⟨v, options, rfl, rfl, hoptions⟩ | ⟨hhead, rfl, rfl⟩
  · refine .inr ?_
    have hlocal : ∀ base total total', Local base AnyRest
        (List.Forall₂ fun o o' => o.content = o'.content) (selectorOptions total)
        (selectorOptions total') :=
      fun _ total total' => local_bracketed (.inl rfl) (fun _ => rfl) (stays_selectorOption _)
        fun _ => local_selectorOption total total'
    obtain ⟨w, rfl, -⟩ := (hlocal _ _ 0).found hoptions
    refine ⟨w, fun total => ?_, rfl⟩
    obtain ⟨w', hw, hagain⟩ := (hlocal _ _ total).found hoptions
    obtain rfl : w = w' := List.append_cancel_right hw
    obtain ⟨options', hsame, hoptions'⟩ := hagain [] trivial
    rw [List.append_nil] at hoptions'
    have hcontents := List.forall₂_map_left_iff.mpr (List.forall₂_map_right_iff.mpr hsame)
    rw [List.forall₂_eq_eq_eq] at hcontents
    exact ⟨options', hcontents.symm, hoptions'⟩
  · exact .inl ⟨rfl, hhead, rfl⟩

variable {ns : Text} {s : Selector}

/-- A selector of all entities with brackets. -/
theorem selector_entities_iff {v rest : Text} :
    selector ("@e[" ++ v) = .ok (s, rest) ↔
      ∃ options, s = ⟨.entities, options⟩ ∧
        selectorOptions ("@e[" ++ v : Text).length v = .ok (options, rest) := by
  constructor
  · intro h
    obtain ⟨b, type, u, ht, hletter, hcase⟩ := selector_eq_ok_iff.mp h
    obtain ⟨rfl, rfl⟩ := List.cons.inj (List.cons.inj ht).2
    obtain rfl : SelectorType.entities = type := Option.some.inj hletter
    rcases hcase with ⟨v', options, hv, rfl, hoptions⟩ | ⟨hhead, -⟩
    · cases hv
      exact ⟨options, rfl, hoptions⟩
    · exact absurd rfl hhead
  · rintro ⟨options, rfl, hoptions⟩
    exact selector_eq_ok_iff.mpr ⟨0x65, .entities, 0x5b :: v, rfl, rfl,
      .inl ⟨v, options, rfl, rfl, hoptions⟩⟩

/-- The new condition alone. -/
theorem hiddenIn_alone (hns : IsWord ns) (hs : s.options = []) :
    s.HiddenIn ns ("@e[" ++ exclusion ns ++ "]") := by
  obtain ⟨o, ho, hoptions⟩ :=
    selectorOptions_exclusion hns ("@e[" ++ exclusion ns ++ "]" : Text).length
  refine ⟨⟨.entities, [o]⟩, selector_entities_iff.mpr ⟨[o], rfl, hoptions⟩, rfl, ?_⟩
  rw [hs, ← ho]
  rfl

/-- The new condition in front of what stood between the brackets: after the comma there must be an
    option. -/
theorem hiddenIn_options_iff (hns : IsWord ns) (hw : SpelledIn s.options w) :
    s.HiddenIn ns ("@e[" ++ (exclusion ns ++ ",") ++ w) ↔ (unblanked w).head? ≠ some 0x5d := by
  let v : Text := exclusion ns ++ 0x2c :: w
  have htext : "@e[" ++ (exclusion ns ++ ",") ++ w = "@e[" ++ v := by
    rw [List.append_assoc, List.append_assoc]
    rfl
  have hlength : v.length = (exclusion ns).length + w.length + 1 := by
    rw [List.length_append, List.length_cons]
    omega
  obtain ⟨o, ho, hiff⟩ := selectorOptions_exclusion_iff hns ("@e[" ++ v : Text).length w
  rw [htext]
  constructor
  · rintro ⟨s', hread, -, -⟩ hclose
    obtain ⟨options, rfl, hoptions⟩ := selector_entities_iff.mp hread
    obtain ⟨others, rfl, hothers⟩ := (hiff _ _).mp hoptions
    rw [hlength] at hothers
    obtain ⟨o', mid, hitem, -⟩ := (separated_succ_eq_ok_iff (by decide)).mp hothers
    obtain ⟨u, hu⟩ := List.head?_eq_some_iff.mp hclose
    rw [hu] at hitem
    exact selectorOption_close _ u _ hitem
  · intro hopen
    obtain ⟨options, hcontents, hoptions⟩ := hw ("@e[" ++ v : Text).length
    rcases bracketed_eq_ok_iff.mp hoptions with ⟨hclose, -⟩ | ⟨-, hseparated⟩
    · rw [hclose] at hopen
      exact absurd rfl hopen
    · -- The loop over the options is longer, and starts with the blanks skipped before it.
      have hle : (unblanked w).length ≤ w.length := (List.dropWhile_suffix _).length_le
      rw [separated_bound (stays_selectorOption _) (Nat.lt_succ_self _)
        (show (unblanked w).length < (exclusion ns).length + w.length + 1 by omega),
        separated_unblanked, ← hlength] at hseparated
      refine ⟨⟨.entities, o :: options⟩, selector_entities_iff.mpr ⟨_, rfl, ?_⟩, rfl, ?_⟩
      · exact (hiff _ _).mpr ⟨options, rfl, hseparated⟩
      · rw [List.map_cons, ho, hcontents]

/-- Brackets hold no option if and only if they hold nothing but blanks. -/
theorem head?_unblanked_eq_close_iff (hw : SpelledIn options w) :
    (unblanked w).head? = some 0x5d ↔ ∃ n, "@e[" ++ w = blankBrackets n := by
  constructor
  · intro hclose
    obtain ⟨options', -, hoptions⟩ := hw 0
    rcases bracketed_eq_ok_iff.mp hoptions with ⟨hend, -⟩ | ⟨hopen, -⟩
    · obtain ⟨blanks, hsplit, hblanks, -⟩ := exists_blanks w
      refine ⟨blanks.length, ?_⟩
      rw [blankBrackets, ← List.eq_replicate_of_mem hblanks, hsplit, hend]
      rfl
    · exact absurd hclose hopen
  · rintro ⟨n, hn⟩
    obtain rfl : w = List.replicate n Text.blank ++ [0x5d] := List.append_cancel_left hn
    rw [unblanked_append (fun b hb => List.eq_of_mem_replicate hb) (head?_ne_blank rfl (by decide))]
    rfl

/-- Brackets end with the closing one. -/
theorem SpelledIn.ne_nil (hw : SpelledIn options w) : w ≠ [] := by
  rintro rfl
  obtain ⟨options', -, hoptions⟩ := hw 0
  have hlength := (closes_bracketed (.inl rfl) (stays_selectorOption 0) hoptions).length_le
  exact absurd hlength (Nat.not_succ_le_zero _)

/-- Brackets that are closed at once hold no options. -/
theorem SpelledIn.of_close (hw : SpelledIn options (0x5d :: w)) : w = [] ∧ options = [] := by
  obtain ⟨options', hcontents, hoptions⟩ := hw 0
  have hskip : unblanked (0x5d :: w) = 0x5d :: w := unblanked_eq (head?_ne_blank rfl (by decide))
  rcases bracketed_eq_ok_iff.mp hoptions with ⟨hend, rfl⟩ | ⟨hopen, -⟩
  · rw [hskip] at hend
    exact ⟨(List.cons.inj hend).2, List.map_eq_nil_iff.mp hcontents.symm⟩
  · rw [hskip] at hopen
    exact absurd rfl hopen

end Argument

theorem blankBrackets_length (n : Nat) : (blankBrackets n).length = n + 4 := by
  rw [blankBrackets, List.length_append, List.length_append, List.length_replicate]
  show 3 + (n + 1) = n + 4
  omega

/-- What is known of the edit of a selector: it does the same wherever the selector stands, it
    leaves selectors of other entities alone, and it hides the debugger from all others but for
    brackets with nothing but blanks. -/
structure Selector.EditedAs (s : Selector) (ns text rest : Text) : Prop where
  rewrites : Rewrites ns text (hideSelector ns text) rest
  other : s.type ≠ .entities → hideSelector ns text = text
  entities : s.type = .entities →
    (s.HiddenIn ns (hideSelector ns text) ↔ ∀ n, text ≠ blankBrackets (n + 1))

namespace Selector

variable {s : Selector} {ns rest : Text}

theorem editedAs_other (hs : s.type ≠ .entities) (u : Text) :
    s.EditedAs ns (0x40 :: s.type.letter :: u) rest := by
  have hletter : s.type.letter ≠ 0x65 := by
    intro h
    cases htype : s.type <;> rw [htype] at h hs
    case entities => exact hs rfl
    all_goals exact absurd h (by decide)
  have hsame : hideSelector ns (0x40 :: s.type.letter :: u) = 0x40 :: s.type.letter :: u :=
    (rewrites_other hletter u).hideSelector_eq
  refine ⟨?_, fun _ => hsame, fun he => absurd he hs⟩
  rw [hsame]
  exact rewrites_other hletter u

/-- A selector of all entities, from what its edit gives. -/
theorem editedAs_entities {text edited : Text} (hs : s.type = .entities)
    (hrest : Rewrites ns text edited rest) (halone : Rewrites ns text edited [])
    (hhidden : s.HiddenIn ns edited ↔ ∀ n, text ≠ blankBrackets (n + 1)) :
    s.EditedAs ns text rest := by
  have hedited : hideSelector ns text = edited := halone.hideSelector_eq
  rw [← hedited] at hrest hhidden
  exact ⟨hrest, fun hne => absurd hs hne, fun _ => hhidden⟩

theorem editedAs_plain (hns : Argument.IsWord ns) (hs : s.type = .entities)
    (hoptions : s.options = []) (hrest : rest.head? ≠ some 0x5b) : s.EditedAs ns "@e" rest := by
  refine editedAs_entities hs (rewrites_plain hrest)
    (rewrites_plain (Option.some_ne_none _ ∘ Eq.symm)) ?_
  refine iff_of_true (Argument.hiddenIn_alone hns hoptions) fun n h => ?_
  have hlength := congrArg List.length h
  rw [blankBrackets_length] at hlength
  exact absurd hlength (show ¬ 2 = n + 1 + 4 by omega)

theorem editedAs_brackets (hns : Argument.IsWord ns) (hs : s.type = .entities)
    (hw : Argument.SpelledIn s.options w) : s.EditedAs ns ("@e[" ++ w) rest := by
  obtain ⟨b, w, rfl⟩ := List.exists_cons_of_ne_nil hw.ne_nil
  by_cases hb : b = 0x5d
  · subst hb
    obtain ⟨rfl, hoptions⟩ := hw.of_close
    refine editedAs_entities hs rewrites_empty rewrites_empty ?_
    refine iff_of_true (Argument.hiddenIn_alone hns hoptions) fun n h => ?_
    have hlength := congrArg List.length h
    rw [blankBrackets_length] at hlength
    exact absurd hlength (show ¬ 4 = n + 1 + 4 by omega)
  · refine editedAs_entities hs (rewrites_options hb w) (rewrites_options hb w) ?_
    rw [Argument.hiddenIn_options_iff hns hw, ne_eq, Argument.head?_unblanked_eq_close_iff hw,
      not_exists]
    refine ⟨fun h n => h (n + 1), fun h n hn => ?_⟩
    cases n with
    | zero => exact hb (List.cons.inj (List.append_cancel_left hn)).1
    | succ n => exact h n hn

end Selector

/-- Whatever selector is read, its edit does the same wherever it stands.  Selectors of other
    entities stay as they are; those of all entities leave out the debugger and keep their options,
    unless their brackets hold nothing but blanks. -/
theorem hidden_iff_not_blankBrackets {c : PackConfig} (hc : c.error? = none) {t rest : Text}
    {s : Selector} (h : Argument.selector t = .ok (s, rest)) :
    ∃ text, t = text ++ rest ∧ s.EditedAs c.ns text rest := by
  have hns := Argument.isWord_ns hc
  by_cases hs : s.type = .entities
  · have hletter : s.type.letter = 0x65 := by rw [hs]; rfl
    rcases Argument.exists_spelling h with ⟨hoptions, hrest, rfl⟩ | ⟨w, hw, rfl⟩
    · exact ⟨"@e", by rw [hletter]; rfl, Selector.editedAs_plain hns hs hoptions hrest⟩
    · exact ⟨"@e[" ++ w, by rw [hletter]; rfl, Selector.editedAs_brackets hns hs hw⟩
  · rcases Argument.exists_spelling h with ⟨-, -, rfl⟩ | ⟨w, -, rfl⟩
    · exact ⟨[0x40, s.type.letter], rfl, Selector.editedAs_other hs []⟩
    · exact ⟨0x40 :: s.type.letter :: 0x5b :: w, rfl, Selector.editedAs_other hs (0x5b :: w)⟩

/-- Brackets with one blank are read, and their edit hides nothing. -/
theorem not_hiddenIn_blankBrackets :
    PackConfig.error? {} = none ∧ Argument.selector (blankBrackets 1) = .ok (⟨.entities, []⟩, []) ∧
      ¬ Selector.HiddenIn ⟨.entities, []⟩ ({} : PackConfig).ns
        (hideSelector ({} : PackConfig).ns (blankBrackets 1)) := by
  have hconfig : PackConfig.error? {} = none := by decide
  have hread : Argument.selector (blankBrackets 1) = .ok (⟨.entities, []⟩, []) := rfl
  refine ⟨hconfig, hread, fun hhidden => ?_⟩
  obtain ⟨text, htext, hedited⟩ := hidden_iff_not_blankBrackets hconfig hread
  rw [List.append_nil] at htext
  subst htext
  exact (hedited.entities rfl).mp hhidden 0 rfl

end DatapackDebug
