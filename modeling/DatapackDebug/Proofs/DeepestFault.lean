import DatapackDebug.Proofs.ArgumentLocality
import DatapackDebug.Proofs.CommandDerivation

namespace DatapackDebug

/-!
# The deepest fault

A line that is no command has failed in every way in which it was tried.  A failed attempt is
described as a derivation is: by the alternatives that are chosen, level by level, up to the one
that ends in a fault.

* `Grammar.Stops`, `Grammar.Proceeds` — an alternative ends in a fault, or goes on with the next
  level;
* `Grammar.Fails` — a failed attempt by its choices and its fault;
* `Grammar.FirstDeepest` — the first of the deepest faults of one level, kept by each step of the
  loop;
* `Grammar.exists_deepest_of_parseChildren` — the parser reports the deepest fault of all failed
  attempts, and of several such the one of the first attempt;
* `Grammar.Fails.index_le` — faults lie in the line.
-/

namespace Grammar

variable (g : Grammar) {i : Nat}

/-! ### Failed attempts -/

/-- An alternative ends in a fault. -/
inductive Stops (pos : Nat) (text : Text) (i : Nat) : CommandFault → Prop where
  /-- it is an argument that cannot be read -/
  | refused {kind e} : (g.node i).kind = .argument kind → kind.parse text = .error e →
      Stops pos text i ⟨.argument e.cause, pos + e.offset⟩
  /-- the line ends, but no command ends here -/
  | incomplete {part} : g.Takes pos text i part text.length → (g.node i).executable = false →
      Stops pos text i ⟨.unknownOrIncomplete, pos + text.length⟩
  /-- what it takes is not followed by a space -/
  | trailing {part span b rest} : g.Takes pos text i part span.length → text = span ++ b :: rest →
      b ≠ Text.blank → Stops pos text i ⟨.trailingData, pos + span.length⟩
  /-- a space follows, but nothing can come after it -/
  | closed {part span rest} : g.Takes pos text i part span.length →
      text = span ++ Text.blank :: rest →
      (∀ added target, ¬ g.Onward i added target) →
        Stops pos text i ⟨.incorrectArgument, pos + span.length⟩

/-- An alternative and the space after it lead to the children of a node, a position and the rest of
    the text. -/
inductive Proceeds (pos : Nat) (text : Text) (i : Nat) : Nat → Nat → Text → Prop where
  | intro {part span rest added target} : g.Takes pos text i part span.length →
      text = span ++ Text.blank :: rest → g.Onward i added target →
      Proceeds pos text i target (pos + span.length + 1) rest

/-- A failed attempt to derive a text at a position from the children of a node: the numbers of the
    alternatives that are chosen, and the fault that it ends in. -/
inductive Fails : Nat → Nat → Text → List Nat → CommandFault → Prop where
  | none {parent pos text} : g.alternatives parent text = [] →
      Fails parent pos text [] (noChild parent pos)
  | stops {parent pos text k i fault} : (g.alternatives parent text)[k]? = some i →
      g.Stops pos text i fault → Fails parent pos text [k] fault
  | proceeds {parent pos text k i target stop rest ks fault} :
      (g.alternatives parent text)[k]? = some i →
      g.Proceeds pos text i target stop rest → Fails target stop rest ks fault →
      Fails parent pos text (k :: ks) fault

variable {g} {empty fault fault' : CommandFault} {parent pos stop target : Nat} {rest text : Text}
  {ks : List Nat}

/-! ### One alternative -/

section

variable {i : Nat}

theorem Stops.parseNode_eq (h : g.Stops pos text i fault) (next : Nat → Nat → Text → Parsed) :
    g.parseNode next i pos text = .error fault := by
  cases h with
  | refused hkind hparse => simp [parseNode, takeNode, hkind, hparse, bind, Except.bind]
  | incomplete htakes hexecutable =>
    simp [parseNode, takes_iff.mp htakes, hexecutable, bind, Except.bind]
  | trailing htakes htext hb =>
    subst htext
    simp [parseNode, takes_iff.mp htakes, hb, bind, Except.bind]
  | closed htakes htext hclosed =>
    subst htext
    have honward : g.onward? i = none := by
      cases honward : g.onward? i with
      | none => rfl
      | some onward => exact absurd (onward_iff.mpr honward) (hclosed onward.1 onward.2)
    simp [parseNode, takes_iff.mp htakes, honward, bind, Except.bind]

theorem Proceeds.parseNode_eq (h : g.Proceeds pos text i target stop rest) :
    ∃ front, ∀ next, g.parseNode next i pos text = (next target stop rest).map (front ++ ·) := by
  obtain @⟨part, span, _, added, _, htakes, htext, honward⟩ := h
  subst htext
  refine ⟨part :: added, fun next => ?_⟩
  cases hnext : next target (pos + span.length + 1) rest <;>
    simp [parseNode, takes_iff.mp htakes, onward_iff.mp honward, hnext, bind, Except.bind, pure,
      Except.pure, Except.map]

/-- An alternative ends in one fault only. -/
theorem Stops.unique (h : g.Stops pos text i fault) (h' : g.Stops pos text i fault') :
    fault = fault' := by
  have hnext := h.parseNode_eq fun _ _ _ => .ok []
  rw [h'.parseNode_eq] at hnext
  exact (Except.error.inj hnext).symm

/-- An alternative that ends in a fault does not go on. -/
theorem Stops.not_proceeds (h : g.Stops pos text i fault) :
    ¬ g.Proceeds pos text i target stop rest := by
  intro hproceeds
  obtain ⟨front, hparse⟩ := hproceeds.parseNode_eq
  have hnext := hparse fun _ _ _ => .ok []
  rw [h.parseNode_eq] at hnext
  cases hnext

/-- An alternative goes on at one place only. -/
theorem Proceeds.unique {target' stop' : Nat} {rest' : Text}
    (h : g.Proceeds pos text i target stop rest) (h' : g.Proceeds pos text i target' stop' rest') :
    target = target' ∧ stop = stop' ∧ rest = rest' := by
  obtain ⟨htakes, htext, honward⟩ := h
  obtain ⟨htakes', htext', honward'⟩ := h'
  obtain ⟨-, hlength⟩ := htakes.unique htakes'
  obtain ⟨rfl, hrests⟩ := List.append_inj (htext.symm.trans htext') hlength
  exact ⟨(honward.unique honward').2, rfl, (List.cons.inj hrests).2⟩

/-- An alternative goes on in the text. -/
theorem Proceeds.length_lt (h : g.Proceeds pos text i target stop rest) :
    rest.length < text.length ∧ stop + rest.length = pos + text.length := by
  obtain @⟨part, span, _, added, _, htakes, htext, honward⟩ := h
  rw [htext, List.length_append, List.length_cons]
  omega

/-- The root is no alternative. -/
theorem kind_ne_root_of_mem_alternatives (hi : i ∈ g.alternatives parent text) :
    (g.node i).kind ≠ .root := by
  intro hkind
  simp only [alternatives] at hi
  split at hi
  · simp [isArgument, hkind] at hi
  · simpa [hkind] using (List.mem_filter.mp (List.mem_of_mem_take hi)).2

/-- What can become of an alternative. -/
theorem stops_or_proceeds_or_ok (pos : Nat) (hi : i ∈ g.alternatives parent text) :
    (∃ fault, g.Stops pos text i fault) ∨
    (∃ target stop rest, g.Proceeds pos text i target stop rest) ∨
      ∃ nodes, ∀ next, g.parseNode next i pos text = .ok nodes := by
  cases htake : g.takeNode i pos text with
  | error fault =>
    refine .inl ?_
    cases hkind : (g.node i).kind with
    | root => exact absurd hkind (kind_ne_root_of_mem_alternatives hi)
    | literal =>
      rw [takes_iff.mp (.literal hkind)] at htake
      cases htake
    | argument kind =>
      cases hparse : kind.parse text with
      | ok r =>
        rw [takes_iff.mp (.argument hkind hparse)] at htake
        cases htake
      | error e => exact ⟨_, .refused hkind hparse⟩
  | ok r =>
    obtain ⟨part, length⟩ := r
    have htakes : g.Takes pos text i part length := takes_iff.mpr htake
    have hle := htakes.length_le hi
    have hspan : (text.take length).length = length := List.length_take_of_le hle
    cases hrest : text.drop length with
    | nil =>
      obtain rfl : length = text.length := Nat.le_antisymm hle (List.drop_eq_nil_iff.mp hrest)
      cases hexecutable : (g.node i).executable with
      | false => exact .inl ⟨_, .incomplete htakes hexecutable⟩
      | true =>
        refine .inr (.inr ⟨[part], fun next => ?_⟩)
        exact (parseNode_of_takes_all htakes).mpr ⟨hexecutable, rfl⟩
    | cons b rest =>
      have htext : text = text.take length ++ b :: rest := by rw [← hrest, List.take_append_drop]
      rw [← hspan] at htakes
      by_cases hb : b = Text.blank
      · subst hb
        cases honward : g.onward? i with
        | none =>
          refine .inl ⟨_, .closed htakes htext fun added target h => ?_⟩
          rw [onward_iff.mp h] at honward
          cases honward
        | some onward => exact .inr (.inl ⟨_, _, _, htakes, htext, onward_iff.mpr honward⟩)
      · exact .inl ⟨_, .trailing htakes htext hb⟩

end

/-! ### One level -/

/-- The parser tries the alternatives of a level in turn. -/
theorem parseChildren_eq_firstOf (n parent pos : Nat) (text : Text) :
    g.parseChildren (n + 1) parent pos text =
      firstOf (fun i => g.parseNode (g.parseChildren n) i pos text) (noChild parent pos) none
        (g.alternatives parent text) := by
  rw [parseChildren, alternatives_eq]
  cases g.literalChild? parent (text.takeWhile (· != Text.blank)) with
  | none => rfl
  | some i =>
    dsimp only [firstOf]
    cases g.parseNode (g.parseChildren n) i pos text <;> rfl

/-- The attempt with number `k` fails with a fault that is the deepest of all that attempts at nodes
    fail with, and of several such the first. -/
structure FirstDeepest (attempt : Nat → Parsed) (is : List Nat) (k : Nat)
    (fault : CommandFault) : Prop where
  fails : ∃ i, is[k]? = some i ∧ attempt i = .error fault
  deepest : ∀ k' i fault', is[k']? = some i → attempt i = .error fault' →
    fault'.index < fault.index ∨ fault'.index = fault.index ∧ k ≤ k'

section

variable {attempt : Nat → Parsed} {is : List Nat} {k i : Nat}

theorem FirstDeepest.singleton (h : attempt i = .error fault) :
    FirstDeepest attempt [i] 0 fault := by
  refine ⟨⟨i, rfl, h⟩, fun k' i' fault' hi' hfault' => ?_⟩
  obtain ⟨rfl, rfl⟩ : k' = 0 ∧ i' = i := by
    cases k' with
    | zero => exact ⟨rfl, (Option.some.inj hi').symm⟩
    | succ k' => cases hi'
  rw [h] at hfault'
  cases hfault'
  exact .inr ⟨rfl, le_rfl⟩

/-- One more attempt takes the place of the deepest one if it goes deeper. -/
theorem FirstDeepest.concat (hbest : FirstDeepest attempt is k fault)
    (h : attempt i = .error fault') :
    ∃ k', FirstDeepest attempt (is ++ [i]) k' (deeper (some fault) fault') := by
  obtain ⟨⟨i₀, hi₀, hfault⟩, hdeepest⟩ := hbest
  have hk : k < is.length := (List.getElem?_eq_some_iff.mp hi₀).1
  -- An attempt is one of those before, or the new one.
  have hsplit : ∀ k' i', (is ++ [i])[k']? = some i' →
      is[k']? = some i' ∨ k' = is.length ∧ i' = i := by
    intro k' i' hi'
    rcases Nat.lt_or_ge k' is.length with hlt | hge
    · rw [List.getElem?_append_left hlt] at hi'
      exact .inl hi'
    · rw [List.getElem?_append_right hge] at hi'
      have hlt := (List.getElem?_eq_some_iff.mp hi').1
      rw [List.length_singleton] at hlt
      have hk' : k' = is.length := by omega
      rw [hk', Nat.sub_self] at hi'
      exact .inr ⟨hk', (Option.some.inj hi').symm⟩
  by_cases hlt : fault'.index > fault.index
  · have hdeeper : deeper (some fault) fault' = fault' := if_pos hlt
    rw [hdeeper]
    refine ⟨is.length, ⟨i, List.getElem?_concat_length, h⟩, fun k' i' fault'' hi' hfault' => ?_⟩
    rcases hsplit k' i' hi' with hbefore | ⟨rfl, rfl⟩
    · have hle := hdeepest k' i' fault'' hbefore hfault'
      omega
    · rw [h] at hfault'
      cases hfault'
      exact .inr ⟨rfl, le_rfl⟩
  · have hdeeper : deeper (some fault) fault' = fault := if_neg hlt
    rw [hdeeper]
    refine ⟨k, ⟨i₀, by rw [List.getElem?_append_left hk, hi₀], hfault⟩,
      fun k' i' fault'' hi' hfault' => ?_⟩
    rcases hsplit k' i' hi' with hbefore | ⟨rfl, rfl⟩
    · exact hdeepest k' i' fault'' hbefore hfault'
    · rw [h] at hfault'
      cases hfault'
      omega

/-- If all attempts fail, the deepest fault is reported. -/
theorem FirstDeepest.run {js : List Nat} (hbest : FirstDeepest attempt is k fault)
    (h : firstOf attempt empty (some fault) js = .error fault') :
    ∃ k', FirstDeepest attempt (is ++ js) k' fault' := by
  induction js generalizing is k fault with
  | nil =>
    cases h
    rw [List.append_nil]
    exact ⟨k, hbest⟩
  | cons j js ih =>
    rw [firstOf] at h
    cases hattempt : attempt j with
    | ok nodes =>
      rw [hattempt] at h
      cases h
    | error fault'' =>
      rw [hattempt] at h
      obtain ⟨k', hnext⟩ := hbest.concat hattempt
      have hrun := ih hnext h
      rwa [List.append_assoc, List.singleton_append] at hrun

/-- A level without success has no alternative, or reports the first of the deepest faults. -/
theorem firstDeepest_of_firstOf (h : firstOf attempt empty none is = .error fault) :
    (is = [] ∧ fault = empty) ∨ ∃ k, FirstDeepest attempt is k fault := by
  cases is with
  | nil => exact .inl ⟨rfl, (Except.error.inj h).symm⟩
  | cons i is =>
    rw [firstOf] at h
    cases hattempt : attempt i with
    | ok nodes =>
      rw [hattempt] at h
      cases h
    | error fault' =>
      rw [hattempt] at h
      exact .inr ((FirstDeepest.singleton hattempt).run h)

/-- Where no success is found, every attempt fails. -/
theorem error_of_firstOf {best : Option CommandFault}
    (h : firstOf attempt empty best is = .error fault) (hi : i ∈ is) :
    ∃ fault', attempt i = .error fault' := by
  have hnone := toOption_firstOf attempt empty best is
  rw [h, eq_comm] at hnone
  have hattempt := List.findSome?_eq_none_iff.mp hnone i hi
  cases hresult : attempt i with
  | ok nodes =>
    rw [hresult] at hattempt
    cases hattempt
  | error fault' => exact ⟨fault', rfl⟩

end

/-! ### All levels -/

/-- A fault is the deepest of all failed attempts, and the choices are the first that end in such a
    fault. -/
structure Deepest (g : Grammar) (parent pos : Nat) (text : Text) (ks : List Nat)
    (fault : CommandFault) : Prop where
  fails : g.Fails parent pos text ks fault
  deepest : ∀ ks' fault', g.Fails parent pos text ks' fault' →
    fault'.index < fault.index ∨ fault'.index = fault.index ∧ ks ≤ ks'

/-- An attempt stops where its first alternative does. -/
theorem Fails.of_stops {k : Nat} (h' : g.Fails parent pos text (k :: ks) fault')
    (hi : (g.alternatives parent text)[k]? = some i) (hstops : g.Stops pos text i fault) :
    ks = [] ∧ fault' = fault := by
  cases h' with
  | stops hi' hstops' =>
    cases hi.symm.trans hi'
    exact ⟨rfl, hstops'.unique hstops⟩
  | proceeds hi' hproceeds' =>
    cases hi.symm.trans hi'
    exact absurd hproceeds' hstops.not_proceeds

/-- An attempt goes on where its first alternative does. -/
theorem Fails.of_proceeds {k : Nat} (h' : g.Fails parent pos text (k :: ks) fault')
    (hi : (g.alternatives parent text)[k]? = some i)
    (hproceeds : g.Proceeds pos text i target stop rest) : g.Fails target stop rest ks fault' := by
  cases h' with
  | stops hi' hstops' =>
    cases hi.symm.trans hi'
    exact absurd hproceeds hstops'.not_proceeds
  | proceeds hi' hproceeds' hfails' =>
    cases hi.symm.trans hi'
    obtain ⟨rfl, rfl, rfl⟩ := hproceeds.unique hproceeds'
    exact hfails'

/-- An alternative that fails does so with the deepest fault of the attempts that start with it, if
    the level below reports such faults. -/
theorem exists_deepest_of_parseNode {n k : Nat} (hi : (g.alternatives parent text)[k]? = some i)
    (hnext : ∀ target stop rest fault, rest.length < text.length →
      g.parseChildren n target stop rest = .error fault → ∃ ks, g.Deepest target stop rest ks fault)
    (h : g.parseNode (g.parseChildren n) i pos text = .error fault) :
    ∃ ks, g.Fails parent pos text (k :: ks) fault ∧
      ∀ ks' fault', g.Fails parent pos text (k :: ks') fault' →
        fault'.index < fault.index ∨ fault'.index = fault.index ∧ ks ≤ ks' := by
  rcases stops_or_proceeds_or_ok pos (List.mem_of_getElem? hi) with
    ⟨fault₀, hstops⟩ | ⟨target, stop, rest, hproceeds⟩ | ⟨nodes, hok⟩
  · rw [hstops.parseNode_eq] at h
    cases h
    refine ⟨[], .stops hi hstops, fun ks' fault' h' => ?_⟩
    obtain ⟨rfl, rfl⟩ := h'.of_stops hi hstops
    exact .inr ⟨rfl, le_rfl⟩
  · obtain ⟨front, hparse⟩ := hproceeds.parseNode_eq
    rw [hparse] at h
    have hrest : g.parseChildren n target stop rest = .error fault := by
      cases hresult : g.parseChildren n target stop rest with
      | ok nodes =>
        rw [hresult] at h
        cases h
      | error fault' =>
        rw [hresult] at h
        rw [Except.error.inj h]
    obtain ⟨ks, hfails, hdeepest⟩ := hnext target stop rest fault hproceeds.length_lt.1 hrest
    refine ⟨ks, .proceeds hi hproceeds hfails, fun ks' fault' h' => ?_⟩
    exact hdeepest ks' fault' (h'.of_proceeds hi hproceeds)
  · rw [hok] at h
    cases h

/-- With enough fuel, the parser reports the deepest fault. -/
theorem exists_deepest_of_parseChildren {n : Nat}
    (h : g.parseChildren n parent pos text = .error fault) (hn : text.length < n) :
    ∃ ks, g.Deepest parent pos text ks fault := by
  induction n generalizing parent pos text fault with
  | zero => omega
  | succ n ih =>
    have hnext : ∀ target stop rest fault, rest.length < text.length →
        g.parseChildren n target stop rest = .error fault →
        ∃ ks, g.Deepest target stop rest ks fault :=
      fun target stop rest fault hlt hrest => ih hrest (by omega)
    rw [parseChildren_eq_firstOf] at h
    rcases firstDeepest_of_firstOf h with ⟨hnone, rfl⟩ | ⟨k, ⟨i, hi, hnode⟩, hlevel⟩
    · refine ⟨[], .none hnone, fun ks' fault' h' => ?_⟩
      cases h' with
      | none => exact .inr ⟨rfl, le_rfl⟩
      | stops hi' | proceeds hi' =>
        rw [hnone] at hi'
        cases hi'
    · obtain ⟨ks, hfails, hsame⟩ := exists_deepest_of_parseNode hi hnext hnode
      refine ⟨k :: ks, hfails, fun ks' fault' h' => ?_⟩
      -- Every other attempt goes no deeper than the fault of the alternative that it starts with.
      have hother : ∀ k' i' ks'', (g.alternatives parent text)[k']? = some i' →
          g.Fails parent pos text (k' :: ks'') fault' →
          fault'.index < fault.index ∨ fault'.index = fault.index ∧ k :: ks ≤ k' :: ks'' := by
        intro k' i' ks'' hi' h''
        obtain ⟨fault₁, hnode'⟩ := error_of_firstOf h (List.mem_of_getElem? hi')
        obtain ⟨ks₁, -, hdeepest'⟩ := exists_deepest_of_parseNode hi' hnext hnode'
        have hbelow := hdeepest' ks'' fault' h''
        rcases hlevel k' i' fault₁ hi' hnode' with hlt | ⟨heq, hle⟩
        · omega
        · rcases Nat.lt_or_eq_of_le hle with hlt | rfl
          · have hfirst : k :: ks ≤ k' :: ks'' := le_of_lt (List.Lex.rel hlt)
            rcases hbelow with hbelow | ⟨hbelow, -⟩
            · exact .inl (heq ▸ hbelow)
            · exact .inr ⟨hbelow.trans heq, hfirst⟩
          · rcases hsame ks'' fault' h'' with hless | ⟨hindex, hks⟩
            · exact .inl hless
            · exact .inr ⟨hindex, List.cons_le_cons _ hks⟩
      cases h' with
      | none hnone =>
        rw [hnone] at hi
        cases hi
      | stops hi' hstops' => exact hother _ _ _ hi' (.stops hi' hstops')
      | proceeds hi' hproceeds' hfails' => exact hother _ _ _ hi' (.proceeds hi' hproceeds' hfails')

/-- The choices of an attempt determine its fault. -/
theorem Fails.unique (h : g.Fails parent pos text ks fault) (h' : g.Fails parent pos text ks fault')
    : fault = fault' := by
  induction h with
  | none =>
    cases h'
    rfl
  | stops hi hstops => exact (h'.of_stops hi hstops).2.symm
  | proceeds hi hproceeds _ ih => exact ih (h'.of_proceeds hi hproceeds)

/-- There is one deepest fault only, and one first attempt that ends in it. -/
theorem Deepest.unique {ks' : List Nat} (h : g.Deepest parent pos text ks fault)
    (h' : g.Deepest parent pos text ks' fault') : ks' = ks ∧ fault' = fault := by
  have hle := h.deepest ks' fault' h'.fails
  have hge := h'.deepest ks fault h.fails
  have hks : ks' = ks := by
    rcases hle with hlt | ⟨heq, hle⟩
    · omega
    · rcases hge with hlt | ⟨-, hge⟩
      · omega
      · exact le_antisymm hge hle
  subst hks
  exact ⟨rfl, h'.fails.unique h.fails⟩

/-! ### Faults lie in the line -/

theorem Stops.index_le (h : g.Stops pos text i fault) : fault.index ≤ pos + text.length := by
  cases h with
  | refused hkind hparse => exact Nat.add_le_add_left (Argument.Kind.parse_error hparse).1 pos
  | incomplete => exact le_rfl
  | trailing htakes htext =>
    subst htext
    simp
  | closed htakes htext =>
    subst htext
    simp

/-- A fault lies in the text. -/
theorem Fails.index_le (h : g.Fails parent pos text ks fault) :
    fault.index ≤ pos + text.length := by
  induction h with
  | none => exact Nat.le_add_right ..
  | stops hi hstops => exact hstops.index_le
  | proceeds hi hproceeds hfails ih =>
    have hlength := hproceeds.length_lt.2
    omega

end Grammar

end DatapackDebug
