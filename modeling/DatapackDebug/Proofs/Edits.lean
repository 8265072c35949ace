import DatapackDebug.Proofs.CommandSpans
import DatapackDebug.Proofs.Names

namespace DatapackDebug

/-!
# Edits at once

Edits are made one after another, from the last to the first, in a text whose length changes.  If no
two of them meet, this is the same as to make them all at once, and their order in the list does not
matter.

* `Edit.atOnce` — the text with all edits made at once, position by position;
* `Edit.applyOne_atOnce` — one more edit, in front of the others;
* `Edit.apply_eq_atOnce` — all edits, in any order;
* `hideEdit?_eq_some_iff` — what is inserted at a selector of all entities;
* `offset_le_of_selectorIn` — an edit of a selector stays in the part of the selector.
-/

namespace Edit

variable {a b c t : Text} {d e : Edit} {es : List Edit} {pos : Nat} {es' : List Edit}

/-! ### Edits position by position -/

/-- Does the edit take out the byte at a position? -/
def removes (e : Edit) (i : Nat) : Bool := decide (e.offset ≤ i) && decide (i < e.offset + e.remove)

/-- What is inserted at a position. -/
def insertedAt (es : List Edit) (i : Nat) : Text := (es.filter (·.offset == i)).flatMap (·.insert)

/-- A text that stands at a position, with all edits made at once: at each position stands what is
    inserted there, and then the byte of the text, unless an edit takes it out. -/
def atOnce (es : List Edit) : Nat → Text → Text
  | pos, [] => insertedAt es pos
  | pos, b :: t =>
    insertedAt es pos ++ ((if es.any (·.removes pos) then [] else [b]) ++ atOnce es (pos + 1) t)

theorem insertedAt_eq_nil (h : ∀ e ∈ es, e.offset ≠ pos) : insertedAt es pos = [] := by
  have hnone : es.filter (·.offset == pos) = [] := List.filter_eq_nil_iff.mpr fun e he => by
    simpa using h e he
  rw [insertedAt, hnone, List.flatMap_nil]

theorem insertedAt_cons_self :
    insertedAt (e :: es) e.offset = e.insert ++ insertedAt es e.offset := by
  simp [insertedAt]

theorem insertedAt_cons_of_ne (h : e.offset ≠ pos) :
    insertedAt (e :: es) pos = insertedAt es pos := by
  simp [insertedAt, h]

theorem removes_eq_false (h : e.offset + e.remove ≤ pos ∨ pos < e.offset) :
    e.removes pos = false := by
  simp only [removes, Bool.and_eq_false_iff, decide_eq_false_iff_not]
  omega

theorem any_removes_eq_false (h : ∀ e ∈ es, e.offset + e.remove ≤ pos ∨ pos < e.offset) :
    es.any (·.removes pos) = false :=
  List.any_eq_false.mpr fun e he => Bool.not_eq_true _ ▸ removes_eq_false (h e he)

/-- Edits behind a beginning of the text do not change how it is edited. -/
theorem exists_atOnce_append (es : List Edit) (pos : Nat) (a : Text) :
    ∃ a', ∀ c, atOnce es pos (a ++ c) = a' ++ atOnce es (pos + a.length) c := by
  induction a generalizing pos with
  | nil => exact ⟨[], fun c => rfl⟩
  | cons b a ih =>
    obtain ⟨a', ha'⟩ := ih (pos + 1)
    refine ⟨insertedAt es pos ++ ((if es.any (·.removes pos) then [] else [b]) ++ a'), fun c => ?_⟩
    rw [List.cons_append, atOnce, ha', List.length_cons, Nat.add_right_comm]
    simp [Nat.add_assoc]

/-- A part of the text that no edit touches stays as it is, behind what is inserted in front of
    it. -/
theorem atOnce_append (ha : a ≠ [])
    (h : ∀ e ∈ es, e.offset + e.remove ≤ pos ∨ pos + a.length ≤ e.offset) (c : Text) :
    atOnce es pos (a ++ c) = insertedAt es pos ++ (a ++ atOnce es (pos + a.length) c) := by
  induction a generalizing pos with
  | nil => exact absurd rfl ha
  | cons b a ih =>
    simp only [List.length_cons] at h
    have hkept : es.any (·.removes pos) = false := any_removes_eq_false fun e he => by
      have := h e he; omega
    rw [List.cons_append, atOnce, hkept, if_neg Bool.false_ne_true]
    by_cases hempty : a = []
    · simp [hempty]
    · have hlength := List.length_pos_iff.mpr hempty
      have hnone : insertedAt es (pos + 1) = [] := insertedAt_eq_nil fun e he => by
        have := h e he; omega
      rw [ih hempty fun e he => by have := h e he; omega, hnone, List.length_cons,
        Nat.add_right_comm]
      simp [Nat.add_assoc]

/-- What stands before all edits stays as it is. -/
theorem atOnce_append_left (h : ∀ e ∈ es, pos + a.length ≤ e.offset) (c : Text) :
    atOnce es pos (a ++ c) = a ++ atOnce es (pos + a.length) c := by
  by_cases ha : a = []
  · simp [ha]
  · have hlength := List.length_pos_iff.mpr ha
    have hnone : insertedAt es pos = [] := insertedAt_eq_nil fun e he => by have := h e he; omega
    rw [atOnce_append ha (fun e he => .inr (h e he)), hnone, List.nil_append]

/-- Where no edit stands, the next byte stays. -/
theorem head?_atOnce (hplace : ∀ e ∈ es, e.offset ≠ pos)
    (hkept : ∀ e ∈ es, e.offset + e.remove ≤ pos ∨ pos < e.offset) :
    (atOnce es pos t).head? = t.head? := by
  cases t with
  | nil => rw [atOnce, insertedAt_eq_nil hplace]
  | cons b t => rw [atOnce, insertedAt_eq_nil hplace, any_removes_eq_false hkept]; rfl

theorem atOnce_nil (pos : Nat) (t : Text) : atOnce [] pos t = t := by
  have h : atOnce [] pos (t ++ []) = t ++ insertedAt [] (pos + t.length) :=
    atOnce_append_left (by simp) []
  simpa [insertedAt] using h

/-- Behind an edit nothing is left of it. -/
theorem atOnce_cons_of_lt (hlt : e.offset < pos) (hle : e.offset + e.remove ≤ pos) (c : Text) :
    atOnce (e :: es) pos c = atOnce es pos c := by
  induction c generalizing pos with
  | nil => exact insertedAt_cons_of_ne (Nat.ne_of_lt hlt)
  | cons b c ih =>
    rw [atOnce, atOnce, insertedAt_cons_of_ne (Nat.ne_of_lt hlt), List.any_cons,
      removes_eq_false (.inl hle), Bool.false_or, ih (by omega) (by omega)]

/-! ### Edits that do not meet -/

/-- Two edits take out different bytes, they stand at different places, and neither stands within
    what the other takes out. -/
structure Apart (d e : Edit) : Prop where
  disjoint : ∀ i, ¬ (d.removes i = true ∧ e.removes i = true)
  distinct : d.offset ≠ e.offset
  notWithin : ¬ (d.offset < e.offset ∧ e.offset < d.offset + d.remove)
  notAround : ¬ (e.offset < d.offset ∧ d.offset < e.offset + e.remove)

/-- The first edit ends before the second begins. -/
def Before (d e : Edit) : Prop := d.offset < e.offset ∧ d.offset + d.remove ≤ e.offset

theorem apart_iff : Apart d e ↔ Before d e ∨ Before e d := by
  unfold Before
  constructor
  · rintro ⟨-, hdistinct, hwithin, haround⟩
    omega
  · intro h
    refine ⟨fun i => ?_, by omega, by omega, by omega⟩
    simp only [removes, Bool.and_eq_true, decide_eq_true_eq]
    omega

theorem Apart.symm (h : Apart d e) : Apart e d := apart_iff.mpr (apart_iff.mp h).symm

/-- All edits are inside the text, and no two of them meet. -/
structure Separated (t : Text) (es : List Edit) : Prop where
  inside : ∀ e ∈ es, e.offset + e.remove ≤ t.length
  apart : es.Pairwise Apart

theorem Separated.perm (h : Separated t es) (hperm : es'.Perm es) : Separated t es' :=
  ⟨fun e he => h.inside e (hperm.mem_iff.mp he), (hperm.pairwise_iff Apart.symm).mpr h.apart⟩

/-- Of what an edit takes out nothing is left. -/
theorem atOnce_within (hlt : e.offset < pos) (hb : pos + b.length = e.offset + e.remove)
    (h : ∀ d ∈ es, Apart e d) (c : Text) :
    atOnce (e :: es) pos (b ++ c) = atOnce es (e.offset + e.remove) c := by
  induction b generalizing pos with
  | nil =>
    obtain rfl : pos = e.offset + e.remove := hb
    exact atOnce_cons_of_lt hlt (Nat.le_refl _) c
  | cons x b ih =>
    rw [List.length_cons] at hb
    have hnone : insertedAt (e :: es) pos = [] := by
      rw [insertedAt_cons_of_ne (Nat.ne_of_lt hlt)]
      refine insertedAt_eq_nil fun d hd => ?_
      have := (h d hd).notWithin
      omega
    have hremoved : e.removes pos = true := by
      simp only [removes, Bool.and_eq_true, decide_eq_true_eq]
      omega
    rw [List.cons_append, atOnce, hnone, List.any_cons, hremoved, Bool.true_or, if_pos rfl]
    exact ih (by omega) (by omega)

/-- What an edit takes out is replaced by what it inserts. -/
theorem atOnce_span (hb : b.length = e.remove) (h : ∀ d ∈ es, Apart e d) (c : Text) :
    atOnce (e :: es) e.offset (b ++ c) = e.insert ++ atOnce es (e.offset + e.remove) c := by
  cases b with
  | cons x b =>
    have hnone : insertedAt es e.offset = [] := insertedAt_eq_nil fun d hd => (h d hd).distinct.symm
    rw [List.length_cons] at hb
    have hremoved : e.removes e.offset = true := by
      simp only [removes, Bool.and_eq_true, decide_eq_true_eq]
      omega
    rw [List.cons_append, atOnce, insertedAt_cons_self, hnone, List.any_cons, hremoved,
      Bool.true_or, if_pos rfl, atOnce_within (Nat.lt_succ_self _) (by omega) h, List.append_nil,
      List.nil_append]
  | nil =>
    obtain hremove : e.remove = 0 := hb.symm
    rw [hremove, List.nil_append, Nat.add_zero]
    cases c with
    | nil => exact insertedAt_cons_self
    | cons x c =>
      have hkept : e.removes e.offset = false := removes_eq_false (.inl (by omega))
      rw [atOnce, atOnce, insertedAt_cons_self, List.any_cons, hkept, Bool.false_or,
        atOnce_cons_of_lt (Nat.lt_succ_self _) (by omega), List.append_assoc]

/-! ### One edit after another -/

/-- An edit of a part of a text puts another in its place. -/
theorem applyOne_replace (hoffset : e.offset = a.length) (hremove : e.remove = b.length) :
    applyOne (a ++ b ++ c) e = a ++ e.insert ++ c := by
  have hend : e.offset + e.remove = (a ++ b).length := by rw [List.length_append, hoffset, hremove]
  have hinside : ¬ e.offset + e.remove > (a ++ b ++ c).length := by
    simp only [hend, List.length_append]
    omega
  rw [applyOne, if_neg hinside, hend, List.drop_left, List.append_assoc a b, hoffset,
    List.take_left]

/-- One more edit in front of the others. -/
theorem applyOne_atOnce (hinside : e.offset + e.remove ≤ t.length) (h : ∀ d ∈ es, Before e d) :
    applyOne (atOnce es 0 t) e = atOnce (e :: es) 0 t := by
  obtain ⟨a, b, c, rfl, ha, hb⟩ : ∃ a b c, t = a ++ b ++ c ∧ e.offset = a.length ∧
      e.remove = b.length := by
    refine ⟨t.take e.offset, (t.drop e.offset).take e.remove, t.drop (e.offset + e.remove),
      ?_, ?_, ?_⟩
    · rw [List.append_assoc, ← List.drop_drop, List.take_append_drop, List.take_append_drop]
    · rw [List.length_take]
      omega
    · rw [List.length_take, List.length_drop]
      omega
  have hend : (a ++ b).length = e.offset + e.remove := by rw [List.length_append, ha, hb]
  have hothers : atOnce es 0 (a ++ b ++ c) = a ++ b ++ atOnce es (e.offset + e.remove) c := by
    rw [atOnce_append_left (fun d hd => by have := (h d hd).2; omega), Nat.zero_add, hend]
  have hfirst : ∀ d ∈ e :: es, 0 + a.length ≤ d.offset := by
    rw [Nat.zero_add, ← ha]
    exact List.forall_mem_cons.mpr ⟨Nat.le_refl _, fun d hd => Nat.le_of_lt (h d hd).1⟩
  rw [hothers, applyOne_replace ha hb, List.append_assoc a b, atOnce_append_left hfirst,
    Nat.zero_add, ← ha, atOnce_span hb.symm fun d hd =>
      apart_iff.mpr (.inl (h d hd)), List.append_assoc]

/-- All edits, from the last to the first. -/
theorem foldr_applyOne_eq_atOnce (hordered : es.Pairwise Before)
    (hinside : ∀ e ∈ es, e.offset + e.remove ≤ t.length) :
    es.foldr (fun e t => applyOne t e) t = atOnce es 0 t := by
  induction es with
  | nil => exact (atOnce_nil 0 t).symm
  | cons e es ih =>
    obtain ⟨hfirst, hordered⟩ := List.pairwise_cons.mp hordered
    obtain ⟨he, hinside⟩ := List.forall_mem_cons.mp hinside
    rw [List.foldr_cons, ih hordered hinside, applyOne_atOnce he hfirst]

/-- At each position at most one edit inserts something, so the order of the edits does not
    matter. -/
theorem insertedAt_perm (hperm : es'.Perm es) (h : es.Pairwise Apart) (i : Nat) :
    insertedAt es' i = insertedAt es i := by
  have hsame : es'.filter (·.offset == i) = es.filter (·.offset == i) := by
    have hapart := (hperm.pairwise_iff Apart.symm).mpr h
    refine (hperm.filter _).eq_of_pairwise (fun d e hd he hde _ => ?_) (hapart.filter _)
      (h.filter _)
    have hd := eq_of_beq (List.mem_filter.mp hd).2
    exact absurd (hd.trans (eq_of_beq (List.mem_filter.mp he).2).symm) hde.distinct
  rw [insertedAt, hsame, insertedAt]

theorem atOnce_perm (hperm : es'.Perm es) (h : es.Pairwise Apart) (pos : Nat) (t : Text) :
    atOnce es' pos t = atOnce es pos t := by
  induction t generalizing pos with
  | nil => exact insertedAt_perm hperm h pos
  | cons b t ih => rw [atOnce, atOnce, insertedAt_perm hperm h, ih, hperm.any_eq]

/-- Edits that do not meet are made at once, whatever their order in the list. -/
theorem apply_eq_atOnce (h : Separated t es) (hperm : es'.Perm es) :
    apply t es' = atOnce es 0 t := by
  let later : Edit → Edit → Bool := fun d e => decide (d.offset ≥ e.offset)
  have hsorted : (es'.mergeSort later).Pairwise fun d e => later d e = true :=
    List.pairwise_mergeSort (fun a b c hab hbc => by simp [later] at *; omega)
      (fun a b => by simp [later]; omega) _
  have hall : (es'.mergeSort later).reverse.Perm es :=
    (List.reverse_perm _).trans ((List.mergeSort_perm es' later).trans hperm)
  have hseparated := h.perm hall
  have hordered : (es'.mergeSort later).reverse.Pairwise Before := by
    refine (hseparated.apart.and (List.pairwise_reverse.mpr hsorted)).imp fun {d e} hde => ?_
    have hle : d.offset ≤ e.offset := of_decide_eq_true hde.2
    exact (apart_iff.mp hde.1).resolve_right fun hbefore => Nat.not_lt.mpr hle hbefore.1
  have hfold := foldr_applyOne_eq_atOnce hordered hseparated.inside
  rw [List.foldr_reverse, atOnce_perm hall h.apart] at hfold
  exact hfold

end Edit

/-! ### Selectors of all entities -/

/-- The edit leaves out the entities of the debugger at the selector at an offset. -/
inductive Excludes (ns : Text) : Text → Nat → Edit → Prop where
  /-- a selector without brackets gets some -/
  | plain {front rest : Text} : rest.head? ≠ some '[' →
      Excludes ns (front ++ ("@e" ++ rest)) front.length
      { offset := front.length + 2, insert := "[" ++ exclusion ns ++ "]" }
  /-- empty brackets get the condition -/
  | empty {front rest : Text} : Excludes ns (front ++ ("@e[]" ++ rest)) front.length
      { offset := front.length + 3, insert := exclusion ns }
  /-- other brackets get the condition and a comma -/
  | options {front rest : Text} : rest.head? ≠ some ']' →
      Excludes ns (front ++ ("@e[" ++ rest)) front.length
      { offset := front.length + 3, insert := exclusion ns ++ "," }

section Selectors

variable {ns t : Text} {o : Nat} {e : Edit}

theorem startsWith_cons_eq_false {b : UInt8} (h : t.head? ≠ some b) (p : Text) :
    Text.startsWith t (b :: p) = false := by
  cases t with
  | nil => rfl
  | cons c t =>
    have hb : (b == c) = false := beq_false_of_ne fun heq => h (congrArg some heq.symm)
    rw [Text.startsWith, List.isPrefixOf, hb, Bool.false_and]

/-- The edit of the selector behind a part of the text. -/
theorem hideEdit?_append (ns front u : Text) :
    hideEdit? ns (front ++ 0x40 :: 0x65 :: u) front.length =
      some (if Text.startsWith u "[]" then { offset := front.length + 3, insert := exclusion ns }
        else if Text.startsWith u "["
          then { offset := front.length + 3, insert := exclusion ns ++ "," }
        else { offset := front.length + 2, insert := "[" ++ exclusion ns ++ "]" }) := by
  have hle : ¬ front.length > (front ++ 0x40 :: 0x65 :: u).length := by
    rw [List.length_append]
    omega
  rw [hideEdit?, if_neg hle, List.drop_left]
  rfl

theorem Excludes.hideEdit?_eq (h : Excludes ns t o e) : hideEdit? ns t o = some e := by
  cases h with
  | @plain front rest hrest =>
    have hempty : ¬ Text.startsWith rest "[]" = true :=
      Bool.eq_false_iff.mp (startsWith_cons_eq_false hrest _)
    have hopen : ¬ Text.startsWith rest "[" = true :=
      Bool.eq_false_iff.mp (startsWith_cons_eq_false hrest _)
    have hedit := hideEdit?_append ns front rest
    rwa [if_neg hempty, if_neg hopen] at hedit
  | @empty front rest =>
    have hempty : Text.startsWith (0x5b :: 0x5d :: rest) "[]" = true := rfl
    have hedit := hideEdit?_append ns front (0x5b :: 0x5d :: rest)
    rwa [if_pos hempty] at hedit
  | @options front rest hrest =>
    have hempty : ¬ Text.startsWith (0x5b :: rest) "[]" = true :=
      Bool.eq_false_iff.mp (startsWith_cons_eq_false hrest [])
    have hopen : Text.startsWith (0x5b :: rest) "[" = true := rfl
    have hedit := hideEdit?_append ns front (0x5b :: rest)
    rwa [if_neg hempty, if_pos hopen] at hedit

/-- The edit of a selector of all entities depends on the bytes behind `@e`; other selectors have
    none. -/
theorem hideEdit?_eq_some_iff : hideEdit? ns t o = some e ↔ Excludes ns t o e := by
  refine ⟨fun h => ?_, Excludes.hideEdit?_eq⟩
  have hsome := h
  unfold hideEdit? at h
  split at h
  · cases h
  next hle =>
    obtain ⟨rest, hrest, -⟩ := Option.map_eq_some_iff.mp h
    obtain ⟨front, ht, rfl⟩ : ∃ front, t = front ++ (Text.ofString "@e" ++ rest) ∧
        front.length = o := by
      refine ⟨t.take o, ?_, by rw [List.length_take]; omega⟩
      rw [← Text.eq_append_of_dropStart? hrest, List.take_append_drop]
    -- Whichever of the three cases it is, its edit is the one that was found.
    have hfound : ∀ d, Excludes ns t front.length d → Excludes ns t front.length e := fun d hd =>
      Option.some.inj (hd.hideEdit?_eq.symm.trans hsome) ▸ hd
    subst ht
    by_cases hopen : rest.head? = some 0x5b
    · obtain ⟨rest, rfl⟩ := List.head?_eq_some_iff.mp hopen
      by_cases hclose : rest.head? = some 0x5d
      · obtain ⟨rest, rfl⟩ := List.head?_eq_some_iff.mp hclose
        exact hfound _ .empty
      · exact hfound _ (.options hclose)
    · exact hfound _ (.plain hopen)

/-- What hides the entities of the debugger from a selector is inserted behind `@e`, or behind the
    bracket that follows it. -/
theorem of_hideEdit?_eq_some (h : hideEdit? ns t o = some e) :
    e.remove = 0 ∧ ∃ rest, t.drop o = Text.ofString "@e" ++ rest ∧
      (e.offset = o + 2 ∨ e.offset = o + 3 ∧ rest.head? = some 0x5b) := by
  cases hideEdit?_eq_some_iff.mp h with
  | plain => exact ⟨rfl, _, List.drop_left, .inl rfl⟩
  | empty => exact ⟨rfl, _, List.drop_left, .inr ⟨rfl, rfl⟩⟩
  | options => exact ⟨rfl, _, List.drop_left, .inr ⟨rfl, rfl⟩⟩

/-- An edit of a selector stays in the part of the line that the selector takes. -/
theorem offset_le_of_selectorIn {front rest : Text} (hselector : Spells.SelectorIn front 0 o)
    (h : hideEdit? ns (front ++ rest) o = some e) : e.offset ≤ front.length := by
  obtain ⟨before, span, after, rfl, rfl⟩ := hselector
  obtain ⟨-, tail, hdrop, hoffset⟩ := of_hideEdit?_eq_some h
  have htail : span ++ Text.blank :: (after ++ rest) = 0x40 :: 0x65 :: tail := by
    simpa [show Text.ofString "@e" = [0x40, 0x65] from by decide] using hdrop
  -- The space after the selector is none of the bytes `@`, `e` and `[`.
  match span, htail with
  | [], htail => simp [Text.blank] at htail
  | [_], htail => simp [Text.blank] at htail
  | _ :: _ :: span, htail =>
    obtain ⟨-, -, rfl⟩ : _ ∧ _ ∧ span ++ Text.blank :: (after ++ rest) = tail := by
      simpa using htail
    rcases hoffset with hoffset | ⟨hoffset, hhead⟩
    · simp [hoffset]
    · cases span with
      | nil => simp [Text.blank] at hhead
      | cons b span => simp [hoffset]

end Selectors

end DatapackDebug
