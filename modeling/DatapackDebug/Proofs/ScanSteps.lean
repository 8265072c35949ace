import DatapackDebug.Argument.Scan
import Mathlib.Data.List.TakeWhile

namespace DatapackDebug.Argument

/-!
# Steps of readers

What the elementary readers do at the front of a text, and what their success says about the text.

* `bind_eq`, `of_bind_eq_ok`, `of_bind_eq_error` — a reader goes on with what the reader before it
  has left;
* `spanOf_eq_ok_iff` — the longest run of bytes of a class;
* `skipBlanks_eq`, `accept_same`, `require_same`, … — blanks and single bytes;
* `separated_succ_eq_ok_iff`, `bracketed_eq_ok_iff` — one turn of the loop over items, and brackets
  around items.
-/

variable {α β : Type} {t rest : Text} {p : UInt8 → Bool} {b : UInt8} {scan : Scan α}

/-! ### One reader after the other -/

/-- A reader goes on with what the reader before it has left. -/
theorem bind_eq {a : α} (h : scan t = .ok (a, rest)) (next : α → Scan β) :
    (scan >>= next) t = next a rest := by
  show (scan t >>= fun r => next r.1 r.2) = next a rest
  rw [h]
  rfl

/-- What two readers one after the other have found. -/
theorem of_bind_eq_ok {next : α → Scan β} {b : β} (h : (scan >>= next) t = .ok (b, rest)) :
    ∃ a mid, scan t = .ok (a, mid) ∧ next a mid = .ok (b, rest) := by
  have hbind : (scan t >>= fun r => next r.1 r.2) = .ok (b, rest) := h
  cases hscan : scan t with
  | error failure =>
    rw [hscan] at hbind
    cases hbind
  | ok r =>
    rw [hscan] at hbind
    exact ⟨r.1, r.2, rfl, hbind⟩

/-- Where two readers one after the other have failed. -/
theorem of_bind_eq_error {next : α → Scan β} {failure : Failure}
    (h : (scan >>= next) t = .error failure) :
    scan t = .error failure ∨ ∃ a mid, scan t = .ok (a, mid) ∧ next a mid = .error failure := by
  have hbind : (scan t >>= fun r => next r.1 r.2) = .error failure := h
  cases hscan : scan t with
  | error failure' =>
    rw [hscan] at hbind
    cases hbind
    exact .inl rfl
  | ok r =>
    rw [hscan] at hbind
    exact .inr ⟨r.1, r.2, rfl, hbind⟩

theorem get_bind_eq (next : Text → Scan α) (t : Text) : (get >>= next) t = next t t := rfl

theorem set_bind_eq (next : PUnit → Scan α) (t rest : Text) :
    ((set rest : Scan PUnit) >>= next) t = next ⟨⟩ rest := rfl

/-- What was taken, by the lengths of the text and of its rest. -/
theorem take_length_sub (front rest : Text) :
    (front ++ rest).take ((front ++ rest).length - rest.length) = front := by
  rw [List.length_append, Nat.add_sub_cancel, List.take_left]

/-! ### Runs of bytes -/

theorem of_head?_dropWhile (h : (t.dropWhile p).head? = some b) : p b = false := by
  have hnot := List.head?_dropWhile_not p t
  rwa [h] at hnot

theorem dropWhile_append {run : Text} (hrun : ∀ b ∈ run, p b = true)
    (hrest : ∀ b, rest.head? = some b → p b = false) : (run ++ rest).dropWhile p = rest := by
  rw [List.dropWhile_append_of_pos hrun]
  cases rest with
  | nil => rfl
  | cons b rest => rw [List.dropWhile_cons_of_neg (Bool.eq_false_iff.mp (hrest b rfl))]

/-- A run is the longest one if a byte of another kind follows. -/
theorem spanOf_eq_ok_iff {run : Text} :
    spanOf p t = .ok (run, rest) ↔
      t = run ++ rest ∧ (∀ b ∈ run, p b = true) ∧ ∀ b, rest.head? = some b → p b = false := by
  constructor
  · intro h
    cases h
    exact ⟨List.takeWhile_append_dropWhile.symm, fun b => List.mem_takeWhile_imp,
      fun b => of_head?_dropWhile⟩
  · rintro ⟨rfl, hrun, hrest⟩
    have hdrop := dropWhile_append hrun hrest
    have hsplit : (run ++ rest).takeWhile p ++ (run ++ rest).dropWhile p = run ++ rest :=
      List.takeWhile_append_dropWhile
    rw [hdrop] at hsplit
    rw [spanOf, hdrop, List.append_cancel_right hsplit]

/-! ### Blanks and bytes -/

/-- A text without the blanks at its front. -/
def unblanked (t : Text) : Text := t.dropWhile (· == Text.blank)

theorem head?_unblanked (t : Text) : (unblanked t).head? ≠ some Text.blank := by
  intro hhead
  cases of_head?_dropWhile hhead

theorem exists_blanks (t : Text) :
    ∃ blanks, t = blanks ++ unblanked t ∧ (∀ b ∈ blanks, b = Text.blank) ∧
      (unblanked t).head? ≠ some Text.blank := by
  refine ⟨t.takeWhile (· == Text.blank), List.takeWhile_append_dropWhile.symm, fun b hb => ?_,
    head?_unblanked t⟩
  have hblank := List.mem_takeWhile_imp hb
  exact eq_of_beq hblank

theorem unblanked_append {blanks : Text} (hblanks : ∀ b ∈ blanks, b = Text.blank)
    (hrest : rest.head? ≠ some Text.blank) : unblanked (blanks ++ rest) = rest := by
  refine dropWhile_append (fun b hb => beq_iff_eq.mpr (hblanks b hb)) fun b hb =>
    beq_eq_false_iff_ne.mpr ?_
  rintro rfl
  exact hrest hb

theorem unblanked_eq (h : t.head? ≠ some Text.blank) : unblanked t = t := by
  have hnone : ∀ b ∈ ([] : Text), b = Text.blank := fun _ hb => absurd hb List.not_mem_nil
  exact unblanked_append hnone h

theorem head?_ne_blank (h : t.head? = some b) (hb : b ≠ Text.blank) :
    t.head? ≠ some Text.blank := by
  rw [h]
  exact fun hsome => hb (Option.some.inj hsome)

theorem skipBlanks_eq (h : t.head? ≠ some Text.blank) : skipBlanks t = .ok ((), t) := by
  show Except.ok ((), unblanked t) = .ok ((), t)
  rw [unblanked_eq h]

theorem accept_same (b : UInt8) (t : Text) : accept b (b :: t) = .ok (true, t) :=
  if_pos (beq_self_eq_true b)

theorem accept_other {c : UInt8} (h : c ≠ b) (t : Text) : accept b (c :: t) = .ok (false, c :: t) :=
  if_neg (by simpa using h)

theorem require_same (b : UInt8) (cause : Cause) (t : Text) :
    require b cause (b :: t) = .ok ((), t) := by
  rw [require, bind_eq (accept_same b t)]
  rfl

/-- A byte that was accepted is the first of the text. -/
theorem eq_cons_of_accept (h : accept b t = .ok (true, rest)) : t = b :: rest := by
  cases t with
  | nil => cases h
  | cons c t =>
    by_cases hc : c = b
    · subst hc
      rw [(Prod.mk.inj (Except.ok.inj ((accept_same c t).symm.trans h))).2]
    · cases (accept_other hc t).symm.trans h

/-- Where a byte was not accepted, nothing is taken and another byte is first. -/
theorem of_accept_eq_false (h : accept b t = .ok (false, rest)) : rest = t ∧ t.head? ≠ some b := by
  cases t with
  | nil =>
    cases h
    exact ⟨rfl, Option.some_ne_none _ ∘ Eq.symm⟩
  | cons c t =>
    by_cases hc : c = b
    · subst hc
      cases (accept_same c t).symm.trans h
    · cases (accept_other hc t).symm.trans h
      exact ⟨rfl, fun hsome => hc (Option.some.inj hsome)⟩

/-- Bytes are accepted or not, without errors. -/
theorem accept_ne_error {failure : Failure} : accept b t ≠ .error failure := by
  intro h
  cases t with
  | nil => cases h
  | cons c t =>
    by_cases hc : c = b
    · subst hc
      cases (accept_same c t).symm.trans h
    · cases (accept_other hc t).symm.trans h

theorem eq_cons_of_peek? (h : peek? t = .ok (some b, rest)) : rest = t ∧ t = b :: t.drop 1 := by
  obtain ⟨hhead, rfl⟩ := Prod.mk.inj (Except.ok.inj h)
  obtain ⟨t, rfl⟩ := List.head?_eq_some_iff.mp hhead
  exact ⟨rfl, rfl⟩

/-- A byte that was required is the first of the text. -/
theorem eq_cons_of_require {cause : Cause} {u : Unit} (h : require b cause t = .ok (u, rest)) :
    t = b :: rest := by
  obtain ⟨found, mid, haccept, hfound⟩ := of_bind_eq_ok h
  cases found with
  | false => cases hfound
  | true =>
    cases hfound
    exact eq_cons_of_accept haccept

/-! ### Brackets -/

section Brackets

variable {item : Scan α} {close : UInt8} {unclosed expected : Cause} {n : Nat} {as : List α}

/-- What follows an item and blanks: a comma and other items, or the closing bracket. -/
def separatedTail (item : Scan α) (close : UInt8) (unclosed expected : Cause) (n : Nat)
    (first : α) :
    Option UInt8 → Scan (List α)
  | none => fail unclosed
  | some _ => do
    if ← accept 0x2c then
      let others ← separated item close unclosed expected n
      return first :: others
    else
      require close expected
      return [first]

/-- What follows an item. -/
def separatedRest (item : Scan α) (close : UInt8) (unclosed expected : Cause) (n : Nat)
    (first : α) :
    Scan (List α) := do
  skipBlanks
  separatedTail item close unclosed expected n first (← peek?)

theorem separated_succ :
    separated item close unclosed expected (n + 1) = (do
      skipBlanks
      separatedRest item close unclosed expected n (← item)) := rfl

theorem separatedRest_eq_ok_iff (hclose : close ≠ 0x2c) {first : α} :
    separatedRest item close unclosed expected n first t = .ok (as, rest) ↔
      (∃ after others, unblanked t = 0x2c :: after ∧
          separated item close unclosed expected n after = .ok (others, rest) ∧
          as = first :: others) ∨
        unblanked t = close :: rest ∧ as = [first] := by
  have hskip : skipBlanks t = .ok ((), unblanked t) := rfl
  have hpeek : ∀ b u, peek? (b :: u) = .ok (some b, b :: u) := fun b u => rfl
  rw [separatedRest, bind_eq hskip]
  constructor
  · intro h
    obtain ⟨next, u, hpeek, h⟩ := of_bind_eq_ok h
    obtain ⟨-, rfl⟩ := Prod.mk.inj (Except.ok.inj hpeek)
    cases next with
    | none => cases h
    | some b =>
      obtain ⟨comma, u, haccept, h⟩ := of_bind_eq_ok h
      cases comma with
      | true =>
        obtain ⟨others, u', hothers, h⟩ := of_bind_eq_ok h
        cases h
        exact .inl ⟨u, others, eq_cons_of_accept haccept, hothers, rfl⟩
      | false =>
        obtain ⟨rfl, -⟩ := of_accept_eq_false haccept
        obtain ⟨_, u', hrequire, h⟩ := of_bind_eq_ok h
        cases h
        exact .inr ⟨eq_cons_of_require hrequire, rfl⟩
  · rintro (⟨after, others, ht, hothers, rfl⟩ | ⟨ht, rfl⟩)
    · rw [ht, bind_eq (hpeek ..)]
      show (accept 0x2c >>= _) (0x2c :: after) = _
      rw [bind_eq (accept_same ..), if_pos rfl, bind_eq hothers]
      rfl
    · rw [ht, bind_eq (hpeek ..)]
      show (accept 0x2c >>= _) (close :: rest) = _
      rw [bind_eq (accept_other hclose _), if_neg Bool.false_ne_true, bind_eq (require_same ..)]
      rfl

/-- One turn of the loop: an item, and behind it a comma and other items, or the closing bracket. -/
theorem separated_succ_eq_ok_iff (hclose : close ≠ 0x2c) :
    separated item close unclosed expected (n + 1) t = .ok (as, rest) ↔
      ∃ a mid, item (unblanked t) = .ok (a, mid) ∧
        ((∃ after others, unblanked mid = 0x2c :: after ∧
            separated item close unclosed expected n after = .ok (others, rest) ∧
            as = a :: others) ∨
          unblanked mid = close :: rest ∧ as = [a]) := by
  have hskip : skipBlanks t = .ok ((), unblanked t) := rfl
  rw [separated_succ, bind_eq hskip]
  constructor
  · intro h
    obtain ⟨a, mid, hitem, hrest⟩ := of_bind_eq_ok h
    exact ⟨a, mid, hitem, (separatedRest_eq_ok_iff hclose).mp hrest⟩
  · rintro ⟨a, mid, hitem, hcase⟩
    rw [bind_eq hitem]
    exact (separatedRest_eq_ok_iff hclose).mpr hcase

/-- The loop skips blanks before an item itself. -/
theorem separated_unblanked :
    separated item close unclosed expected (n + 1) (unblanked t) =
      separated item close unclosed expected (n + 1) t := by
  have hskip : skipBlanks t = .ok ((), unblanked t) := rfl
  rw [separated, bind_eq hskip, bind_eq (skipBlanks_eq (head?_unblanked t))]

/-- Brackets hold nothing but blanks, or items. -/
theorem bracketed_eq_ok_iff :
    bracketed item close unclosed expected t = .ok (as, rest) ↔
      unblanked t = close :: rest ∧ as = [] ∨
        (unblanked t).head? ≠ some close ∧
          separated item close unclosed expected (unblanked t).length.succ (unblanked t) =
            .ok (as, rest) := by
  have hskip : skipBlanks t = .ok ((), unblanked t) := rfl
  rw [bracketed, bind_eq hskip]
  constructor
  · intro h
    obtain ⟨closed, mid, haccept, h⟩ := of_bind_eq_ok h
    cases closed with
    | true =>
      cases h
      exact .inl ⟨eq_cons_of_accept haccept, rfl⟩
    | false =>
      obtain ⟨rfl, hhead⟩ := of_accept_eq_false haccept
      exact .inr ⟨hhead, h⟩
  · rintro (⟨ht, rfl⟩ | ⟨hhead, hseparated⟩)
    · rw [ht, bind_eq (accept_same ..), if_pos rfl]
      rfl
    · have haccept : accept close (unblanked t) = .ok (false, unblanked t) := by
        cases hcons : unblanked t with
        | nil => rfl
        | cons b u =>
          rw [hcons] at hhead
          exact accept_other (fun h => hhead (congrArg some h)) u
      rw [bind_eq haccept, if_neg Bool.false_ne_true, get_bind_eq]
      exact hseparated

end Brackets

end DatapackDebug.Argument
