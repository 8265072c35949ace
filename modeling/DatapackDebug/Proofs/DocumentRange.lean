import DatapackDebug.Json.Reader

namespace DatapackDebug

/-!
# Documents are read within their text

What the reader of JSON leaves behind a value is the end of its text.

* `Json.Leaves` — a reader that leaves the end of its text;
* `Json.leaves_readString`, `Json.leaves_readNumeral` — strings and numerals;
* `Json.readSequence_succ_eq_ok_iff` — what is read of arrays and objects, item by item;
* `Json.leaves_readSequence`, `Json.readSequence_bound` — what they leave, and that a bound as large
  as the text suffices;
* `Json.leaves_readValue` — values at any depth.
-/

/-- Two computations one after the other both succeed. -/
theorem exists_of_bind_eq_ok {ε α β : Type} {x : Except ε α} {f : α → Except ε β} {b : β}
    (h : (x >>= f) = .ok b) : ∃ a, x = .ok a ∧ f a = .ok b := by
  cases x with
  | error e => cases h
  | ok a => exact ⟨a, rfl, h⟩

/-- A computation of which the result is changed succeeds. -/
theorem exists_of_map_eq_ok {ε α β : Type} {x : Except ε α} {f : α → β} {b : β}
    (h : x.map f = .ok b) : ∃ a, x = .ok a ∧ f a = b := by
  cases x with
  | error e => cases h
  | ok a => exact ⟨a, rfl, Except.ok.inj h⟩

namespace Json

variable {α β : Type}

/-- What a reader leaves behind a value is the end of its text. -/
def Leaves (read : Text → Except SyntaxError (α × Text)) : Prop :=
  ∀ t a rest, read t = .ok (a, rest) → rest <:+ t

/-- White space is skipped at the front only. -/
theorem skipSpace_suffix (t : Text) : skipSpace t <:+ t := List.dropWhile_suffix _

/-- A value that another reader has found further on. -/
theorem suffix_of_map {read : Except SyntaxError (α × Text)} {f : α × Text → β} {t u rest : Text}
    {b : β} (hread : ∀ a rest, read = .ok (a, rest) → rest <:+ u) (hu : u <:+ t)
    (h : read.map (fun r => (f r, r.2)) = .ok (b, rest)) : rest <:+ t := by
  obtain ⟨⟨a, rest'⟩, hfound, h⟩ := exists_of_map_eq_ok h
  cases h
  exact (hread a rest' hfound).trans hu

/-- The units of a string are read from its text one after the other, escapes of several bytes at
    once. -/
theorem leaves_readUnits : Leaves readUnits := by
  intro t a rest h
  fun_induction readUnits t generalizing a rest with
  | case2 b t hb =>
    cases h
    exact List.suffix_cons b t
  | case5 b hb hslash c hu d₁ d₂ d₃ d₄ t n hcode ih =>
    exact suffix_of_map ih (List.suffix_append [b, c, d₁, d₂, d₃, d₄] t) h
  | case8 b hb hslash c t hu e hescape ih => exact suffix_of_map ih (List.suffix_append [b, c] t) h
  | case10 b t hb hslash hcontrol ih => exact suffix_of_map ih (List.suffix_cons b t) h
  | _ => cases h

/-- A string leaves what its units leave. -/
theorem leaves_readString : Leaves readString :=
  fun t _ _ h => suffix_of_map (leaves_readUnits t) (List.suffix_refl t) h

/-- Digits leave what stands behind the last of them. -/
theorem leaves_readDigits : Leaves readDigits := by
  intro t a rest h
  unfold readDigits at h
  split at h
  · cases h
    exact List.dropWhile_suffix _
  · cases h

/-- The integer part of a numeral is a zero, or digits. -/
theorem leaves_readInteger : Leaves readInteger := by
  intro t a rest h
  unfold readInteger at h
  split at h
  · cases h
    exact List.suffix_cons _ _
  · exact leaves_readDigits _ _ _ h

/-- A fraction, if there is one, is a point with digits. -/
theorem leaves_readFraction : Leaves readFraction := by
  intro t a rest h
  unfold readFraction at h
  split at h
  · next digits => exact suffix_of_map (leaves_readDigits digits) (List.suffix_cons _ _) h
  · cases h
    exact List.suffix_refl _

/-- An exponent, if there is one, is a mark with digits, and a sign between them. -/
theorem leaves_readExponent : Leaves readExponent := by
  intro t a rest h
  unfold readExponent at h
  split at h
  · cases h
    exact List.suffix_refl _
  · next e digits =>
    split at h
    · split at h
      · cases h
      · next s digits =>
        split at h
        · exact suffix_of_map (leaves_readDigits digits) (List.suffix_append [e, s] digits) h
        · exact suffix_of_map (leaves_readDigits _) (List.suffix_cons _ _) h
    · cases h
      exact List.suffix_refl _

/-- A numeral leaves what its last part leaves. -/
theorem leaves_readNumeral : Leaves readNumeral := by
  intro t a rest h
  unfold readNumeral at h
  split at h
  next minus unsigned hsign =>
    have hunsigned : unsigned <:+ t := by
      split at hsign
      · exact (Prod.mk.inj hsign).2 ▸ List.suffix_cons _ _
      · exact (Prod.mk.inj hsign).2 ▸ List.suffix_refl _
    obtain ⟨⟨int, t₁⟩, hint, h⟩ := exists_of_bind_eq_ok h
    obtain ⟨⟨fraction, t₂⟩, hfraction, h⟩ := exists_of_bind_eq_ok h
    obtain ⟨⟨exponent, t₃⟩, hexponent, h⟩ := exists_of_bind_eq_ok h
    obtain ⟨-, rfl⟩ := Prod.mk.inj (Except.ok.inj h)
    have ht₂ : t₃ <:+ t₂ := leaves_readExponent _ _ _ hexponent
    have ht₁ : t₂ <:+ t₁ := leaves_readFraction _ _ _ hfraction
    exact ((ht₂.trans ht₁).trans (leaves_readInteger _ _ _ hint)).trans hunsigned

/-- A word is read letter by letter. -/
theorem readWord_suffix {word es t rest : Text} (h : readWord word es t = .ok rest) :
    rest <:+ t := by
  fun_induction readWord word es t with
  | case1 t => exact Except.ok.inj h ▸ List.suffix_refl t
  | case3 e es b t hb ih => exact (ih h).trans (List.suffix_cons b t)
  | _ => cases h

section Sequences

variable {item : Text → Except SyntaxError (α × Text)} {close : UInt8} {context : ErrorContext}
  {t rest : Text} {n m : Nat}

/-- A sequence goes on behind a comma, and ends at its closing byte. -/
theorem readSequence_succ_eq_ok_iff (hclose : close ≠ 0x2c) {as : List α} :
    readSequence item close context (n + 1) t = .ok (as, rest) ↔
      ∃ a mid, item t = .ok (a, mid) ∧
        ((∃ u others, skipSpace mid = 0x2c :: u ∧
            readSequence item close context n u = .ok (others, rest) ∧ as = a :: others) ∨
          skipSpace mid = close :: rest ∧ as = [a]) := by
  have hself : ((0x2c : UInt8) == Char.toUInt8 ',') = true := by decide
  have hcomma : (close == Char.toUInt8 ',') = false := beq_eq_false_iff_ne.mpr hclose
  constructor
  · intro h
    obtain ⟨⟨a, mid⟩, ha, h⟩ := exists_of_bind_eq_ok h
    refine ⟨a, mid, ha, ?_⟩
    dsimp only at h
    split at h
    · cases h
    next b u hspace =>
      rw [hspace]
      split at h
      next hb =>
        obtain ⟨⟨others, end'⟩, hothers, h⟩ := exists_of_bind_eq_ok h
        cases h
        exact .inl ⟨u, others, congrArg (· :: u) (eq_of_beq hb), hothers, rfl⟩
      split at h
      next hb =>
        cases h
        exact .inr ⟨by rw [eq_of_beq hb], rfl⟩
      · cases h
  · rintro ⟨a, mid, ha, ⟨u, others, hspace, hothers, rfl⟩ | ⟨hspace, rfl⟩⟩
    · rw [readSequence, ha]
      simp only [bind, Except.bind, hspace]
      rw [if_pos hself, hothers]
      rfl
    · rw [readSequence, ha]
      simp only [bind, Except.bind, hspace, hcomma]
      rw [if_neg Bool.false_ne_true, if_pos (beq_self_eq_true close)]
      rfl

/-- A sequence leaves the end of its text if its items do, whatever the bound of the loop is. -/
theorem leaves_readSequence (hclose : close ≠ 0x2c) (hitem : Leaves item) (n : Nat) :
    Leaves (readSequence item close context n) := by
  induction n with
  | zero => exact fun t a rest h => by cases h
  | succ n ih =>
    intro t as rest h
    obtain ⟨a, mid, ha, hcase⟩ := (readSequence_succ_eq_ok_iff hclose).mp h
    have hmid : skipSpace mid <:+ t := (skipSpace_suffix mid).trans (hitem t a mid ha)
    rcases hcase with ⟨u, others, hspace, hothers, -⟩ | ⟨hspace, -⟩
    · rw [hspace] at hmid
      exact ((ih u others rest hothers).trans (List.suffix_cons _ _)).trans hmid
    · rw [hspace] at hmid
      exact (List.suffix_cons _ _).trans hmid

/-- What is left behind white space and one more byte is shorter. -/
theorem length_lt_of_skipSpace {b : UInt8} (h : skipSpace t = b :: rest) :
    rest.length < t.length := by
  have hle := (skipSpace_suffix t).length_le
  rw [h, List.length_cons] at hle
  omega

/-- A comma is taken between two items, so a bound that is as large as the text is never reached. -/
theorem readSequence_bound (hitem : Leaves item) (hnil : item [] = .error .ended)
    (hn : t.length ≤ n) (hm : t.length ≤ m) :
    readSequence item close context n t = readSequence item close context m t := by
  have hempty : ∀ n, readSequence item close context n [] = .error .ended := by
    intro n
    cases n with
    | zero => rfl
    | succ n =>
      rw [readSequence, hnil]
      rfl
  induction n generalizing t m with
  | zero =>
    obtain rfl := List.length_eq_zero_iff.mp (Nat.le_zero.mp hn)
    rw [hempty, hempty]
  | succ n ih =>
    cases m with
    | zero =>
      obtain rfl := List.length_eq_zero_iff.mp (Nat.le_zero.mp hm)
      rw [hempty, hempty]
    | succ m =>
      rw [readSequence, readSequence]
      cases hread : item t with
      | error e => rfl
      | ok r =>
        have hle := (hitem t r.1 r.2 hread).length_le
        simp only [bind, Except.bind]
        cases hspace : skipSpace r.2 with
        | nil => rfl
        | cons b rest =>
          have hlt := length_lt_of_skipSpace hspace
          have hothers : readSequence item close context n rest =
              readSequence item close context m rest := ih (by omega) (by omega)
          dsimp only
          rw [hothers]

end Sequences

/-- The name of a field leaves what stands behind the colon. -/
theorem leaves_readKey : Leaves readKey := by
  intro t a rest h
  have ht : skipSpace t <:+ t := skipSpace_suffix t
  unfold readKey at h
  split at h
  · cases h
  · next b t₁ hspace =>
    have ht₁ : t₁ <:+ t := (List.suffix_cons b t₁).trans (hspace ▸ ht)
    split at h
    · obtain ⟨⟨key, t₂⟩, hkey, h⟩ := exists_of_bind_eq_ok h
      have ht₂ : skipSpace t₂ <:+ t :=
        ((skipSpace_suffix t₂).trans (leaves_readString _ _ _ hkey)).trans ht₁
      dsimp only at h
      split at h
      · cases h
      · next c t₃ hspace =>
        split at h
        · cases h
          exact (List.suffix_cons c _).trans (hspace ▸ ht₂)
        · cases h
    · cases h

/-- A field leaves what its value leaves. -/
theorem leaves_readField {value : ValueReader} (hvalue : Leaves value) :
    Leaves (readField value) := by
  intro t a rest h
  obtain ⟨⟨key, mid⟩, hkey, h⟩ := exists_of_bind_eq_ok h
  obtain ⟨⟨v, rest'⟩, hv, h⟩ := exists_of_bind_eq_ok h
  cases h
  exact (hvalue mid v _ hv).trans (leaves_readKey t key mid hkey)

/-- The word for a value takes no more than its letters. -/
theorem suffix_of_readWord {word es t u rest : Text} {v v' : Json} (hu : u <:+ t)
    (h : (readWord word es u).map (fun t => (v, t)) = .ok (v', rest)) : rest <:+ t := by
  obtain ⟨rest', hword, h⟩ := exists_of_map_eq_ok h
  cases h
  exact (readWord_suffix hword).trans hu

/-- A value leaves the end of its text, however deeply it is nested. -/
theorem leaves_readValue (depth : Nat) : Leaves (readValue depth) := by
  induction depth using Nat.strongRecOn with
  | ind depth ih =>
    intro t a rest h
    unfold readValue at h
    split at h
    · cases h
    next b body hspace =>
      have hbody : body <:+ t := (List.suffix_cons b body).trans (hspace ▸ skipSpace_suffix t)
      have hinner : skipSpace body <:+ t := (skipSpace_suffix body).trans hbody
      split at h
      · split at h
        · cases h
        · split at h
          · next hclose =>
            cases h
            exact (List.suffix_cons _ _).trans (hclose ▸ hinner)
          · have hfield := leaves_readField (ih _ (Nat.lt_succ_self _))
            exact suffix_of_map (leaves_readSequence (by decide) hfield _ body) hbody h
      split at h
      · split at h
        · cases h
        · split at h
          · next hclose =>
            cases h
            exact (List.suffix_cons _ _).trans (hclose ▸ hinner)
          · have hitem := ih _ (Nat.lt_succ_self _)
            exact suffix_of_map (leaves_readSequence (by decide) hitem _ body) hbody h
      split at h
      · exact suffix_of_map (leaves_readString body) hbody h
      split at h
      · exact suffix_of_map (leaves_readNumeral _) (hspace ▸ skipSpace_suffix t) h
      iterate 3
        split at h
        · exact suffix_of_readWord hbody h
      cases h

/-- There is no value in an empty text. -/
theorem readValue_nil (depth : Nat) : readValue depth [] = .error .ended := by
  rw [readValue.eq_def]
  rfl

end Json

end DatapackDebug
