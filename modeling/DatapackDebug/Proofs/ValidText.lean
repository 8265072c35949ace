import DatapackDebug.Text.Utf8

namespace DatapackDebug.Utf8

/-!
# Texts that need no repair

A character that is read from a text is written as the bytes that it was read from, so repairing a
text of characters changes nothing.

* `toNat_of_isSecond` — the bounds of a second byte, which exclude overlong forms and surrogates;
* `eq_encode_append` — a text starts with the bytes of its first character;
* `repair_of_isValid` — a text of characters is its own repair.
-/

variable {b a : UInt8}

/-! ### Bounds of bytes -/

theorem toNat_of_isContinuation (h : isContinuation b = true) :
    0x80 ≤ b.toNat ∧ b.toNat ≤ 0xbf := by
  simpa [isContinuation, UInt8.le_iff_toNat_le] using h

/-- A second byte continues a character, within the bounds that some leading bytes set. -/
theorem toNat_of_isSecond (h : isSecond a b = true) :
    0x80 ≤ b.toNat ∧ b.toNat ≤ 0xbf ∧ (a.toNat = 0xe0 → 0xa0 ≤ b.toNat) ∧
      (a.toNat = 0xed → b.toNat ≤ 0x9f) ∧ (a.toNat = 0xf0 → 0x90 ≤ b.toNat) ∧
      (a.toNat = 0xf4 → b.toNat ≤ 0x8f) := by
  have hrange : (secondRange a).1.toNat ≤ b.toNat ∧ b.toNat ≤ (secondRange a).2.toNat := by
    simpa [isSecond, UInt8.le_iff_toNat_le] using h
  simp only [secondRange, beq_iff_eq, ← UInt8.toNat_inj] at hrange
  repeat' split at hrange
  all_goals
    simp only [UInt8.reduceToNat] at *
    omega

/-! ### Characters -/

theorem ofNat_eq_of_toNat {n : Nat} (h : n = b.toNat) : UInt8.ofNat n = b := by
  rw [h, UInt8.ofNat_toNat]

theorem encode_of_isScalar {code : Nat} (h : isScalar code = true) :
    encode code =
      if code < 0x80 then [UInt8.ofNat code]
      else if code < 0x800 then [UInt8.ofNat (0xc0 + code / 0x40), UInt8.ofNat (0x80 + code % 0x40)]
      else if code < 0x10000 then
        [UInt8.ofNat (0xe0 + code / 0x1000), UInt8.ofNat (0x80 + code / 0x40 % 0x40),
          UInt8.ofNat (0x80 + code % 0x40)]
      else
        [UInt8.ofNat (0xf0 + code / 0x40000), UInt8.ofNat (0x80 + code / 0x1000 % 0x40),
          UInt8.ofNat (0x80 + code / 0x40 % 0x40), UInt8.ofNat (0x80 + code % 0x40)] := by
  simp only [encode, h, if_true]

theorem isScalar_of {code : Nat} (h : code < 0xd800 ∨ 0xdfff < code ∧ code ≤ 0x10ffff) :
    isScalar code = true := by
  simpa [isScalar] using h

theorem encode_one (ha : a.toNat < 0x80) : encode a.toNat = [a] := by
  rw [encode_of_isScalar (isScalar_of (by omega)), if_pos ha, UInt8.ofNat_toNat]

theorem encode_two (ha : 0xc2 ≤ a.toNat ∧ a.toNat ≤ 0xdf) (hb : isSecond a b = true) :
    encode (a.toNat % 0x20 * 0x40 + payload b) = [a, b] := by
  obtain ⟨hb, hb', -⟩ := toNat_of_isSecond hb
  simp only [payload]
  rw [encode_of_isScalar (isScalar_of (by omega)), if_neg (by omega), if_pos (by omega),
    ofNat_eq_of_toNat (b := a) (by omega), ofNat_eq_of_toNat (b := b) (by omega)]

/-- The bounds after `e0` exclude what two bytes can hold, and those after `ed` the surrogates. -/
theorem encode_three {c : UInt8} (ha : 0xe0 ≤ a.toNat ∧ a.toNat ≤ 0xef) (hb : isSecond a b = true)
    (hc : isContinuation c = true) :
    encode (a.toNat % 0x10 * 0x1000 + payload b * 0x40 + payload c) = [a, b, c] := by
  obtain ⟨hb, hb', he0, hed, -⟩ := toNat_of_isSecond hb
  obtain ⟨hc, hc'⟩ := toNat_of_isContinuation hc
  simp only [payload]
  rw [encode_of_isScalar (isScalar_of (by omega)), if_neg (by omega), if_neg (by omega),
    if_pos (by omega), ofNat_eq_of_toNat (b := a) (by omega), ofNat_eq_of_toNat (b := b) (by omega),
    ofNat_eq_of_toNat (b := c) (by omega)]

/-- The bounds after `f0` exclude what three bytes can hold, and those after `f4` what is no code
    point. -/
theorem encode_four {c d : UInt8} (ha : 0xf0 ≤ a.toNat ∧ a.toNat ≤ 0xf4) (hb : isSecond a b = true)
    (hc : isContinuation c = true) (hd : isContinuation d = true) :
    encode (a.toNat % 0x08 * 0x40000 + payload b * 0x1000 + payload c * 0x40 + payload d) =
      [a, b, c, d] := by
  obtain ⟨hb, hb', -, -, hf0, hf4⟩ := toNat_of_isSecond hb
  obtain ⟨hc, hc'⟩ := toNat_of_isContinuation hc
  obtain ⟨hd, hd'⟩ := toNat_of_isContinuation hd
  simp only [payload]
  rw [encode_of_isScalar (isScalar_of (by omega)), if_neg (by omega), if_neg (by omega),
    if_neg (by omega), ofNat_eq_of_toNat (b := a) (by omega), ofNat_eq_of_toNat (b := b) (by omega),
    ofNat_eq_of_toNat (b := c) (by omega), ofNat_eq_of_toNat (b := d) (by omega)]

/-- A text starts with the bytes of its first character. -/
theorem eq_encode_append {t rest : Text} {code : Nat} (h : decode? t = some (code, rest)) :
    t = encode code ++ rest := by
  unfold decode? at h
  split at h
  · simp at h
  next a t =>
    -- the leading byte tells how many bytes the character has
    split at h
    next ha =>
      cases h
      rw [encode_one (UInt8.lt_iff_toNat_lt.mp ha)]
      rfl
    next =>
      split at h
      next ha =>
        have ha : 0xc2 ≤ a.toNat ∧ a.toNat ≤ 0xdf := by simpa [UInt8.le_iff_toNat_le] using ha
        split at h
        next b t =>
          obtain ⟨hb, h⟩ := Option.ite_none_right_eq_some.mp h
          cases h
          rw [encode_two ha hb]
          rfl
        · simp at h
      next =>
        split at h
        next ha =>
          have ha : 0xe0 ≤ a.toNat ∧ a.toNat ≤ 0xef := by simpa [UInt8.le_iff_toNat_le] using ha
          split at h
          next b c t =>
            obtain ⟨hbytes, h⟩ := Option.ite_none_right_eq_some.mp h
            cases h
            obtain ⟨hb, hc⟩ := Bool.and_eq_true_iff.mp hbytes
            rw [encode_three ha hb hc]
            rfl
          · simp at h
        next =>
          obtain ⟨ha, h⟩ := Option.ite_none_right_eq_some.mp h
          have ha : 0xf0 ≤ a.toNat ∧ a.toNat ≤ 0xf4 := by simpa [UInt8.le_iff_toNat_le] using ha
          split at h
          next b c d t =>
            obtain ⟨hbytes, h⟩ := Option.ite_none_right_eq_some.mp h
            cases h
            obtain ⟨hbc, hd⟩ := Bool.and_eq_true_iff.mp hbytes
            obtain ⟨hb, hc⟩ := Bool.and_eq_true_iff.mp hbc
            rw [encode_four ha hb hc hd]
            rfl
          · simp at h

theorem length_encode_pos (code : Nat) : 0 < (encode code).length := by
  unfold encode
  simp only
  repeat' split
  all_goals exact Nat.succ_pos _

/-! ### Whole texts -/

/-- Repairing the pieces of a text of characters gives the text. -/
theorem flatMap_repaired_go {n : Nat} {t : Text} (hn : t.length ≤ n)
    (h : ∀ p ∈ pieces.go n t, ∃ code, p = .char code) :
    (pieces.go n t).flatMap Piece.repaired = t := by
  induction n generalizing t with
  | zero =>
    rw [List.eq_nil_of_length_eq_zero (Nat.le_zero.mp hn)]
    rfl
  | succ n ih =>
    cases t with
    | nil => rfl
    | cons b t =>
      rw [pieces.go] at h ⊢
      cases hdecode : decode? (b :: t) with
      | none =>
        rw [hdecode] at h
        obtain ⟨code, hcode⟩ := h _ List.mem_cons_self
        exact absurd hcode nofun
      | some character =>
        obtain ⟨code, rest⟩ := character
        rw [hdecode] at h
        have htext := eq_encode_append hdecode
        have hshort : rest.length ≤ n := by
          have hlength := congrArg List.length htext
          have hencode := length_encode_pos code
          simp only [List.length_append, List.length_cons] at hlength hn
          omega
        show encode code ++ (pieces.go n rest).flatMap Piece.repaired = b :: t
        rw [ih hshort fun p hp => h p (List.mem_cons_of_mem _ hp), htext]

/-- A text of characters is its own repair. -/
theorem repair_of_isValid {t : Text} (h : isValid t = true) : repair t = t := by
  apply flatMap_repaired_go (Nat.le_refl _)
  intro p hp
  have hp := List.all_eq_true.mp h p hp
  cases p with
  | char code => exact ⟨code, rfl⟩
  | stray b => exact absurd hp Bool.false_ne_true

end DatapackDebug.Utf8
