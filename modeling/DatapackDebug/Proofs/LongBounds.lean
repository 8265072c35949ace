import DatapackDebug.Proofs.IntegerArguments
import DatapackDebug.Proofs.Names

namespace DatapackDebug

/-!
# Bounds of long integers

The bounds of a long integer stand in the properties of its kind as numerals.  A bound is read as
the nearest double before it becomes a word again, so a bound that is not a double itself is
replaced by another one.

* `Numeral.ofText?_of_decimal` — a numeral of an integer is read as its value;
* `Binary.truncate_ofRatio?` — the integer part of the double nearest to an integer of a word;
* `Binary.nearest_eq_iff` — that is the integer itself exactly if it is a double;
* `long_bounds_enforced_iff` — bounds are enforced as they are written exactly if both are doubles.
-/

/-! ### Numerals of integers as doubles -/

namespace Numeral

variable {ds : Text}

/-- Digits behind others are read to the end. -/
theorem scanDigits_of_isDigit (hdigits : ∀ b ∈ ds, Text.isDigit b = true) (acc : Digits)
    (hpoint : acc.point = false) :
    scanDigits false acc ds =
      ({ acc with
          value := ds.foldl (fun v d => v * 10 + (d.toNat - 0x30)) acc.value
          seen := acc.seen || !ds.isEmpty }, []) := by
  induction ds generalizing acc with
  | nil => simp [scanDigits]
  | cons b ds ih =>
    obtain ⟨hb, hds⟩ := List.forall_mem_cons.mp hdigits
    have hother : ∀ c, Text.isDigit c = false → (b == c) = false := by
      intro c hc
      refine beq_eq_false_iff_ne.mpr ?_
      rintro rfl
      exact absurd hb (by simp [hc])
    have hunderscore := hother (Char.toUInt8 '_') (by decide)
    have hdot := hother (Char.toUInt8 '.') (by decide)
    simp only [scanDigits, hunderscore, hdot, digit?, hb, hpoint, if_true, Bool.false_eq_true,
      if_false]
    rw [ih hds _ rfl]
    simp

/-- A numeral of digits is none of a hexadecimal number. -/
theorem hexBody?_of_isDigit (hdigits : ∀ b ∈ ds, Text.isDigit b = true) : hexBody? ds = none := by
  unfold hexBody?
  split
  · rename_i x b t
    have hx : Text.isDigit x = true := hdigits x (by simp)
    refine if_neg fun hmark => ?_
    have hlower : Text.toLower x = x := by
      refine if_neg fun hupper => ?_
      simp only [Text.isUpper, Text.isDigit, Bool.and_eq_true, decide_eq_true_eq,
        UInt8.le_iff_toNat_le] at hupper hx
      have h41 : (0x41 : UInt8).toNat = 0x41 := rfl
      have h39 : (0x39 : UInt8).toNat = 0x39 := rfl
      omega
    rw [hlower, beq_iff_eq] at hmark
    rw [hmark] at hx
    exact absurd hx (by decide)
  · rfl

/-- A sign and digits are read as a numeral without a point or an exponent. -/
theorem ofText?_of_digits {t : Text} {negative : Bool} (hsign : sign t = (negative, ds))
    (hne : ds ≠ []) (hdigits : ∀ b ∈ ds, Text.isDigit b = true)
    (hunderscore : t.contains (Char.toUInt8 '_') = false) :
    ofText? t = some ⟨negative, Text.placeValue ds, false, 0⟩ := by
  have hscan := scanDigits_of_isDigit hdigits {} rfl
  have hseen : ds.isEmpty = false := by simpa using hne
  rw [Text.foldl_digits, Nat.zero_mul, Nat.zero_add, hseen] at hscan
  simp only [ofText?, hsign, hexBody?_of_isDigit hdigits, Option.isSome_none,
    Option.getD_none, hscan, hunderscore]
  rfl

theorem underscore_not_mem (hdigits : ∀ b ∈ ds, Text.isDigit b = true) :
    ds.contains (Char.toUInt8 '_') = false := by
  refine Bool.eq_false_iff.mpr fun hcontains => ?_
  exact absurd (hdigits _ (List.contains_iff_mem.mp hcontains)) (by decide)

/-- The numeral of an integer is read as its value, with the sign that stands in front. -/
theorem ofText?_of_decimal {t : Text} {v : Int} (h : Text.Decimal t v) :
    ∃ negative, ofText? t = some ⟨negative, v.natAbs, false, 0⟩ ∧
      v = if negative then -(v.natAbs : Int) else v.natAbs := by
  cases h with
  | unsigned hne hdigits =>
    refine ⟨false, ofText?_of_digits ?_ hne hdigits (underscore_not_mem hdigits), rfl⟩
    unfold sign
    split
    · exact absurd rfl (Text.head?_ne_of_isDigit hdigits (by decide))
    · exact absurd rfl (Text.head?_ne_of_isDigit hdigits (by decide))
    · rfl
  | @negative ds hne hdigits =>
    have hread : ofText? (0x2d :: ds) = some ⟨true, Text.placeValue ds, false, 0⟩ := by
      refine ofText?_of_digits rfl hne hdigits ?_
      rw [List.contains_cons, underscore_not_mem hdigits]
      decide
    rw [Int.natAbs_neg, Int.natAbs_natCast]
    exact ⟨true, hread, rfl⟩

end Numeral

/-! ### The double nearest to an integer -/

namespace Binary

variable {n : Nat}

/-- A quotient is rounded to its integer part or the integer above. -/
theorem roundHalfEven_le (num den : Nat) : roundHalfEven num den ≤ num / den + 1 := by
  simp only [roundHalfEven]
  split
  · omega
  · split <;> omega

/-- A quotient without remainder is not rounded. -/
theorem roundHalfEven_mul (q : Nat) {den : Nat} (hden : 0 < den) :
    roundHalfEven (q * den) den = q := by
  have hremainder : q * den % den = 0 := Nat.mul_mod_left q den
  simp [roundHalfEven, Nat.mul_div_cancel q hden, hremainder, hden]

theorem roundHalfEven_one (n : Nat) : roundHalfEven n 1 = n := by
  have h := roundHalfEven_mul n Nat.zero_lt_one
  rwa [Nat.mul_one] at h

theorem powPos_natCast (k : Nat) : powPos k = Nat.pow 2 k := rfl

theorem powPos_neg (k : Nat) : powPos (-(k : Int)) = 1 := by
  have hzero : (-(k : Int)).toNat = 0 := by omega
  rw [powPos, hzero]

/-- The number of bits that a double has no room for, behind those of an integer. -/
def droppedBits (n : Nat) : Nat := n.log2 - 52

/-- The double nearest to a natural number, which is one itself or a multiple of a power of two. -/
def nearest (n : Nat) : Nat :=
  roundHalfEven n (Nat.pow 2 (droppedBits n)) * Nat.pow 2 (droppedBits n)

theorem nearest_of_short (h : n.log2 ≤ 52) : nearest n = n := by
  have hdropped : droppedBits n = 0 := Nat.sub_eq_zero_of_le h
  have hpow : Nat.pow 2 0 = 1 := rfl
  rw [nearest, hdropped, hpow, roundHalfEven_one, Nat.mul_one]

/-- A natural number below `2 ^ 53` times a power of two. -/
def IsDouble (n : Nat) : Prop := ∃ m k : Nat, n = m * Nat.pow 2 k ∧ m < Nat.pow 2 53

theorem two_pow_add (j k : Nat) : Nat.pow 2 (j + k) = Nat.pow 2 j * Nat.pow 2 k := Nat.pow_add 2 j k

theorem two_pow_pos (k : Nat) : 0 < Nat.pow 2 k := Nat.two_pow_pos k

theorem two_pow_le {j k : Nat} (h : j ≤ k) :
    Nat.pow 2 j ≤ Nat.pow 2 k := Nat.pow_le_pow_right (by decide) h

/-- The rounded integer has 53 bits, or is the first number of 54. -/
theorem roundHalfEven_droppedBits_le (n : Nat) :
    roundHalfEven n (Nat.pow 2 (droppedBits n)) ≤ Nat.pow 2 53 := by
  have hhigh : n < Nat.pow 2 (n.log2 + 1) := Nat.lt_log2_self
  have hbits : n.log2 + 1 ≤ 53 + droppedBits n := by
    rw [droppedBits]
    omega
  have hquotient : n / Nat.pow 2 (droppedBits n) < Nat.pow 2 53 := by
    rw [Nat.div_lt_iff_lt_mul (two_pow_pos _), ← two_pow_add]
    exact Nat.lt_of_lt_of_le hhigh (two_pow_le hbits)
  exact Nat.le_trans (roundHalfEven_le n _) hquotient

/-- The last bit of the nearest double is the 53rd from the first. -/
theorem lastExponent_double (hn : n ≠ 0) : lastExponent .double n 1 = (n.log2 : Int) - 52 := by
  have hlow : Nat.pow 2 n.log2 ≤ n := Nat.log2_self_le hn
  have hone : Nat.log2 1 = 0 := by decide
  have hmin : FloatFormat.double.minExponent = -1074 := by decide
  -- With one bit more than a double has, the integer is too large for a mantissa.
  have htoo : Nat.pow 2 53 ≤
      n * powPos (-((n.log2 : Int) - 53)) / (1 * powPos ((n.log2 : Int) - 53)) := by
    by_cases hlarge : 53 ≤ n.log2
    · obtain ⟨k, hk⟩ := Nat.exists_eq_add_of_le hlarge
      have hexp : (n.log2 : Int) - 53 = k := by omega
      rw [hk, two_pow_add] at hlow
      rw [hexp, powPos_neg, powPos_natCast, Nat.mul_one, Nat.one_mul,
        Nat.le_div_iff_mul_le (two_pow_pos k)]
      exact hlow
    · obtain ⟨k, hk⟩ := Nat.exists_eq_add_of_le (Nat.le_of_not_le hlarge)
      have hexp : (n.log2 : Int) - 53 = -(k : Int) := by omega
      rw [hexp, Int.neg_neg, powPos_neg, powPos_natCast, Nat.mul_one, Nat.div_one, hk, two_pow_add]
      exact Nat.mul_le_mul_right _ hlow
  have hprecision : FloatFormat.double.precision = 53 := rfl
  simp only [lastExponent, hone, hprecision, hmin, Int.natCast_zero, Int.sub_zero]
  show max (if n * powPos (-((n.log2 : Int) - 53)) / (1 * powPos ((n.log2 : Int) - 53)) <
    Nat.pow 2 53 then _ else _) _ = _
  rw [if_neg (Nat.not_lt.mpr htoo)]
  omega

/-- A double that is too long by a bit has one bit less and the same value. -/
theorem ofRatio?_double (hn : n ≠ 0) (negative : Bool) {m : Nat} {e : Int}
    (he : (n.log2 : Int) - 52 = e) (hm : roundHalfEven (n * powPos (-e)) (1 * powPos e) = m)
    (hmax : e < 971) :
    ofRatio? .double negative n 1 =
      some (if m < Nat.pow 2 53 then ⟨negative, m, e⟩ else ⟨negative, m / 2, e + 1⟩) := by
  have hlast : lastExponent .double n 1 = e := (lastExponent_double hn).trans he
  have hzero : (n == 0) = false := beq_eq_false_iff_ne.mpr hn
  have hlimit : FloatFormat.double.maxExponent = 971 := by decide
  have hprecision : FloatFormat.double.precision = 53 := rfl
  simp only [ofRatio?, hzero, hlast, hm, hlimit, hprecision, Bool.false_eq_true, if_false]
  by_cases hfits : m < Nat.pow 2 53
  · rw [if_pos hfits, if_pos hfits]
    exact if_neg (by omega)
  · rw [if_neg hfits, if_neg hfits]
    exact if_neg (by omega)

theorem truncate_of_nonneg (negative : Bool) (m k : Nat) :
    (Binary.mk negative m k).truncate =
      if negative then -((m * Nat.pow 2 k : Nat) : Int) else (m * Nat.pow 2 k : Nat) := by
  simp only [truncate, powPos_neg, powPos_natCast, Nat.div_one]

/-- The integer part of the double nearest to an integer of at most 64 bits. -/
theorem truncate_ofRatio? (hn : n < Nat.pow 2 64) (negative : Bool) :
    ∃ x, ofRatio? .double negative n 1 = some x ∧
      x.truncate = if negative then -(nearest n : Int) else nearest n := by
  by_cases hzero : n = 0
  · subst hzero
    have hnearest : nearest 0 = 0 := by decide
    exact ⟨_, rfl, by simp [truncate, hnearest]⟩
  have hhigh : n < Nat.pow 2 (n.log2 + 1) := Nat.lt_log2_self
  by_cases hshort : n.log2 ≤ 52
  · -- The integer is short enough, and is filled up with zeros behind.
    obtain ⟨k, hk⟩ := Nat.exists_eq_add_of_le hshort
    have he : (n.log2 : Int) - 52 = -(k : Int) := by omega
    have hm : roundHalfEven (n * powPos (- -(k : Int))) (1 * powPos (-(k : Int))) = n *
        Nat.pow 2 k := by
      rw [Int.neg_neg, powPos_neg, powPos_natCast, Nat.one_mul, roundHalfEven_one]
    have hfits : n * Nat.pow 2 k < Nat.pow 2 53 := by
      have hbits : Nat.pow 2 53 = Nat.pow 2 (n.log2 + 1) * Nat.pow 2 k := by
        rw [← two_pow_add, Nat.add_right_comm, ← hk]
      rw [hbits]
      exact Nat.mul_lt_mul_of_pos_right hhigh (two_pow_pos k)
    have hvalue : n * Nat.pow 2 k * 1 / Nat.pow 2 k = n := by
      rw [Nat.mul_one, Nat.mul_div_cancel _ (two_pow_pos k)]
    refine ⟨_, ofRatio?_double hzero negative he hm (by omega), ?_⟩
    simp only [if_pos hfits, truncate, powPos_neg, Int.neg_neg, powPos_natCast, hvalue,
      nearest_of_short hshort]
  · -- The last bits are rounded, which may give one bit more in front.
    obtain ⟨k, hk⟩ := Nat.exists_eq_add_of_le (Nat.le_of_not_le hshort)
    have hdropped : droppedBits n = k := by rw [droppedBits]; omega
    have he : (n.log2 : Int) - 52 = k := by omega
    have hlong : n.log2 < 64 := (Nat.log2_lt hzero).mpr hn
    have hm : roundHalfEven (n * powPos (-(k : Int))) (1 * powPos k) =
        roundHalfEven n (Nat.pow 2 k) := by
      rw [powPos_neg, powPos_natCast, Nat.mul_one, Nat.one_mul]
    have hle := roundHalfEven_droppedBits_le n
    refine ⟨_, ofRatio?_double hzero negative he hm (by omega), ?_⟩
    rw [hdropped] at hle
    rw [nearest, hdropped]
    by_cases hfits : roundHalfEven n (Nat.pow 2 k) < Nat.pow 2 53
    · rw [if_pos hfits, truncate_of_nonneg]
    · have hcarry : roundHalfEven n (Nat.pow 2 k) = Nat.pow 2 53 := by omega
      have hhalf : Nat.pow 2 53 / 2 * Nat.pow 2 (k + 1) = Nat.pow 2 53 * Nat.pow 2 k := by
        rw [Nat.add_comm k 1, two_pow_add 1 k, ← Nat.mul_assoc]
      rw [if_neg hfits, hcarry]
      show (Binary.mk negative (Nat.pow 2 53 / 2) ((k + 1 : Nat) : Int)).truncate = _
      rw [truncate_of_nonneg, hhalf]

/-- The nearest double of an integer is the integer itself exactly if it is a double. -/
theorem nearest_eq_iff (n : Nat) : nearest n = n ↔ IsDouble n := by
  constructor
  · intro h
    by_cases hfits : roundHalfEven n (Nat.pow 2 (droppedBits n)) < Nat.pow 2 53
    · exact ⟨_, _, h.symm, hfits⟩
    · have hcarry : roundHalfEven n (Nat.pow 2 (droppedBits n)) = Nat.pow 2 53 :=
        Nat.le_antisymm (roundHalfEven_droppedBits_le n) (Nat.not_lt.mp hfits)
      refine ⟨Nat.pow 2 52, droppedBits n + 1, ?_, by decide⟩
      rw [nearest, hcarry] at h
      rw [Nat.add_comm, two_pow_add 1, ← Nat.mul_assoc]
      exact h.symm
  · rintro ⟨m, j, rfl, hm⟩
    by_cases hzero : m * Nat.pow 2 j = 0
    · rw [hzero]
      decide
    have hlt : m * Nat.pow 2 j < Nat.pow 2 (53 + j) := by
      rw [two_pow_add]
      exact Nat.mul_lt_mul_of_pos_right hm (two_pow_pos j)
    have hlog : (m * Nat.pow 2 j).log2 < 53 + j := (Nat.log2_lt hzero).mpr hlt
    -- The dropped bits are zeros of the power of two.
    obtain ⟨i, hi⟩ : ∃ i, j = i + droppedBits (m * Nat.pow 2 j) := by
      refine ⟨j - droppedBits (m * Nat.pow 2 j), ?_⟩
      rw [droppedBits]
      omega
    have hsplit : m * Nat.pow 2 j = m * Nat.pow 2 i *
        Nat.pow 2 (droppedBits (m * Nat.pow 2 j)) := by
      rw [Nat.mul_assoc, ← two_pow_add, ← hi]
    have hquotient := roundHalfEven_mul (m * Nat.pow 2 i)
      (two_pow_pos (droppedBits (m * Nat.pow 2 j)))
    rw [← hsplit] at hquotient
    rw [nearest, hquotient, ← hsplit]

end Binary

/-! ### Bounds in properties -/

namespace Argument

/-- The word that a bound becomes: the nearest double, or the least word if that is too large for a
    word. -/
def storedBound (n : Int) : Int := Binary.toWord (n.sign * Binary.nearest n.natAbs)

theorem contains_storedBound (n : Int) : word64.Contains (storedBound n) := by
  rw [← isWord_word64.fitsBits_iff, storedBound, Binary.toWord]
  split
  · assumption
  · decide

theorem natAbs_lt_of_contains {n : Int} (hn : word64.Contains n) : n.natAbs < Nat.pow 2 64 := by
  obtain ⟨hleast, hgreatest⟩ : -9223372036854775808 ≤ n ∧ n ≤ 9223372036854775807 := hn
  have hpow : Nat.pow 2 64 = 18446744073709551616 := by decide
  omega

/-- A bound of a word stays as it is exactly if it is a double. -/
theorem storedBound_eq_iff {n : Int} (hn : word64.Contains n) :
    storedBound n = n ↔ Binary.IsDouble n.natAbs := by
  rw [← Binary.nearest_eq_iff]
  constructor
  · intro h
    rw [storedBound, Binary.toWord] at h
    by_cases hfits : Text.fitsBits 64 (n.sign * Binary.nearest n.natAbs) = true
    · rw [if_pos hfits] at h
      by_cases hzero : n = 0
      · rw [hzero]
        decide
      · have habs := congrArg Int.natAbs h
        rwa [Int.natAbs_mul, Int.natAbs_sign_of_ne_zero hzero, Nat.one_mul,
          Int.natAbs_natCast] at habs
    · rw [if_neg hfits] at h
      rw [← h]
      decide
  · intro h
    rw [storedBound, h, Int.sign_mul_natAbs, Binary.toWord,
      if_pos ((isWord_word64.fitsBits_iff n).mpr hn)]

variable {ps : Properties} {key numeral : Text} {n : Int}

/-- A bound that is written as an integer of a word is read as the word that it becomes. -/
theorem integer?_of_decimal (hfind : ps.find? key = some (.number numeral))
    (hnumeral : Text.Decimal numeral n) (hn : word64.Contains n) :
    ps.integer? key = some (storedBound n) := by
  obtain ⟨negative, hread, hsign⟩ := Numeral.ofText?_of_decimal hnumeral
  obtain ⟨x, hx, htruncate⟩ := Binary.truncate_ofRatio? (natAbs_lt_of_contains hn) negative
  have hbinary : Binary.ofText? .double numeral = some x := by
    rw [Binary.ofText?, hread, ← hx]
    show Binary.ofRatio? .double negative (n.natAbs * 1) 1 = _
    rw [Nat.mul_one]
  have hnumber : ps.number? key = some x := by
    rw [Properties.number?, hfind]
    exact hbinary
  have hvalue : x.truncate = n.sign * Binary.nearest n.natAbs := by
    have hnearest : Binary.nearest 0 = 0 := by decide
    by_cases hzero : n = 0
    · simp [htruncate, hzero, hnearest]
    · cases negative with
      | true =>
        have hneg : n < 0 := by simp only [if_true] at hsign; omega
        rw [htruncate, Int.sign_eq_neg_one_of_neg hneg, Int.neg_one_mul]
        rfl
      | false =>
        have hpos : 0 < n := by simp only [Bool.false_eq_true, if_false] at hsign; omega
        rw [htruncate, Int.sign_eq_one_of_pos hpos, Int.one_mul]
        rfl
  rw [Properties.integer?, hnumber, storedBound, ← hvalue]
  rfl

/-- The kind accepts the integers of an interval, of those of a word, and tells that others are out
    of it. -/
def Kind.Enforces (kind : Kind) (least greatest : Int) : Prop :=
  ∀ input v, Text.Decimal (numberRun input) v → word64.Contains v →
    (kind.parse input = .ok (.long v, (numberRun input).length) ↔ least ≤ v ∧ v ≤ greatest) ∧
    (¬(least ≤ v ∧ v ≤ greatest) → kind.FailsAs input .outOfRange)

theorem enforces_long (bounds : IntBounds) :
    (Kind.long bounds).Enforces bounds.least bounds.greatest := by
  intro input v hv hcontains
  have hreads : ReadsIntegers (.long bounds) .long word64 bounds := readsIntegers rfl isWord_word64
  refine ⟨?_, fun hout => (hreads.outOfRange input).mpr ⟨v, hv, hcontains, ?_⟩⟩
  · rw [hreads.success]
    constructor
    · rintro ⟨w, hw, -, hbounds, -⟩
      rwa [hv.unique hw]
    · intro hbounds
      exact ⟨v, hv, hcontains, hbounds, rfl⟩
  · omega

/-- The numeral of an integer denotes it, and all of it is a run. -/
theorem decimal_numberRun_ofInt (n : Int) : Text.Decimal (numberRun (Text.ofInt n)) n := by
  have hdigits : ∀ m : Nat, ∀ b ∈ Text.ofNat m, Text.isDigit b = true := fun m b =>
    Text.isDigit_of_mem_ofNat
  have hvalue : ∀ m : Nat, Text.placeValue (Text.ofNat m) = m := fun m => by
    rw [← Text.digitsValue_eq_placeValue, Text.digitsValue_ofNat]
  have hnumber : ∀ m : Nat, ∀ b ∈ Text.ofNat m, isNumberByte b = true := fun m b hb => by
    simp [isNumberByte, hdigits m b hb]
  cases n with
  | ofNat m =>
    have hrun : numberRun (Text.ofNat m) = Text.ofNat m :=
      List.takeWhile_eq_self_iff.mpr (hnumber m)
    have hdecimal := Text.Decimal.unsigned (Text.ofNat_ne_nil m) (hdigits m)
    rw [hvalue] at hdecimal
    rw [Text.ofInt, hrun]
    exact hdecimal
  | negSucc m =>
    have hrun : numberRun (0x2d :: Text.ofNat (m + 1)) = 0x2d :: Text.ofNat (m + 1) :=
      List.takeWhile_eq_self_iff.mpr (List.forall_mem_cons.mpr ⟨by decide, hnumber (m + 1)⟩)
    have hdecimal := Text.Decimal.negative (Text.ofNat_ne_nil (m + 1)) (hdigits (m + 1))
    rw [hvalue] at hdecimal
    rw [Text.ofInt, hrun]
    exact hdecimal

/-- A kind enforces one interval of words at most that is not empty. -/
theorem Kind.Enforces.unique {kind : Kind} {least greatest least' greatest' : Int}
    (h : kind.Enforces least greatest) (h' : kind.Enforces least' greatest')
    (hwords : ∀ v ∈ [least, greatest, least', greatest'], word64.Contains v)
    (hle : least ≤ greatest) : least' = least ∧ greatest' = greatest := by
  -- Both intervals have the same words, since each word has a numeral.
  have hsame : ∀ v ∈ [least, greatest, least', greatest'],
      least ≤ v ∧ v ≤ greatest ↔ least' ≤ v ∧ v ≤ greatest' := fun v hv =>
    (h _ v (decimal_numberRun_ofInt v) (hwords v hv)).1.symm.trans
      (h' _ v (decimal_numberRun_ofInt v) (hwords v hv)).1
  simp only [List.forall_mem_cons] at hsame
  omega

/-- The kind of long integers has the words that its bounds become. -/
theorem ofId_long {low high : Text} {a b : Int} (hlow : ps.find? "min" = some (.number low))
    (hhigh : ps.find? "max" = some (.number high)) (ha : Text.Decimal low a)
    (hb : Text.Decimal high b) (haword : word64.Contains a) (hbword : word64.Contains b) :
    Kind.ofId "brigadier:long" ps = .long ⟨storedBound a, storedBound b⟩ := by
  have hkind : Kind.ofId "brigadier:long" ps = .long (ps.intBounds 64) := rfl
  rw [hkind, Properties.intBounds, integer?_of_decimal hlow ha haword,
    integer?_of_decimal hhigh hb hbword]
  rfl

end Argument

open Argument in
/-- Bounds of long integers that are written as integers of a word are enforced as they are written
    exactly if both are doubles.  In any case it is the words that they become that are enforced. -/
theorem long_bounds_enforced_iff {ps : Properties} {low high : Text} {a b : Int}
    (hlow : ps.find? "min" = some (.number low)) (hhigh : ps.find? "max" = some (.number high))
    (ha : Text.Decimal low a) (hb : Text.Decimal high b)
    (haword : -9223372036854775808 ≤ a ∧ a ≤ 9223372036854775807)
    (hbword : -9223372036854775808 ≤ b ∧ b ≤ 9223372036854775807) (hab : a ≤ b) :
    ((Kind.ofId "brigadier:long" ps).Enforces a b ↔
      Binary.IsDouble a.natAbs ∧ Binary.IsDouble b.natAbs) ∧
    (Kind.ofId "brigadier:long" ps).Enforces (storedBound a) (storedBound b) := by
  have hstored := enforces_long ⟨storedBound a, storedBound b⟩
  rw [ofId_long hlow hhigh ha hb haword hbword, ← storedBound_eq_iff haword,
    ← storedBound_eq_iff hbword]
  refine ⟨⟨fun h => h.unique hstored ?_ hab, ?_⟩, hstored⟩
  · simp only [List.forall_mem_cons, List.not_mem_nil, false_implies, implies_true, and_true]
    exact ⟨haword, hbword, contains_storedBound a, contains_storedBound b⟩
  · rintro ⟨hla, hhb⟩
    simp only [hla, hhb] at hstored ⊢
    exact hstored

/-- Bounds of which the second is the first integer that is not a double. -/
def oddBounds : Argument.Properties := [("min", .number "0"), ("max", .number "9007199254740993")]

open Argument in
/-- The greatest integer within the bounds is refused. -/
theorem oddBounds_not_enforced :
    oddBounds.find? "min" = some (.number "0") ∧
    oddBounds.find? "max" = some (.number "9007199254740993") ∧
    Text.Decimal "0" 0 ∧ Text.Decimal "9007199254740993" 9007199254740993 ∧
    ¬(Kind.ofId "brigadier:long" oddBounds).Enforces 0 9007199254740993 ∧
    (Kind.ofId "brigadier:long" oddBounds).FailsAs "9007199254740993" .outOfRange := by
  have hmin : oddBounds.find? "min" = some (.number "0") := rfl
  have hmax : oddBounds.find? "max" = some (.number "9007199254740993") := rfl
  have hzero : Text.Decimal "0" 0 := (Text.decimal_iff_toInt? (by decide)).mpr (by decide)
  have hodd : Text.Decimal "9007199254740993" 9007199254740993 :=
    (Text.decimal_iff_toInt? (by decide)).mpr (by decide)
  have hrun : numberRun "9007199254740993" = "9007199254740993" := by decide
  obtain ⟨hiff, hstored⟩ :=
    long_bounds_enforced_iff hmin hmax hzero hodd (by decide) (by decide) (by decide)
  refine ⟨hmin, hmax, hzero, hodd, fun henforces => ?_, ?_⟩
  · have hdouble : Binary.IsDouble 9007199254740993 := (hiff.mp henforces).2
    exact absurd ((Binary.nearest_eq_iff _).mpr hdouble) (by decide)
  · exact (hstored "9007199254740993" 9007199254740993 (hrun ▸ hodd) (by decide)).2 (by decide)

end DatapackDebug
