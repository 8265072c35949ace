import DatapackDebug.Argument.Kind
import DatapackDebug.Proofs.ScanSteps

namespace DatapackDebug

/-!
# Integer arguments

An integer argument is read from the longest run of digits, points and minus signs.  The run alone
decides what becomes of it: nothing to read, no integer of the word, an integer out of bounds, or
the integer.

* `Text.placeValue`, `Text.Decimal` — the integer that `-?[0-9]+` denotes, by the places of its
  digits;
* `Text.decimal_iff_toInt?` — reading digit by digit gives that integer;
* `Argument.parse_cases` — every input is of one of four classes, by its run;
* `Argument.ReadsIntegers` — the four outcomes, each with the exact condition on the run;
* `integers_classified` — integers of 32 and of 64 bits are read so, whatever the bounds are.
-/

/-! ### Decimal numerals -/

namespace Text

variable {t : Text}

/-- The value of decimal digits by their places: a digit counts as often as the power of ten of the
    number of digits behind it. -/
def placeValue : Text → Nat
  | [] => 0
  | d :: ds => (d.toNat - 0x30) * Nat.pow 10 ds.length + placeValue ds

/-- The text is `-?[0-9]+`, and denotes the integer. -/
inductive Decimal : Text → Int → Prop
  | unsigned {ds : Text} (hne : ds ≠ []) (hdigits : ∀ b ∈ ds, isDigit b = true) :
      Decimal ds (placeValue ds)
  | negative {ds : Text} (hne : ds ≠ []) (hdigits : ∀ b ∈ ds, isDigit b = true) :
      Decimal (0x2d :: ds) (-(placeValue ds : Int))

/-- Digits that are read behind others of the value `v` shift these by their number. -/
theorem foldl_digits (ds : Text) (v : Nat) :
    ds.foldl (fun v d => v * 10 + (d.toNat - 0x30)) v =
      v * Nat.pow 10 ds.length + placeValue ds := by
  induction ds generalizing v with
  | nil => simp [placeValue]
  | cons d ds ih =>
    have hpow : Nat.pow 10 (d :: ds).length = 10 * Nat.pow 10 ds.length := by
      rw [List.length_cons, Nat.mul_comm]
      rfl
    rw [List.foldl_cons, ih, placeValue, hpow, Nat.add_mul, Nat.mul_assoc, Nat.add_assoc]

theorem digitsValue_eq_placeValue (ds : Text) : digitsValue ds = placeValue ds := by
  rw [digitsValue, foldl_digits, Nat.zero_mul, Nat.zero_add]

theorem toNat?_eq_some_iff {ds : Text} {n : Nat} :
    toNat? ds = some n ↔ ds ≠ [] ∧ (∀ b ∈ ds, isDigit b = true) ∧ placeValue ds = n := by
  rw [toNat?, digitsValue_eq_placeValue]
  by_cases hempty : ds = []
  · simp [hempty]
  · by_cases hall : ds.all isDigit = true
    · have hdigits : ∀ b ∈ ds, isDigit b = true := List.all_eq_true.mp hall
      simpa [hempty, hall] using fun _ => hdigits
    · have hdigits : ¬∀ b ∈ ds, isDigit b = true := fun h => hall (List.all_eq_true.mpr h)
      simp [hempty, hall, hdigits]

theorem toInt?_minus (ds : Text) : toInt? (0x2d :: ds) = (toNat? ds).map fun n : Nat =>
    -(n : Int) := by
  rw [toInt?]
  cases toNat? ds <;> rfl

/-- Without a sign in front a text is read as a natural number. -/
theorem toInt?_unsigned (hminus : t.head? ≠ some 0x2d) (hplus : t.head? ≠ some 0x2b) :
    toInt? t = (toNat? t).map fun n : Nat => (n : Int) := by
  unfold toInt?
  split
  · exact absurd rfl hminus
  · exact absurd rfl hplus
  · cases toNat? t <;> rfl

/-- Digits do not start with anything else. -/
theorem head?_ne_of_isDigit {ds : Text} (hdigits : ∀ b ∈ ds, isDigit b = true) {b : UInt8}
    (hb : isDigit b = false) : ds.head? ≠ some b := by
  intro hhead
  have hdigit := hdigits b (List.mem_of_head? hhead)
  rw [hb] at hdigit
  exact absurd hdigit (by decide)

/-- A text is read as the integer that it denotes. -/
theorem Decimal.toInt?_eq {v : Int} (h : Decimal t v) : toInt? t = some v := by
  cases h with
  | unsigned hne hdigits =>
    have hminus : t.head? ≠ some 0x2d := head?_ne_of_isDigit hdigits (by decide)
    have hplus : t.head? ≠ some 0x2b := head?_ne_of_isDigit hdigits (by decide)
    rw [toInt?_unsigned hminus hplus, toNat?_eq_some_iff.mpr ⟨hne, hdigits, rfl⟩]
    rfl
  | negative hne hdigits =>
    rw [toInt?_minus, toNat?_eq_some_iff.mpr ⟨hne, hdigits, rfl⟩]
    rfl

/-- Without a plus sign in front, a text denotes what it is read as. -/
theorem decimal_iff_toInt? {v : Int} (hplus : t.head? ≠ some 0x2b) :
    Decimal t v ↔ toInt? t = some v := by
  refine ⟨Decimal.toInt?_eq, fun h => ?_⟩
  by_cases hminus : t.head? = some 0x2d
  · obtain ⟨ds, rfl⟩ := List.head?_eq_some_iff.mp hminus
    rw [toInt?_minus] at h
    obtain ⟨n, hn, rfl⟩ := Option.map_eq_some_iff.mp h
    obtain ⟨hne, hdigits, rfl⟩ := toNat?_eq_some_iff.mp hn
    exact .negative hne hdigits
  · rw [toInt?_unsigned hminus hplus] at h
    obtain ⟨n, hn, rfl⟩ := Option.map_eq_some_iff.mp h
    obtain ⟨hne, hdigits, rfl⟩ := toNat?_eq_some_iff.mp hn
    exact .unsigned hne hdigits

/-- A text denotes one integer at most. -/
theorem Decimal.unique {v w : Int} (hv : Decimal t v) (hw : Decimal t w) : v = w :=
  Option.some.inj (hv.toInt?_eq.symm.trans hw.toInt?_eq)

end Text

/-! ### Reading -/

namespace Argument

/-- The longest run of digits, points and minus signs at the front of a text. -/
def numberRun (input : Text) : Text := input.takeWhile isNumberByte

/-- Does the interval contain the integer? -/
def IntBounds.Contains (bounds : IntBounds) (v : Int) : Prop :=
  bounds.least ≤ v ∧ v ≤ bounds.greatest

instance (bounds : IntBounds) (v : Int) : Decidable (bounds.Contains v) :=
  inferInstanceAs (Decidable (bounds.least ≤ v ∧ v ≤ bounds.greatest))

theorem head?_numberRun (input : Text) : (numberRun input).head? ≠ some 0x2b := by
  intro hhead
  have hmem : (0x2b : UInt8) ∈ input.takeWhile isNumberByte := List.mem_of_head? hhead
  exact absurd (List.mem_takeWhile_imp hmem) (by decide)

theorem length_sub_numberRun (input : Text) :
    input.length - (input.dropWhile isNumberByte).length = (numberRun input).length := by
  have hsplit : input.takeWhile isNumberByte ++ input.dropWhile isNumberByte = input :=
    List.takeWhile_append_dropWhile
  have hlength := congrArg List.length hsplit
  rw [List.length_append] at hlength
  show _ = (input.takeWhile isNumberByte).length
  omega

/-- The text of a number is the run, unless that is nothing or a minus sign alone. -/
theorem numberText_eq (name : NumberName) (input : Text) :
    numberText name input =
      if numberRun input = [] ∨ numberRun input = [0x2d] then
        .error ⟨.missing (.number name), input.dropWhile isNumberByte⟩
      else .ok (numberRun input, input.dropWhile isNumberByte) := by
  have hspan : spanOf isNumberByte input =
      .ok (numberRun input, input.dropWhile isNumberByte) := rfl
  have htest : ((numberRun input).isEmpty || numberRun input == Text.ofString "-") = true ↔
      numberRun input = [] ∨ numberRun input = [0x2d] := by
    simp [show Text.ofString "-" = [0x2d] by decide]
  rw [numberText, bind_eq hspan]
  split <;> rename_i h
  · rw [if_pos (htest.mp h)]
    rfl
  · rw [if_neg (mt htest.mpr h)]
    rfl

/-! ### Outcomes -/

/-- The integers of a word of 32 bits. -/
def word32 : IntBounds := ⟨-2147483648, 2147483647⟩

/-- The integers of a word of 64 bits. -/
def word64 : IntBounds := ⟨-9223372036854775808, 9223372036854775807⟩

/-- The interval of all integers of a signed word. -/
structure IntBounds.IsWord (word : IntBounds) (bits : Nat) : Prop where
  least : word.least = -Int.pow 2 (bits - 1)
  greatest : word.greatest = Int.pow 2 (bits - 1) - 1

theorem isWord_word32 : word32.IsWord 32 := ⟨by decide, by decide⟩

theorem isWord_word64 : word64.IsWord 64 := ⟨by decide, by decide⟩

/-- The kind refuses the input, with a failure of that kind. -/
def Kind.FailsAs (kind : Kind) (input : Text) (failure : FailureKind) : Prop :=
  ∃ e, kind.parse input = .error e ∧ e.cause.kind = failure

/-- What becomes of integer arguments, where `word` has the integers that can be represented. -/
structure ReadsIntegers (kind : Kind) (value : Int → Value) (word bounds : IntBounds) : Prop where
  empty : ∀ input, kind.FailsAs input .empty ↔ numberRun input = [] ∨ numberRun input = "-"
  invalid : ∀ input, kind.FailsAs input .invalid ↔
    ¬(numberRun input = [] ∨ numberRun input = "-") ∧
      ((¬∃ v, Text.Decimal (numberRun input) v) ∨
        ∃ v, Text.Decimal (numberRun input) v ∧ ¬word.Contains v)
  outOfRange : ∀ input, kind.FailsAs input .outOfRange ↔
    ∃ v, Text.Decimal (numberRun input) v ∧ word.Contains v ∧
      (v < bounds.least ∨ bounds.greatest < v)
  success : ∀ input result, kind.parse input = .ok result ↔
    ∃ v, Text.Decimal (numberRun input) v ∧ word.Contains v ∧ bounds.Contains v ∧
      result = (value v, (numberRun input).length)
  /-- the conversion to the word changes no integer that it has -/
  converted : ∀ v, word.Contains v → Int.bmod v (word.greatest - word.least + 1).toNat = v

variable {kind : Kind} {value : Int → Value} {name : NumberName} {bits : Nat}
  {word bounds : IntBounds}

/-- Neither nothing nor a minus sign alone denotes an integer. -/
theorem not_decimal_of_empty {run : Text} (h : run = [] ∨ run = [0x2d]) (v : Int) :
    ¬Text.Decimal run v := by
  rintro (⟨hne, hdigits⟩ | ⟨hne, -⟩)
  · rcases h with rfl | rfl
    · exact hne rfl
    · exact absurd (hdigits 0x2d List.mem_cons_self) (by decide)
  · rcases h with h | h
    · cases h
    · exact hne (List.cons.inj h).2

theorem IntBounds.IsWord.fitsBits_iff (hword : word.IsWord bits) (v : Int) :
    Text.fitsBits bits v = true ↔ word.Contains v := by
  simp only [Text.fitsBits, IntBounds.Contains, hword.least, hword.greatest, Bool.and_eq_true,
    decide_eq_true_eq]
  omega

/-- The conversion to a word changes no integer that it has. -/
theorem IntBounds.IsWord.bmod_eq (hword : word.IsWord bits) {v : Int} (hv : word.Contains v) :
    Int.bmod v (word.greatest - word.least + 1).toNat = v := by
  obtain ⟨hleast, hgreatest⟩ := hv
  rw [hword.least] at hleast
  rw [hword.greatest] at hgreatest
  rw [hword.least, hword.greatest]
  exact Int.bmod_eq_of_le (by omega) (by omega)

/-- The integers of a word that a run denotes are those that it is read as. -/
theorem toIntOfBits?_numberRun (hword : word.IsWord bits) (input : Text) (v : Int) :
    Text.toIntOfBits? bits (numberRun input) = some v ↔
      Text.Decimal (numberRun input) v ∧ word.Contains v := by
  rw [Text.toIntOfBits?, Option.filter_eq_some_iff, hword.fitsBits_iff,
    Text.decimal_iff_toInt? (head?_numberRun input)]

/-- An integer of the word is accepted between the bounds. -/
theorem integer_of_some (bounds : IntBounds) {input run rest : Text} {v : Int}
    (hrun : numberText name input = .ok (run, rest)) (hread : Text.toIntOfBits? bits run = some v) :
    integer name bits bounds input =
      if v < bounds.least then .error ⟨.integerOutOfRange name .least bounds.least v, input⟩
      else if bounds.greatest < v then
        .error ⟨.integerOutOfRange name .greatest bounds.greatest v, input⟩
      else .ok (v, rest) := by
  rw [integer, get_bind_eq, bind_eq hrun, hread]
  dsimp only
  split
  · rfl
  · split <;> rfl

theorem Kind.FailsAs.unique {input : Text} {k k' : FailureKind} (h : kind.FailsAs input k)
    (h' : kind.FailsAs input k') : k = k' := by
  obtain ⟨e, he, rfl⟩ := h
  obtain ⟨e', he', rfl⟩ := h'
  rw [Except.error.inj (he.symm.trans he')]

theorem Kind.FailsAs.parse_ne_ok {input : Text} {k : FailureKind} (h : kind.FailsAs input k)
    (result : Value × Nat) : kind.parse input ≠ .ok result := by
  obtain ⟨e, he, -⟩ := h
  intro hok
  cases he.symm.trans hok

variable (hscan : kind.scan = integer name bits bounds >>= fun v => pure (value v))

include hscan

/-- A kind that reads integers fails as they do. -/
theorem failsAs_of_integer {input : Text} (failure : Failure)
    (hread : integer name bits bounds input = .error failure) :
    kind.FailsAs input failure.cause.kind := by
  have herror : kind.scan input = .error failure := by
    rw [hscan]
    show (integer name bits bounds input >>= _) = _
    rw [hread]
    rfl
  exact ⟨_, by rw [Kind.parse, herror], rfl⟩

/-- Every input is of one of four classes, by its run. -/
theorem parse_cases (hword : word.IsWord bits) (input : Text) :
    ((numberRun input = [] ∨ numberRun input = [0x2d]) ∧ kind.FailsAs input .empty) ∨
    (¬(numberRun input = [] ∨ numberRun input = [0x2d]) ∧
      (∀ v, Text.Decimal (numberRun input) v → ¬word.Contains v) ∧ kind.FailsAs input .invalid) ∨
    (∃ v, Text.Decimal (numberRun input) v ∧ word.Contains v ∧
      (v < bounds.least ∨ bounds.greatest < v) ∧
      kind.FailsAs input .outOfRange) ∨
    ∃ v, Text.Decimal (numberRun input) v ∧ word.Contains v ∧ bounds.Contains v ∧
      kind.parse input = .ok (value v, (numberRun input).length) := by
  have hrun := numberText_eq name input
  by_cases hempty : numberRun input = [] ∨ numberRun input = [0x2d]
  · rw [if_pos hempty] at hrun
    have hread : integer name bits bounds input =
        .error ⟨.missing (.number name), input.dropWhile isNumberByte⟩ := by
      show (numberText name input >>= _) = _
      rw [hrun]
      rfl
    exact .inl ⟨hempty, failsAs_of_integer hscan _ hread⟩
  rw [if_neg hempty] at hrun
  cases hread : Text.toIntOfBits? bits (numberRun input) with
  | none =>
    refine .inr (.inl ⟨hempty, fun v hv hcontains => ?_,
      failsAs_of_integer hscan ⟨.malformedNumber name (numberRun input), input⟩ ?_⟩)
    · have hsome := (toIntOfBits?_numberRun hword input v).mpr ⟨hv, hcontains⟩
      cases hread.symm.trans hsome
    · rw [integer, get_bind_eq, bind_eq hrun, hread]
      rfl
  | some v =>
    obtain ⟨hv, hcontains⟩ := (toIntOfBits?_numberRun hword input v).mp hread
    -- The bounds are checked one after the other.
    have hinteger := integer_of_some bounds hrun hread
    by_cases hleast : v < bounds.least
    · rw [if_pos hleast] at hinteger
      exact .inr (.inr (.inl ⟨v, hv, hcontains, .inl hleast, failsAs_of_integer hscan _ hinteger⟩))
    rw [if_neg hleast] at hinteger
    by_cases hgreatest : bounds.greatest < v
    · rw [if_pos hgreatest] at hinteger
      exact .inr
        (.inr (.inl ⟨v, hv, hcontains, .inr hgreatest, failsAs_of_integer hscan _ hinteger⟩))
    rw [if_neg hgreatest] at hinteger
    refine .inr
      (.inr (.inr ⟨v, hv, hcontains, ⟨Int.not_lt.mp hleast, Int.not_lt.mp hgreatest⟩, ?_⟩))
    have hok : kind.scan input = .ok (value v, input.dropWhile isNumberByte) := by
      rw [hscan, bind_eq hinteger]
      rfl
    rw [Kind.parse, hok, ← length_sub_numberRun]

/-- A kind that reads integers of a word within bounds refuses all other inputs, each for its
    reason. -/
theorem readsIntegers (hword : word.IsWord bits) : ReadsIntegers kind value word bounds := by
  have hminus : Text.ofString "-" = [0x2d] := by decide
  -- The conditions of the four classes exclude each other, so each outcome has its class.
  refine ⟨fun input => ?_, fun input => ?_, fun input => ?_, fun input result => ?_,
    fun v hv => hword.bmod_eq hv⟩ <;>
    rcases parse_cases hscan hword input with
      ⟨hempty, hfails⟩ | ⟨hempty, hnone, hfails⟩ | ⟨v, hv, hcontains, hout, hfails⟩ |
      ⟨v, hv, hcontains, hin, hok⟩
  all_goals grind [Kind.FailsAs.unique, Kind.FailsAs.parse_ne_ok, Text.Decimal.unique,
    not_decimal_of_empty, IntBounds.Contains]

end Argument

/-- Integers of 32 and of 64 bits are told from everything else by the run at the front of the
    input, in this order: nothing to read, no integer of the word, an integer out of bounds, an
    integer. -/
theorem integers_classified (bounds : Argument.IntBounds) :
    Argument.ReadsIntegers (.integer bounds) .integer ⟨-2147483648, 2147483647⟩ bounds ∧
      Argument.ReadsIntegers (.long bounds) .long ⟨-9223372036854775808,
        9223372036854775807⟩ bounds :=
  ⟨Argument.readsIntegers rfl Argument.isWord_word32,
    Argument.readsIntegers rfl Argument.isWord_word64⟩

-- Leading zeros do not count against the word, and the first integer beyond it is no integer.
example :
    (Argument.Kind.integer ⟨0, 10⟩).parse "00000000000000000000007 rest" =
      .ok (.integer 7, 23) := by rfl

example : (Argument.Kind.integer ⟨0, 10⟩).FailsAs "2147483648" .invalid :=
  ⟨_, rfl, rfl⟩

end DatapackDebug
