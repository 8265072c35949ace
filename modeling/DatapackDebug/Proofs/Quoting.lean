import DatapackDebug.Argument.Scan
import DatapackDebug.Json.Reader
import DatapackDebug.Proofs.ValidText

namespace DatapackDebug

/-!
# Quoted texts are read back

A backslash before every backslash and every quote keeps a text together between two quotes.  Both
readers of quoted strings, the one of commands and the one of JSON, take the backslashes out again.

* `Text.escaped` — the text with these backslashes;
* `Argument.quotedBody_escaped` — a command gives back any text between quotes;
* `Json.readString_escaped` — a document gives back a text of characters without control bytes;
* `Json.parse_field` — an object with one string.
-/

/-! ### Backslashes -/

namespace Text

/-- The text with a backslash before every backslash and every quote. -/
def escaped (quote : UInt8) (t : Text) : Text :=
  t.flatMap fun b => if b = 0x5c ∨ b = quote then [0x5c, b] else [b]

variable {quote : UInt8}

/-- Backslashes and quotes get a backslash. -/
theorem escaped_cons_pos {b : UInt8} (hb : b = 0x5c ∨ b = quote) (t : Text) :
    escaped quote (b :: t) = 0x5c :: b :: escaped quote t := by
  rw [escaped, List.flatMap_cons, if_pos hb]
  rfl

/-- Other bytes do not. -/
theorem escaped_cons_neg {b : UInt8} (hb : ¬ (b = 0x5c ∨ b = quote)) (t : Text) :
    escaped quote (b :: t) = b :: escaped quote t := by
  rw [escaped, List.flatMap_cons, if_neg hb]
  rfl

theorem escaped_append (s t : Text) : escaped quote (s ++ t) = escaped quote s ++ escaped quote t :=
  List.flatMap_append

/-- A text without backslashes and quotes stays as it is. -/
theorem escaped_of_plain {t : Text} (h : ∀ b ∈ t, ¬ (b = 0x5c ∨ b = quote)) :
    escaped quote t = t := by
  induction t with
  | nil => rfl
  | cons b t ih =>
    rw [escaped_cons_neg (h b List.mem_cons_self), ih fun b hb => h b (List.mem_cons_of_mem _ hb)]

end Text

/-! ### Strings of commands -/

namespace Argument

variable {quote b : UInt8}

/-- The quote ends the string. -/
theorem quotedBody_quote (rest : Text) : quotedBody quote (quote :: rest) = .ok ([], rest) := by
  rw [quotedBody.eq_def]
  exact if_pos (beq_self_eq_true quote)

/-- A backslash is taken out. -/
theorem quotedBody_backslash (hquote : quote ≠ 0x5c) (hb : b = 0x5c ∨ b = quote) (t : Text) :
    quotedBody quote (0x5c :: b :: t) = (quotedBody quote t).map fun r => (b :: r.1, r.2) := by
  have hescape : (b == quote || b == 0x5c) = true := by simpa using hb.symm
  have hbackslash : ((0x5c : UInt8) == quote) = false := by simpa using hquote.symm
  rw [quotedBody.eq_def]
  simp only [hbackslash, hescape, beq_self_eq_true, if_true, Bool.false_eq_true, if_false]

theorem quotedBody_plain (hb : ¬ (b = 0x5c ∨ b = quote)) (t : Text) :
    quotedBody quote (b :: t) = (quotedBody quote t).map fun r => (b :: r.1, r.2) := by
  obtain ⟨hbackslash, hquote⟩ := not_or.mp hb
  rw [quotedBody.eq_def]
  simp only [beq_iff_eq, hquote, hbackslash, if_false]

/-- What stands between quotes is read back. -/
theorem quotedBody_escaped (hquote : quote ≠ 0x5c) (s rest : Text) :
    quotedBody quote (s.escaped quote ++ quote :: rest) = .ok (s, rest) := by
  induction s with
  | nil => exact quotedBody_quote rest
  | cons b s ih =>
    by_cases hb : b = 0x5c ∨ b = quote
    · rw [Text.escaped_cons_pos hb, List.cons_append, List.cons_append,
        quotedBody_backslash hquote hb, ih]
      rfl
    · rw [Text.escaped_cons_neg hb, List.cons_append, quotedBody_plain hb, ih]
      rfl

end Argument

/-! ### Strings of documents -/

namespace Json

theorem readUnits_quote (rest : Text) : readUnits (0x22 :: rest) = .ok ([], rest) := by
  rw [readUnits.eq_def]
  rfl

/-- Backslashes are taken out here, too. -/
theorem readUnits_backslash {b : UInt8} (hb : b = 0x5c ∨ b = 0x22) (t : Text) :
    readUnits (0x5c :: b :: t) = (readUnits t).map fun r => (.byte b :: r.1, r.2) := by
  rw [readUnits.eq_def]
  rcases hb with rfl | rfl <;> rfl

/-- Control bytes apart, other bytes stand for themselves. -/
theorem readUnits_plain {b : UInt8} (hb : ¬ (b = 0x5c ∨ b = 0x22)) (hcontrol : 0x20 ≤ b)
    (t : Text) : readUnits (b :: t) = (readUnits t).map fun r => (.byte b :: r.1, r.2) := by
  obtain ⟨hbackslash, hquote⟩ := not_or.mp hb
  have hcodes : Char.toUInt8 '"' = 0x22 ∧ Char.toUInt8 '\\' = 0x5c := by decide
  rw [readUnits.eq_def]
  simp only [hcodes.1, hcodes.2, beq_iff_eq, hquote, hbackslash, UInt8.not_lt.mpr hcontrol,
    if_false]

/-- The units of a text between double quotes are its bytes. -/
theorem readUnits_escaped {s : Text} (hs : ∀ b ∈ s, 0x20 ≤ b) (rest : Text) :
    readUnits (s.escaped 0x22 ++ 0x22 :: rest) = .ok (s.map .byte, rest) := by
  induction s with
  | nil => exact readUnits_quote rest
  | cons b s ih =>
    have hrest := ih fun b hb => hs b (List.mem_cons_of_mem _ hb)
    by_cases hb : b = 0x5c ∨ b = 0x22
    · rw [Text.escaped_cons_pos hb, List.cons_append, List.cons_append,
        readUnits_backslash hb, hrest]
      rfl
    · rw [Text.escaped_cons_neg hb, List.cons_append,
        readUnits_plain hb (hs b List.mem_cons_self), hrest]
      rfl

/-- Units that are bytes are their own text. -/
theorem unitsText_bytes (s : Text) : unitsText (s.map .byte) = s := by
  induction s with
  | nil => rfl
  | cons b s ih => rw [List.map_cons, unitsText, ih]

/-- A text of characters without control bytes is read back. -/
theorem readString_escaped {s : Text} (hvalid : Utf8.isValid s = true) (hs : ∀ b ∈ s, 0x20 ≤ b)
    (rest : Text) : readString (s.escaped 0x22 ++ 0x22 :: rest) = .ok (s, rest) := by
  rw [readString, readUnits_escaped hs]
  show Except.ok (Utf8.repair (unitsText (s.map .byte)), rest) = _
  rw [unitsText_bytes, Utf8.repair_of_isValid hvalid]

/-- A text that needs no backslashes is read back as it stands. -/
theorem readString_plain {s : Text} (hvalid : Utf8.isValid s = true)
    (hs : ∀ b ∈ s, 0x20 ≤ b ∧ ¬ (b = 0x5c ∨ b = 0x22)) (rest : Text) :
    readString (s ++ 0x22 :: rest) = .ok (s, rest) := by
  have hstring := readString_escaped hvalid (fun b hb => (hs b hb).1) rest
  rwa [Text.escaped_of_plain fun b hb => (hs b hb).2] at hstring

/-! ### An object with one string -/

/-- An object with one string, of which the key needs no backslashes, as a document. -/
def field (key value : Text) : Text :=
  "\x7b\"" ++ (key ++ ("\":\"" ++ (value.escaped 0x22 ++ "\"\x7d")))

variable {key value : Text}

/-- A key is a string with a colon behind it. -/
theorem readKey_field (hvalid : Utf8.isValid key = true)
    (hkey : ∀ b ∈ key, 0x20 ≤ b ∧ ¬ (b = 0x5c ∨ b = 0x22)) (rest : Text) :
    readKey (0x22 :: (key ++ 0x22 :: 0x3a :: rest)) = .ok (key, rest) := by
  show (readString (key ++ 0x22 :: 0x3a :: rest) >>= _) = _
  rw [readString_plain hvalid hkey]
  rfl

/-- A string is a value at every depth. -/
theorem readValue_escaped (hvalue : Utf8.isValid value = true) (hcontrol : ∀ b ∈ value, 0x20 ≤ b)
    (depth : Nat) (rest : Text) :
    readValue depth (0x22 :: (value.escaped 0x22 ++ 0x22 :: rest)) = .ok (.string value, rest) := by
  rw [readValue.eq_def]
  show (readString (value.escaped 0x22 ++ 0x22 :: rest)).map _ = _
  rw [readString_escaped hvalue hcontrol]
  rfl

/-- An object with one string is read back from its document. -/
theorem parse_field (hkey : Utf8.isValid key = true)
    (hplain : ∀ b ∈ key, 0x20 ≤ b ∧ ¬ (b = 0x5c ∨ b = 0x22)) (hvalue : Utf8.isValid value = true)
    (hcontrol : ∀ b ∈ value, 0x20 ≤ b) :
    parse (field key value) = .ok (.object [(key, .string value)]) := by
  have hbytes : field key value =
      0x7b :: 0x22 :: (key ++ 0x22 :: 0x3a :: 0x22 :: (value.escaped 0x22 ++ 0x22 :: [0x7d])) := rfl
  generalize hbody : 0x22 ::
    (key ++ 0x22 :: 0x3a :: 0x22 :: (value.escaped 0x22 ++ 0x22 :: [0x7d])) = body at hbytes
  have hfields (depth n : Nat) : readFields (readValue depth) (n + 1) body =
      .ok ([(key, .string value)], []) := by
    rw [readFields, ← hbody, readSequence, readField, readKey_field hkey hplain]
    show ((readValue depth (0x22 :: (value.escaped 0x22 ++ 0x22 :: [0x7d])) >>= _) >>= _) = _
    rw [readValue_escaped hvalue hcontrol]
    rfl
  have hread (depth : Nat) :
      readValue (depth + 1) (0x7b :: body) = .ok (.object [(key, .string value)], []) := by
    obtain ⟨n, hn⟩ : ∃ n, body.length = n + 1 := ⟨_, by rw [← hbody]; rfl⟩
    rw [readValue.eq_def]
    subst hbody
    show (readFields (readValue depth) _ _).map _ = _
    rw [hn, hfields]
    rfl
  rw [hbytes, parse, read, maxDepth, hread]
  rfl

end Json

end DatapackDebug
