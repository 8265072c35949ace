import DatapackDebug.Proofs.Lookup
import Mathlib.Data.List.TakeWhile

namespace DatapackDebug

/-!
# Names that can be told apart

Functions, positions and tags appear in a generated datapack as texts only.

* `Text.ofNat_injective`, `Text.toInt?_ofInt` — numerals can be read back;
* `ResourceName.Valid` — the names that the reader of names accepts as they stand;
* `Position.text_injective`, `Tag.text_position_inj`, `Tag.text_function_inj` — positions, and tags
  of one sort, are told apart by their texts;
* `Tag.compare_of_text_function_eq_position` — the tag of a function can be the tag of a position in
  another one, but then it is the later of the two in the order of names;
* `UnitName.path_injective` — generated functions are told apart by their paths.
-/

variable {sep : UInt8} {ns t : Text} {f g : ResourceName}

/-! ### Numerals -/

namespace Text

/-- The byte of a digit has the value of the character. -/
theorem toNat_toUInt8_of_isDigit {c : Char} (h : c.isDigit = true) :
    c.toUInt8.toNat = c.toNat ∧ 0x30 ≤ c.toNat ∧ c.toNat ≤ 0x39 := by
  simp only [Char.isDigit, Bool.and_eq_true, decide_eq_true_eq] at h
  have hlow : 0x30 ≤ c.toNat := UInt32.le_iff_toNat_le.mp h.1
  have hhigh : c.toNat ≤ 0x39 := UInt32.le_iff_toNat_le.mp h.2
  have : c.toUInt8.toNat = c.toNat % 256 := rfl
  omega

/-- A numeral has digits only. -/
theorem isDigit_of_mem_ofNat {n : Nat} {b : UInt8} (h : b ∈ ofNat n) : isDigit b = true := by
  obtain ⟨c, hc, rfl⟩ := List.mem_map.mp h
  have hd := Nat.isDigit_of_mem_toDigits (by decide) (by decide) hc
  obtain ⟨hval, hlow, hhigh⟩ := toNat_toUInt8_of_isDigit hd
  simp only [isDigit, Bool.and_eq_true, decide_eq_true_eq, UInt8.le_iff_toNat_le, hval]
  exact ⟨hlow, hhigh⟩

/-- A numeral is not empty. -/
theorem ofNat_ne_nil (n : Nat) : ofNat n ≠ [] := by
  simp [ofNat]

/-- A numeral has the value of its number. -/
theorem digitsValue_ofNat (n : Nat) : digitsValue (ofNat n) = n := by
  have hfold : ∀ (cs : List Char) (v : Nat), (∀ c ∈ cs, c.isDigit = true) →
      (cs.map Char.toUInt8).foldl (fun v d => v * 10 + (d.toNat - 0x30)) v
        = Nat.ofDigitChars 10 cs v := by
    intro cs
    induction cs with
    | nil => intro v _; simp
    | cons c cs ih =>
      intro v hcs
      have hc := (toNat_toUInt8_of_isDigit (hcs c List.mem_cons_self)).1
      rw [List.map_cons, List.foldl_cons, ih _ fun c' h => hcs c' (List.mem_cons_of_mem _ h),
        Nat.ofDigitChars_cons, hc, Nat.mul_comm]
      rfl
  rw [digitsValue, ofNat, hfold _ _ fun c hc =>
    Nat.isDigit_of_mem_toDigits (by decide) (by decide) hc]
  exact Nat.ofDigitChars_toDigits (by decide) (by decide)

/-- Different numbers have different numerals. -/
theorem ofNat_injective : Function.Injective ofNat := by
  intro m n h
  rw [← digitsValue_ofNat m, h, digitsValue_ofNat]

/-- The numeral of a natural number is read back. -/
theorem toNat?_ofNat (n : Nat) : toNat? (ofNat n) = some n := by
  have hall : (ofNat n).all isDigit = true :=
    List.all_eq_true.mpr fun b hb => isDigit_of_mem_ofNat hb
  simp [toNat?, hall, ofNat_ne_nil, digitsValue_ofNat]

/-- The numeral of an integer is read back. -/
theorem toInt?_ofInt (n : Int) : toInt? (ofInt n) = some n := by
  cases n with
  | negSucc n => simp [ofInt, toInt?, toNat?_ofNat, Int.negSucc_eq]
  | ofNat n =>
    rw [ofInt]
    -- A numeral does not start with a sign.
    cases h : ofNat n with
    | nil => exact absurd h (ofNat_ne_nil n)
    | cons b t =>
      have hb : isDigit b = true := isDigit_of_mem_ofNat (h ▸ List.mem_cons_self)
      have hminus : b ≠ 0x2d := by rintro rfl; exact absurd hb (by decide)
      have hplus : b ≠ 0x2b := by rintro rfl; exact absurd hb (by decide)
      have hnat := toNat?_ofNat n
      rw [h] at hnat
      simp [toInt?, hminus, hplus, hnat]

/-! ### Separators -/

/-- Two texts that are cut at the first of a byte are equal in both parts. -/
theorem append_first_inj {a b c d : Text} (ha : sep ∉ a) (hc : sep ∉ c)
    (h : a ++ sep :: b = c ++ sep :: d) : a = c ∧ b = d := by
  induction a generalizing c with
  | nil =>
    cases c with
    | nil => exact ⟨rfl, (List.cons.inj h).2⟩
    | cons x c => exact absurd (List.cons.inj h).1 fun e => hc (e ▸ List.mem_cons_self)
  | cons x a ih =>
    cases c with
    | nil => exact absurd (List.cons.inj h).1 fun e => ha (e ▸ List.mem_cons_self)
    | cons y c =>
      obtain ⟨rfl, hrest⟩ := List.cons.inj h
      obtain ⟨rfl, hbd⟩ :=
        ih (fun hm => ha (List.mem_cons_of_mem _ hm))
          (fun hm => hc (List.mem_cons_of_mem _ hm)) hrest
      exact ⟨rfl, hbd⟩

/-- Two texts that are cut at the last of a byte are equal in both parts. -/
theorem append_last_inj {a b c d : Text} (hb : sep ∉ b) (hd : sep ∉ d)
    (h : a ++ sep :: b = c ++ sep :: d) : a = c ∧ b = d := by
  have h := congrArg List.reverse h
  simp only [List.reverse_append, List.reverse_cons, List.append_assoc, List.singleton_append] at h
  have hcut := append_first_inj (by simpa using hb) (by simpa using hd) h
  exact ⟨List.reverse_injective hcut.2, List.reverse_injective hcut.1⟩

/-- The parts before and after the first byte `sep`, as they make up the text. -/
theorem cut?_eq_some_iff {l r : Text} : cut? sep t = some (l, r) ↔ t = l ++ sep :: r ∧ sep ∉ l := by
  induction t generalizing l with
  | nil => simp [cut?]
  | cons b t ih =>
    by_cases hb : b = sep
    · subst hb
      cases l with
      | nil => simp [cut?, eq_comm]
      | cons x l => simp [cut?]; grind
    · cases l with
      | nil => simp [cut?, hb]
      | cons x l => simp [cut?, hb, ih]; grind

/-- A text with the byte `sep` can be cut there. -/
theorem cut?_ne_none (h : sep ∈ t) : cut? sep t ≠ none := by
  induction t with
  | nil => simp at h
  | cons b t ih =>
    by_cases hb : b = sep
    · simp [cut?, hb]
    · rcases List.mem_cons.mp h with rfl | h
      · exact absurd rfl hb
      · simp [cut?, hb, ih h]

/-- A text is cut at the last byte `sep`. -/
theorem cutLast?_append {l r : Text} (hr : sep ∉ r) :
    cutLast? sep (l ++ sep :: r) = some (l, r) := by
  have hreverse : (l ++ sep :: r).reverse = r.reverse ++ sep :: l.reverse := by simp
  rw [cutLast?, hreverse, cut?_eq_some_iff.mpr ⟨rfl, by simpa using hr⟩]
  simp

/-- What follows a beginning is what is left without it. -/
theorem dropStart?_append (s t : Text) : dropStart? s (s ++ t) = some t := by
  induction s with
  | nil => cases t <;> rfl
  | cons b s ih => simp [dropStart?, ih]

/-- A text is its beginning and what is left without it. -/
theorem eq_append_of_dropStart? {s rest : Text} (h : dropStart? s t = some rest) :
    t = s ++ rest := by
  induction s generalizing t with
  | nil => cases t <;> simpa [dropStart?] using h
  | cons b s ih =>
    cases t with
    | nil => simp [dropStart?] at h
    | cons c t =>
      by_cases hb : b = c
      · subst hb
        have ht : t = s ++ rest := ih (by simpa [dropStart?] using h)
        simp [ht]
      · simp [dropStart?, hb] at h

end Text

/-! ### Names of functions -/

/-- The reader of names accepts the name as it stands. -/
def ResourceName.Valid (f : ResourceName) : Prop := ResourceName.parse f.text = .ok f

/-- The bytes of the two parts of a name. -/
structure ResourceName.Plain (f : ResourceName) : Prop where
  ns : ∀ b ∈ f.ns, Argument.isResourceByte b = true ∧ b ≠ 0x2f ∧ b ≠ 0x3a
  path : ∀ b ∈ f.path, Argument.isResourceByte b = true ∧ b ≠ 0x3a

/-- The reader of names without its monad. -/
theorem Argument.resource_eq (t : Text) :
    Argument.resource t =
      if (t.takeWhile isResourceByte).isEmpty then
        .error ⟨.missing .resource, t.dropWhile isResourceByte⟩
      else match resourceOfText? (t.takeWhile isResourceByte) with
        | some name => .ok (name, t.dropWhile isResourceByte)
        | none => .error ⟨.malformedResource (t.takeWhile isResourceByte), t⟩ := by
  by_cases hempty : (t.takeWhile isResourceByte).isEmpty
  · rw [if_pos hempty]
    simp [Argument.resource, spanOf, bind, StateT.bind, get, getThe, MonadStateOf.get, StateT.get,
      pure, Except.pure, Except.bind, hempty, fail]
  · rw [if_neg hempty]
    cases hname : resourceOfText? (t.takeWhile isResourceByte) <;>
      simp [Argument.resource, spanOf, bind, StateT.bind, get, getThe, MonadStateOf.get, StateT.get,
        pure, Except.pure, Except.bind, hempty, hname, failAt]
    rfl

namespace ResourceName

/-- What the reader of names has made sure of. -/
theorem parse_eq_ok (h : ResourceName.parse t = .ok f) :
    (∀ b ∈ t, Argument.isResourceByte b = true) ∧ Argument.resourceOfText? t = some f := by
  rw [ResourceName.parse, Argument.resource_eq] at h
  split at h
  · simp at h
  · rename_i name hres
    split at hres
    · simp at hres
    · split at hres
      · rename_i g hg
        obtain ⟨rfl, hrest⟩ : g = name ∧ t.dropWhile Argument.isResourceByte = [] := by
          simpa using hres
        obtain rfl : g = f := by simpa using h
        have hall : ∀ b ∈ t, Argument.isResourceByte b = true := List.dropWhile_eq_nil_iff.mp hrest
        rw [List.takeWhile_eq_self_iff.mpr hall] at hg
        exact ⟨hall, hg⟩
      · simp at hres
  · simp at h

/-- A valid name is made of the bytes that names are made of. -/
theorem Valid.plain (hf : f.Valid) : f.Plain := by
  obtain ⟨hbytes, hname⟩ := parse_eq_ok hf
  have htext : f.text = f.ns ++ 0x3a :: f.path := by
    rw [ResourceName.text, show Text.ofString ":" = [0x3a] from by decide]
    simp
  simp only [Argument.resourceOfText?, show (Char.toUInt8 ':') = 0x3a from by decide] at hname
  -- The reader cuts at the first colon, and the text has one.
  cases hcut : Text.cut? 0x3a f.text with
  | none => exact absurd hcut (Text.cut?_ne_none (by rw [htext]; simp))
  | some parts =>
    obtain ⟨l, r⟩ := parts
    obtain ⟨hlr, hl⟩ := Text.cut?_eq_some_iff.mp hcut
    simp only [hcut, Option.getD_some] at hname
    split at hname
    · simp at hname
    · rename_i hgood
      simp only [Bool.or_eq_true, not_or, Bool.not_eq_true, List.contains_eq_mem,
        decide_eq_false_iff_not] at hgood
      have hpath : r = f.path := by
        rw [← Option.some.inj hname]
      have hns : l = f.ns := by
        rw [htext, ← hpath] at hlr
        exact (List.append_cancel_right hlr).symm
      subst hpath hns
      refine ⟨fun b hb => ⟨hbytes b ?_, ?_, ?_⟩, fun b hb => ⟨hbytes b ?_, ?_⟩⟩
      · rw [htext]; exact List.mem_append_left _ hb
      · rintro rfl; exact hgood.1.2 hb
      · rintro rfl; exact hl hb
      · rw [htext]; exact List.mem_append_right _ (List.mem_cons_of_mem _ hb)
      · rintro rfl; exact hgood.1.1 hb

/-- No part of a valid name holds the byte that tags put between parts. -/
theorem Valid.plus_not_mem (hf : f.Valid) : 0x2b ∉ f.ns ∧ 0x2b ∉ f.path :=
  ⟨fun h => absurd (hf.plain.ns _ h).1 (by decide),
    fun h => absurd (hf.plain.path _ h).1 (by decide)⟩

/-- There is no slash in the namespace of a valid name. -/
theorem Valid.slash_not_mem_ns (hf : f.Valid) : 0x2f ∉ f.ns :=
  fun h => (hf.plain.ns _ h).2.1 rfl

/-- Putting one byte for another loses nothing where the new one did not occur. -/
theorem replaceByte_inj {a b : UInt8} {s : Text} (hs : b ∉ s) (ht : b ∉ t)
    (h : Text.replaceByte a b s = Text.replaceByte a b t) : s = t := by
  induction s generalizing t with
  | nil => cases t <;> simp_all [Text.replaceByte]
  | cons x s ih =>
    cases t with
    | nil => simp [Text.replaceByte] at h
    | cons y t =>
      simp only [Text.replaceByte, List.map_cons, List.cons.injEq] at h
      obtain ⟨hxy, hst⟩ := h
      have htail := ih (fun hm => hs (List.mem_cons_of_mem _ hm))
        (fun hm => ht (List.mem_cons_of_mem _ hm)) hst
      have hx : x ≠ b := fun e => hs (e ▸ List.mem_cons_self)
      have hy : y ≠ b := fun e => ht (e ▸ List.mem_cons_self)
      grind

/-- Names without the byte that tags put between parts are told apart by the form that tags have. -/
theorem mangled_inj (hf : 0x2b ∉ f.ns ∧ 0x2b ∉ f.path) (hg : 0x2b ∉ g.ns ∧ 0x2b ∉ g.path)
    (h : f.mangled = g.mangled) : f = g := by
  simp only [mangled, show Text.ofString "+" = [0x2b] from by decide, List.append_assoc,
    List.singleton_append] at h
  obtain ⟨hns, hplus⟩ := Text.append_first_inj hf.1 hg.1 h
  have hpath : f.path = g.path := replaceByte_inj hf.2 hg.2 hplus
  cases f; cases g
  simp_all

end ResourceName

/-! ### Positions -/

namespace Place

/-- Places are told apart by their names. -/
theorem text_injective : Function.Injective text := fun p q h =>
  List.inj_on_of_nodup_map (l := all) (by decide) (mem_all p) (mem_all q) h

/-- The name of a place holds none of the bytes that stand between parts of tags and paths. -/
theorem sep_not_mem_text (p : Place) : 0x2b ∉ p.text ∧ 0x2f ∉ p.text := by
  cases p <;> decide

end Place

namespace Position

/-- A position as a line, an underscore and a place. -/
theorem text_eq (p : Position) : p.text = Text.ofNat p.line ++ 0x5f :: p.place.text := by
  rw [text, show Text.ofString "_" = [0x5f] from by decide]
  simp

/-- Positions are told apart by their texts. -/
theorem text_injective : Function.Injective text := by
  intro p q h
  have hdigit : ∀ n, 0x5f ∉ Text.ofNat n := fun n hm =>
    absurd (Text.isDigit_of_mem_ofNat hm) (by decide)
  rw [text_eq, text_eq] at h
  obtain ⟨hline, hplace⟩ := Text.append_first_inj (hdigit _) (hdigit _) h
  have hl := Text.ofNat_injective hline
  have hp := Place.text_injective hplace
  cases p; cases q
  simp_all

/-- The text of a position starts with a digit. -/
theorem text_head (p : Position) : ∃ b t, p.text = b :: t ∧ Text.isDigit b = true := by
  rw [text_eq]
  cases h : Text.ofNat p.line with
  | nil => exact absurd h (Text.ofNat_ne_nil _)
  | cons b t => exact ⟨b, _, rfl, Text.isDigit_of_mem_ofNat (h ▸ List.mem_cons_self)⟩

/-- The text of a position holds none of the bytes that stand between parts of tags and paths. -/
theorem sep_not_mem_text (p : Position) : 0x2b ∉ p.text ∧ 0x2f ∉ p.text := by
  have hdigit : ∀ b, Text.isDigit b = false → b ∉ Text.ofNat p.line := fun b hb hm => by
    rw [Text.isDigit_of_mem_ofNat hm] at hb
    exact absurd hb (by decide)
  rw [text_eq]
  simp only [List.mem_append, List.mem_cons, not_or]
  exact ⟨⟨hdigit _ (by decide), by decide, p.place.sep_not_mem_text.1⟩,
    ⟨hdigit _ (by decide), by decide, p.place.sep_not_mem_text.2⟩⟩

end Position

/-! ### Tags -/

namespace Tag

/-- The tags that do not name a function. -/
def fixed : List Tag :=
  [.own, .functionCall, .new, .suspended, .breakpoint, .returnTarget, .selectedEntity, .exitMarker,
    .exit]

/-- What a tag adds to the namespace of the debugger. -/
def suffix (tag : Tag) : Text := tag.text []

/-- The text of a tag begins with the namespace of the debugger. -/
theorem text_eq (ns : Text) (tag : Tag) : tag.text ns = ns ++ tag.suffix := by
  cases tag <;> simp [suffix, text]

/-- Tags have the same text exactly if they add the same to the namespace. -/
theorem text_eq_iff {s t : Tag} : s.text ns = t.text ns ↔ s.suffix = t.suffix := by
  rw [text_eq, text_eq, List.append_cancel_left_eq]

/-- The tag of a function adds its name behind a plus. -/
theorem suffix_function (f : ResourceName) : (Tag.function f).suffix = 0x2b :: f.mangled := by
  rw [suffix, text, show Text.ofString "+" = [0x2b] from by decide]
  simp

/-- The tag of a position adds the position to the tag of its function. -/
theorem suffix_position (f : ResourceName) (p : Position) :
    (Tag.position f p).suffix = 0x2b :: (f.mangled ++ 0x2b :: p.text) := by
  simp [suffix, text, show Text.ofString "+" = [0x2b] from by decide]

/-- Tags that name no function are told apart by what they add, which is not behind a plus. -/
theorem suffix_fixed : (fixed.map suffix).Nodup ∧ ∀ s ∈ fixed, s.suffix.head? ≠ some 0x2b := by
  decide

/-- A tag that names no function has the text of no other tag. -/
theorem text_fixed_inj {s t : Tag} (hs : s ∈ fixed) (h : t.text ns = s.text ns) : t = s := by
  rw [text_eq_iff] at h
  have hhead := suffix_fixed.2 s hs
  cases t with
  | function f => simp [← h, suffix_function] at hhead
  | position f p => simp [← h, suffix_position] at hhead
  | _ => exact List.inj_on_of_nodup_map suffix_fixed.1 (by decide) hs h

/-- Functions are told apart by their tags. -/
theorem text_function_inj (hf : f.Valid) (hg : g.Valid)
    (h : (Tag.function f).text ns = (Tag.function g).text ns) : f = g := by
  rw [text_eq_iff, suffix_function, suffix_function] at h
  exact ResourceName.mangled_inj hf.plus_not_mem hg.plus_not_mem (List.cons.inj h).2

/-- Positions in functions are told apart by their tags. -/
theorem text_position_inj {p q : Position} (hf : f.Valid) (hg : g.Valid)
    (h : (Tag.position f p).text ns = (Tag.position g q).text ns) : f = g ∧ p = q := by
  rw [text_eq_iff, suffix_position, suffix_position] at h
  obtain ⟨hname, hpos⟩ :=
    Text.append_last_inj p.sep_not_mem_text.1 q.sep_not_mem_text.1 (List.cons.inj h).2
  exact ⟨ResourceName.mangled_inj hf.plus_not_mem hg.plus_not_mem hname,
    Position.text_injective hpos⟩

/-- Where the tag of a function is that of a position in another function, the function is below the
    other one and comes after it. -/
theorem compare_of_text_function_eq_position {p : Position} (hf : f.Valid) (hg : g.Valid)
    (h : (Tag.function g).text ns = (Tag.position f p).text ns) : f.compare g = .lt := by
  -- The function is named as if it were in a directory with the name of the other one.
  have hbelow : (⟨f.ns, f.path ++ 0x2f :: p.text⟩ : ResourceName).mangled
      = f.mangled ++ 0x2b :: p.text := by
    have hkept : Text.replaceByte 0x2f 0x2b p.text = p.text := by
      refine (List.map_congr_left fun b hb => ?_).trans (List.map_id _)
      have : b ≠ 0x2f := fun e => p.sep_not_mem_text.2 (e ▸ hb)
      simp [this]
    have hpath : Text.replaceByte 0x2f 0x2b (f.path ++ 0x2f :: p.text)
        = Text.replaceByte 0x2f 0x2b f.path ++ 0x2b :: p.text := by
      rw [Text.replaceByte, List.map_append, List.map_cons, ← Text.replaceByte, ← Text.replaceByte,
        hkept]
      rfl
    change f.ns ++ Text.ofString "+" ++ Text.replaceByte 0x2f 0x2b (f.path ++ 0x2f :: p.text)
      = f.ns ++ Text.ofString "+" ++ Text.replaceByte 0x2f 0x2b f.path ++ 0x2b :: p.text
    rw [hpath, List.append_assoc, List.append_assoc, List.append_assoc]
  rw [text_eq_iff, suffix_function, suffix_position] at h
  have hplus : 0x2b ∉ f.path ++ 0x2f :: p.text := by
    simp only [List.mem_append, List.mem_cons, not_or]
    exact ⟨hf.plus_not_mem.2, by decide, p.sep_not_mem_text.1⟩
  obtain rfl : g = ⟨f.ns, f.path ++ 0x2f :: p.text⟩ :=
    ResourceName.mangled_inj hg.plus_not_mem ⟨hf.plus_not_mem.1, hplus⟩
      ((List.cons.inj h).2.trans hbelow.symm)
  simp [ResourceName.compare, Text.compare_append_cons]

end Tag

/-! ### Paths of generated functions -/

namespace UnitPart

/-- The parts that are there once for each function. -/
def fixed : List UnitPart := [.start, .scheduled, .validate, .return, .returnSelf, .resume]

/-- The parts that are there once are told apart by their names, which start with no digit. -/
theorem text_fixed :
    (fixed.map text).Nodup ∧ ∀ u ∈ fixed, u.text.head?.any Text.isDigit = false := by
  decide

/-- Parts of a function are told apart by their names. -/
theorem text_injective : Function.Injective text := by
  -- A piece has the name of a position, which starts with a digit.
  have hpiece : ∀ p : Position, ∀ u ∈ fixed, p.text ≠ u.text := fun p u hu h => by
    obtain ⟨b, t, hb, hdigit⟩ := p.text_head
    have hletter := text_fixed.2 u hu
    rw [← h, hb] at hletter
    simp [hdigit] at hletter
  intro u v h
  cases u with
  | piece p =>
    cases v with
    | piece q => exact congrArg _ (Position.text_injective h)
    | _ => exact absurd h (hpiece p _ (by decide))
  | _ =>
    cases v with
    | piece q => exact absurd h.symm (hpiece q _ (by decide))
    | _ => exact List.inj_on_of_nodup_map text_fixed.1 (by decide) (by decide) h

/-- The name of a part is one name of a path. -/
theorem slash_not_mem_text (u : UnitPart) : 0x2f ∉ u.text := by
  cases u with
  | piece p => exact p.sep_not_mem_text.2
  | _ => decide

end UnitPart

namespace UnitName

/-- The functions that are there once. -/
def global : List UnitName :=
  [.install, .uninstall, .assignIds, .schedule, .logScores, .suspend, .resumeSelf, .resumeDispatch,
    .onExit]

/-- The functions that are there once are told apart by their paths, which have at most two
    names. -/
theorem path_global : (global.map path).Nodup ∧ ∀ u ∈ global, u.path.count 0x2f ≤ 1 := by
  decide

/-- The path of a part of a function. -/
theorem path_of (f : ResourceName) (part : UnitPart) :
    (UnitName.of f part).path = f.ns ++ 0x2f :: (f.path ++ 0x2f :: part.text) := by
  simp [path, unitPath, show Text.ofString "/" = [0x2f] from by decide]

/-- Generated functions are told apart by their paths. -/
theorem path_injective {u v : UnitName} (hu : ∀ f part, u = .of f part → 0x2f ∉ f.ns)
    (hv : ∀ f part, v = .of f part → 0x2f ∉ f.ns) (h : u.path = v.path) : u = v := by
  have hcount : ∀ f part, ∀ w ∈ global, (UnitName.of f part).path ≠ w.path := by
    intro f part w hw heq
    have hle := path_global.2 w hw
    rw [← heq, path_of] at hle
    simp only [List.count_append, List.count_cons_self] at hle
    omega
  cases u with
  | of f part =>
    cases v with
    | of g part' =>
      rw [path_of, path_of] at h
      obtain ⟨hns, hrest⟩ := Text.append_first_inj (hu f part rfl) (hv g part' rfl) h
      obtain ⟨hpath, hpart⟩ :=
        Text.append_last_inj part.slash_not_mem_text part'.slash_not_mem_text hrest
      have := UnitPart.text_injective hpart
      cases f; cases g
      simp_all
    | _ => exact absurd h (hcount f part _ (by decide))
  | _ =>
    cases v with
    | of g part => exact absurd h.symm (hcount g part _ (by decide))
    | _ => exact List.inj_on_of_nodup_map path_global.1 (by decide) (by decide) h

end UnitName

end DatapackDebug
