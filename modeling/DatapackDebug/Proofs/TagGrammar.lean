import DatapackDebug.Proofs.InjectedBlocks

namespace DatapackDebug

/-!
# The grammar of tags

What a text denotes as a tag is said by rules that do not mention a reader: brackets with items
between commas, entries of a key and a value, arrays behind their headers, quoted strings and
words.  The reader finds a tag at the front of a text exactly if the text begins with one that
denotes it, and takes as much of a word as there is.

* `Argument.Bracketed` — items between commas up to a closing bracket, with blanks around them;
* `Argument.Denotes` — the tag that a text denotes;
* `Argument.denotes_of_nbtTagWithin`, `Argument.nbtTagWithin_of_denotes` — what is read is denoted,
  and conversely;
* `Argument.Denotes.wellNested` — every bracket is closed by its own and never right behind a comma;
* `nbt_parse_iff_denotes` — all of this for the arguments that are tags or compounds.
-/

variable {rest s t : Text} {e : Text × Nbt} {v : Nbt} {b : UInt8} {n : Nat} {entries : NbtEntries}

namespace Argument

variable {α : Type}

/-! ### Items in brackets -/

/-- A text of blanks only. -/
def Blanks (t : Text) : Prop := ∀ b ∈ t, b = Text.blank

/-- Items between commas up to a closing bracket, which the text holds, too.  Blanks may surround
    every item, and another item follows every comma. -/
inductive Items (close : UInt8) (R : Text → α → Prop) : Text → List α → Prop where
  | last {pre t post : Text} {a : α} (hpre : Blanks pre) (h : R t a) (hpost : Blanks post) :
      Items close R (pre ++ (t ++ (post ++ [close]))) [a]
  | more {pre t post rest : Text} {a : α} {as : List α} (hpre : Blanks pre) (h : R t a)
      (hpost : Blanks post) (hrest : Items close R rest as) :
      Items close R (pre ++ (t ++ (post ++ 0x2c :: rest))) (a :: as)

/-- What may follow an opening bracket, with the closing one. -/
inductive Bracketed (close : UInt8) (R : Text → α → Prop) : Text → List α → Prop where
  | empty {pre : Text} (hpre : Blanks pre) : Bracketed close R (pre ++ [close]) []
  | items {t : Text} {as : List α} (h : Items close R t as) : Bracketed close R t as

/-! ### Tags -/

/-- A string between quotes.  Quotes and backslashes in it are escaped, and nothing else is. -/
def IsQuoted (t s : Text) : Prop :=
  ∃ quote, isQuote quote = true ∧ t = quote :: (s.escaped quote ++ [quote])

/-- A key of a compound. -/
def IsKey (t key : Text) : Prop := IsQuoted t key ∨ IsWord t ∧ t = key

/-- A key, a colon and a value. -/
inductive Entry (R : Text → Nbt → Prop) : Text → Text × Nbt → Prop where
  | mk {k key pre post t : Text} {v : Nbt} (hkey : IsKey k key) (hpre : Blanks pre)
      (hpost : Blanks post) (h : R t v) :
      Entry R (k ++ (pre ++ 0x3a :: (post ++ t))) (key, v)

/-- The tag that a text denotes. -/
inductive Denotes : Text → Nbt → Prop where
  | compound {t : Text} {entries : List (Text × Nbt)}
      (h : Bracketed 0x7d (Entry Denotes) t entries) :
      Denotes (0x7b :: t) (.compound entries)
  | list {t : Text} {items : List Nbt} (h : Bracketed 0x5d Denotes t items) :
      Denotes (0x5b :: t) (.list items)
  | array {type : NbtArrayType} {t : Text} {items : List NbtNumber}
      (h : Bracketed 0x5d Denotes t (items.map .number)) :
      Denotes (0x5b :: type.letter :: 0x3b :: t) (.array type items)
  | string {t s : Text} (h : IsQuoted t s) : Denotes t (.string s)
  | word {w : Text} (h : IsWord w) : Denotes w (nbtPrimitive w)

/-! ### What items begin and end with -/

/-- The bytes that a tag or a key may begin with. -/
def opensTag (b : UInt8) : Bool := b == 0x7b || b == 0x5b || isQuote b || isWordByte b

/-- The text begins like a tag or a key. -/
def Opens (t : Text) : Prop := ∃ b u, t = b :: u ∧ opensTag b = true

/-- No byte of a word is next. -/
def WordEnds (rest : Text) : Prop := ∀ b, rest.head? = some b → isWordByte b = false

/-- What a reader finds is what a front of its text stands for. -/
def ReadsOnly (item : Scan α) (R : Text → α → Prop) : Prop :=
  ∀ t a rest, item t = .ok (a, rest) → ∃ front, t = front ++ rest ∧ R front a

/-- A reader finds what texts of at most some length stand for, wherever a word would end. -/
def ReadsAll (N : Nat) (item : Scan α) (R : Text → α → Prop) : Prop :=
  ∀ t a rest, R t a → t.length ≤ N → WordEnds rest → item (t ++ rest) = .ok (a, rest)

theorem IsQuoted.opens (h : IsQuoted t s) : ∃ b u, t = b :: u ∧ isQuote b = true := by
  obtain ⟨quote, hquote, rfl⟩ := h
  exact ⟨quote, _, rfl, hquote⟩

theorem IsKey.opens {key : Text} (h : IsKey t key) : Opens t := by
  rcases h with hquoted | ⟨hword, -⟩
  · obtain ⟨b, u, rfl, hb⟩ := hquoted.opens
    exact ⟨b, u, rfl, by simp [opensTag, hb]⟩
  · obtain ⟨b, u, rfl⟩ := List.exists_cons_of_ne_nil hword.1
    exact ⟨b, u, rfl, by simp [opensTag, hword.2 b List.mem_cons_self]⟩

theorem Entry.opens {R : Text → Nbt → Prop} (h : Entry R t e) : Opens t := by
  obtain ⟨hkey, -, -, -⟩ := h
  obtain ⟨b, u, rfl, hb⟩ := hkey.opens
  exact ⟨b, _, rfl, hb⟩

theorem Denotes.opens (h : Denotes t v) : Opens t := by
  cases h with
  | compound h => exact ⟨_, _, rfl, rfl⟩
  | list h => exact ⟨_, _, rfl, rfl⟩
  | array h => exact ⟨_, _, rfl, rfl⟩
  | string h => exact IsKey.opens (.inl h)
  | word h => exact IsKey.opens (.inr ⟨h, rfl⟩)

/-- A word does not begin with a byte of another kind. -/
theorem not_isWord {front u : Text} (h : b :: u = front ++ rest) (hb : isWordByte b = false) :
    ¬ IsWord front := by
  intro hword
  obtain ⟨c, front, rfl⟩ := List.exists_cons_of_ne_nil hword.1
  rw [(List.cons.inj h).1] at hb
  cases hb.symm.trans (hword.2 c List.mem_cons_self)

/-- What follows an item ends a word: a blank, a comma or the closing bracket. -/
theorem wordEnds_blanks {post : Text} (hpost : Blanks post) (hb : isWordByte b = false) :
    WordEnds (post ++ b :: rest) := by
  cases post with
  | nil =>
    intro c hc
    rwa [← Option.some.inj hc]
  | cons c post =>
    intro d hd
    rw [← Option.some.inj hd, hpost c List.mem_cons_self]
    rfl

/-- Blanks before something else are skipped. -/
theorem unblanked_blanks {pre : Text} (hpre : Blanks pre) (hb : b ≠ Text.blank) :
    unblanked (pre ++ b :: rest) = b :: rest :=
  unblanked_append hpre (head?_ne_blank rfl hb)

/-! ### Reading items -/

section Items

variable {close : UInt8} {R : Text → α → Prop} {item : Scan α} {unclosed expected : Cause}
  {as : List α}

/-- Items that are read follow the rules if each of them does. -/
theorem items_of_separated (hclose : close ≠ 0x2c) (hitem : ReadsOnly item R) :
    ReadsOnly (separated item close unclosed expected n) (Items close R) := by
  -- On the bound of the reader, which has one round for each item.
  induction n with
  | zero =>
    intro t as rest h
    cases h
  | succ n ih =>
    intro t as rest h
    obtain ⟨a, mid, hfirst, hcase⟩ := (separated_succ_eq_ok_iff hclose).mp h
    obtain ⟨pre, ht, hpre, -⟩ := exists_blanks t
    obtain ⟨post, hmid, hpost, -⟩ := exists_blanks mid
    obtain ⟨u, hu, hR⟩ := hitem _ _ _ hfirst
    rcases hcase with ⟨after, others, hcomma, hothers, rfl⟩ | ⟨hend, rfl⟩
    · obtain ⟨front, rfl, hfront⟩ := ih _ _ _ hothers
      refine ⟨_, ?_, .more hpre hR hpost hfront⟩
      rw [ht, hu, hmid, hcomma]
      simp
    · refine ⟨_, ?_, .last hpre hR hpost⟩
      rw [ht, hu, hmid, hend]
      simp

theorem bracketed_of_read (hclose : close ≠ 0x2c) (hitem : ReadsOnly item R) :
    ReadsOnly (bracketed item close unclosed expected) (Bracketed close R) := by
  intro t as rest h
  rcases bracketed_eq_ok_iff.mp h with ⟨hend, rfl⟩ | ⟨-, hseparated⟩
  · obtain ⟨pre, ht, hpre, -⟩ := exists_blanks t
    refine ⟨_, ?_, .empty hpre⟩
    rw [ht, hend]
    simp
  · rw [separated_unblanked] at hseparated
    obtain ⟨front, ht, hfront⟩ := items_of_separated hclose hitem _ _ _ hseparated
    exact ⟨front, ht, .items hfront⟩

/-- The first item and what stands around it. -/
theorem Items.exists_first (h : Items close R t as) :
    ∃ pre u post b after a, t = pre ++ (u ++ (post ++ b :: after)) ∧ Blanks pre ∧ R u a ∧
      Blanks post ∧ (b = close ∨ b = 0x2c) := by
  cases h with
  | last hpre hR hpost => exact ⟨_, _, _, close, [], _, rfl, hpre, hR, hpost, .inl rfl⟩
  | more hpre hR hpost hrest => exact ⟨_, _, _, 0x2c, _, _, rfl, hpre, hR, hpost, .inr rfl⟩

section

variable {N : Nat} (hclose : IsCloser close) (hopens : ∀ t a, R t a → Opens t)
include hopens

/-- Items without the blanks at their front. -/
theorem Items.exists_start (h : Items close R t as) :
    ∃ pre b u, t = pre ++ b :: u ∧ Blanks pre ∧ opensTag b = true ∧ Items close R (b :: u) as := by
  have hnone : Blanks [] := fun _ hb => absurd hb List.not_mem_nil
  cases h with
  | last hpre hR hpost =>
    obtain ⟨b, u, rfl, hb⟩ := hopens _ _ hR
    exact ⟨_, b, _, rfl, hpre, hb, .last hnone hR hpost⟩
  | more hpre hR hpost hrest =>
    obtain ⟨b, u, rfl, hb⟩ := hopens _ _ hR
    exact ⟨_, b, _, rfl, hpre, hb, .more hnone hR hpost hrest⟩

variable (hitem : ReadsAll N item R)
include hclose hitem

/-- Items that follow the rules are read if each of them is. -/
theorem separated_of_items (h : Items close R t as) (hN : t.length ≤ N) (hn : t.length ≤ n)
    (rest : Text) : separated item close unclosed expected n (t ++ rest) = .ok (as, rest) := by
  have hends : isWordByte close = false := by rcases hclose with rfl | rfl <;> decide
  -- One item: what follows it, a comma or the bracket, ends a word.
  have hfirst : ∀ {pre t post after : Text} {b : UInt8} {a : α}, Blanks pre → R t a → t.length ≤ N →
      Blanks post → isWordByte b = false →
        item (unblanked (pre ++ (t ++ (post ++ b :: after)))) = .ok (a, post ++ b :: after) := by
    intro pre t post after b a hpre hR hlength hpost hb
    have hskip : unblanked (pre ++ (t ++ (post ++ b :: after))) = t ++ (post ++ b :: after) := by
      obtain ⟨c, u, rfl, hc⟩ := hopens t a hR
      exact unblanked_blanks hpre (ne_of_class hc (by decide))
    rw [hskip]
    exact hitem t a _ hR hlength (wordEnds_blanks hpost hb)
  induction h generalizing n with
  | @last pre t post a hpre hR hpost =>
    cases n with
    | zero => simp at hn
    | succ n =>
      simp only [List.length_append] at hN
      simp only [List.append_assoc, List.singleton_append]
      refine (separated_succ_eq_ok_iff hclose.ne_comma).mpr ⟨a, post ++ close :: rest, ?_,
        .inr ⟨?_, rfl⟩⟩
      · exact hfirst hpre hR (by omega) hpost hends
      · exact unblanked_blanks hpost hclose.ne_blank
  | @more pre t post others a as hpre hR hpost hothers ih =>
    cases n with
    | zero => simp at hn
    | succ n =>
      simp only [List.length_append, List.length_cons] at hN hn
      simp only [List.append_assoc, List.cons_append]
      refine (separated_succ_eq_ok_iff hclose.ne_comma).mpr
        ⟨a, post ++ 0x2c :: (others ++ rest), ?_, .inl ⟨others ++ rest, as, ?_, ?_, rfl⟩⟩
      · exact hfirst hpre hR (by omega) hpost (by decide)
      · exact unblanked_blanks hpost (by decide)
      · exact ih (by omega) (by omega)

theorem read_of_bracketed (h : Bracketed close R t as) (hN : t.length ≤ N) (rest : Text) :
    bracketed item close unclosed expected (t ++ rest) = .ok (as, rest) := by
  cases h with
  | @empty pre hpre =>
    refine bracketed_eq_ok_iff.mpr (.inl ⟨?_, rfl⟩)
    rw [List.append_assoc]
    exact unblanked_blanks hpre hclose.ne_blank
  | items h =>
    obtain ⟨pre, b, u, rfl, hpre, hb, hstart⟩ := h.exists_start hopens
    have hskip : unblanked (pre ++ b :: u ++ rest) = b :: u ++ rest := by
      rw [List.append_assoc]
      exact unblanked_blanks hpre (ne_of_class hb (by decide))
    -- The first item does not begin with the closing bracket.
    have hne : b ≠ close := by rcases hclose with rfl | rfl <;> exact ne_of_class hb (by decide)
    rw [List.length_append] at hN
    refine bracketed_eq_ok_iff.mpr (.inr ⟨?_, ?_⟩)
    · rw [hskip]
      exact fun hhead => hne (Option.some.inj hhead)
    · rw [hskip]
      refine separated_of_items hclose hopens hitem hstart (by omega) ?_ rest
      rw [List.length_append]
      omega

end

end Items

/-! ### Strings and keys -/

theorem of_map_cons_eq_ok {x : Except Failure (Text × Text)}
    (h : (x.map fun r => (b :: r.1, r.2)) = .ok (s, rest)) :
    ∃ s', x = .ok (s', rest) ∧ s = b :: s' := by
  cases x with
  | error failure => cases h
  | ok r =>
    cases h
    exact ⟨_, rfl, rfl⟩

/-- What is read between quotes stands there with its escapes. -/
theorem eq_escaped_of_quotedBody {quote : UInt8} (h : quotedBody quote t = .ok (s, rest)) :
    t = s.escaped quote ++ quote :: rest := by
  fun_induction quotedBody quote t generalizing s with
  | case1 => cases h
  | case2 b t hend =>
    cases h
    rw [eq_of_beq hend]
    rfl
  | case3 => cases h
  | case4 b hend hbackslash c t hescape ih =>
    have hc : c = 0x5c ∨ c = quote := by simpa [or_comm] using hescape
    obtain ⟨s', hs', rfl⟩ := of_map_cons_eq_ok h
    rw [Text.escaped_cons_pos hc, ih hs', eq_of_beq hbackslash]
    rfl
  | case5 => cases h
  | case6 b t hend hbackslash ih =>
    have hb : ¬ (b = 0x5c ∨ b = quote) := by simpa [or_comm] using And.intro hend hbackslash
    obtain ⟨s', hs', rfl⟩ := of_map_cons_eq_ok h
    rw [Text.escaped_cons_neg hb, ih hs']
    rfl

theorem quotedString_eq_ok_iff :
    quotedString t = .ok (s, rest) ↔ ∃ front, t = front ++ rest ∧ IsQuoted front s := by
  constructor
  · intro h
    cases t with
    | nil => cases h
    | cons quote t =>
      rw [quotedString] at h
      split at h
      · next hquote =>
        refine ⟨_, ?_, quote, hquote, rfl⟩
        rw [eq_escaped_of_quotedBody h]
        simp
      · cases h
  · rintro ⟨front, rfl, quote, hquote, rfl⟩
    have hbackslash : quote ≠ 0x5c := ne_of_class hquote (by decide)
    rw [List.cons_append, quotedString, if_pos hquote, List.append_assoc]
    exact quotedBody_escaped hbackslash s rest

theorem word_eq_ok_iff {w : Text} :
    word t = .ok (w, rest) ↔ t = w ++ rest ∧ (∀ b ∈ w, isWordByte b = true) ∧ WordEnds rest :=
  spanOf_eq_ok_iff

/-- A key that is read, and the longest one if it is a word. -/
theorem phrase?_eq_some_iff {key : Text} :
    phrase? t = .ok (some key, rest) ↔
      ∃ front, t = front ++ rest ∧ IsKey front key ∧ (IsWord front → WordEnds rest) := by
  have hpeek : peek? t = .ok (t.head?, t) := rfl
  rw [phrase?, bind_eq hpeek]
  -- The first byte tells a quoted key from a word, in the reader and in the rules.
  by_cases hquote : t.head?.any isQuote = true
  · rw [if_pos hquote]
    constructor
    · intro h
      obtain ⟨s, mid, hs, h⟩ := of_bind_eq_ok h
      obtain ⟨hkey, rfl⟩ := Prod.mk.inj (Except.ok.inj h)
      cases hkey
      obtain ⟨front, rfl, hfront⟩ := quotedString_eq_ok_iff.mp hs
      obtain ⟨b, u, rfl, hb⟩ := hfront.opens
      refine ⟨_, rfl, .inl hfront, fun hword => ?_⟩
      cases hb.symm.trans (isQuote_of_isWordByte (hword.2 b List.mem_cons_self))
    · rintro ⟨front, rfl, hquoted | ⟨hword, -⟩, -⟩
      · rw [bind_eq (quotedString_eq_ok_iff.mpr ⟨front, rfl, hquoted⟩)]
        rfl
      · obtain ⟨b, hhead, hb⟩ := hword.exists_head rest
        rw [hhead] at hquote
        cases (isQuote_of_isWordByte hb).symm.trans hquote
  · rw [if_neg hquote]
    constructor
    · intro h
      obtain ⟨w, mid, hw, h⟩ := of_bind_eq_ok h
      obtain ⟨hkey, rfl⟩ := Prod.mk.inj (Except.ok.inj h)
      obtain ⟨rfl, hbytes, hends⟩ := word_eq_ok_iff.mp hw
      cases w with
      | nil => cases hkey
      | cons b w =>
        cases hkey
        exact ⟨_, rfl, .inr ⟨⟨List.cons_ne_nil _ _, hbytes⟩, rfl⟩, fun _ => hends⟩
    · rintro ⟨front, rfl, hquoted | ⟨hword, rfl⟩, hends⟩
      · obtain ⟨b, u, rfl, hb⟩ := hquoted.opens
        exact absurd hb hquote
      · rw [bind_eq (word_eq_ok_iff.mpr ⟨rfl, hword.2, hends hword⟩)]
        cases front with
        | nil => exact absurd rfl hword.1
        | cons b w => rfl

/-! ### Entries -/

section Entries

variable {value : Scan Nbt} {R : Text → Nbt → Prop}

theorem nbtEntry_eq_ok_iff :
    nbtEntry value t = .ok (e, rest) ↔
      ∃ mid after, phrase? t = .ok (some e.1, mid) ∧ unblanked mid = 0x3a :: after ∧
        value (unblanked after) = .ok (e.2, rest) := by
  have hskip : ∀ u, skipBlanks u = .ok ((), unblanked u) := fun u => rfl
  constructor
  · intro h
    obtain ⟨key, mid, hkey, h⟩ := of_bind_eq_ok h
    cases key with
    | none => cases h
    | some key =>
      dsimp only at h
      rw [bind_eq (hskip mid)] at h
      obtain ⟨_, after, hcolon, h⟩ := of_bind_eq_ok h
      rw [bind_eq (hskip after)] at h
      obtain ⟨v, last, hv, h⟩ := of_bind_eq_ok h
      cases h
      exact ⟨mid, after, hkey, eq_cons_of_require hcolon, hv⟩
  · rintro ⟨mid, after, hkey, hcolon, hv⟩
    have hrequire : require ':' (.missingByte ':') (0x3a :: after) = .ok ((), after) :=
      require_same 0x3a _ after
    rw [nbtEntry, bind_eq hkey]
    dsimp only
    rw [bind_eq (hskip mid), hcolon, bind_eq hrequire, bind_eq (hskip after), bind_eq hv]
    rfl

theorem entry_of_nbtEntry (hvalue : ReadsOnly value R) : ReadsOnly (nbtEntry value) (Entry R) := by
  intro t e rest h
  obtain ⟨mid, after, hkey, hcolon, hv⟩ := nbtEntry_eq_ok_iff.mp h
  obtain ⟨k, rfl, hk, -⟩ := phrase?_eq_some_iff.mp hkey
  obtain ⟨pre, hmid, hpre, -⟩ := exists_blanks mid
  obtain ⟨post, hafter, hpost, -⟩ := exists_blanks after
  obtain ⟨front, hfront, hR⟩ := hvalue _ _ _ hv
  refine ⟨_, ?_, .mk hk hpre hpost hR⟩
  rw [hmid, hcolon, hafter, hfront]
  simp

theorem nbtEntry_of_entry {N : Nat} (hopens : ∀ t v, R t v → Opens t)
    (hvalue : ReadsAll N value R) : ReadsAll N (nbtEntry value) (Entry R) := by
  intro t e rest h hN hrest
  cases h with
  | @mk k key pre post t v hkey hpre hpost hR =>
    simp only [List.length_append, List.length_cons] at hN
    have hread : value (unblanked (post ++ (t ++ rest))) = .ok (v, rest) := by
      have hskip : unblanked (post ++ (t ++ rest)) = t ++ rest := by
        obtain ⟨b, u, rfl, hb⟩ := hopens t v hR
        exact unblanked_blanks hpost (ne_of_class hb (by decide))
      rw [hskip]
      exact hvalue t v rest hR (by omega) hrest
    refine nbtEntry_eq_ok_iff.mpr ⟨pre ++ 0x3a :: (post ++ (t ++ rest)), post ++ (t ++ rest), ?_,
      ?_, hread⟩
    · exact phrase?_eq_some_iff.mpr ⟨k, by simp, hkey, fun _ => wordEnds_blanks hpre (by decide)⟩
    · exact unblanked_blanks hpre (by decide)

end Entries

/-! ### Arrays -/

theorem nbtNumbers?_eq_some_iff {items : List Nbt} {numbers : List NbtNumber} :
    nbtNumbers? items = some numbers ↔ items = numbers.map .number := by
  induction items generalizing numbers with
  | nil => cases numbers <;> simp [nbtNumbers?]
  | cons item items ih =>
    cases item with
    | number n =>
      have hcons : nbtNumbers? (.number n :: items) = (nbtNumbers? items).map (n :: ·) := by
        rw [nbtNumbers?, List.mapM_cons]
        show (nbtNumbers? items >>= fun numbers => pure (n :: numbers)) = _
        cases nbtNumbers? items <;> rfl
      rw [hcons, Option.map_eq_some_iff]
      cases numbers with
      | nil => simp
      | cons m numbers => simp [ih, and_comm]
    | _ => cases numbers <;> simp [nbtNumbers?]

/-- A tag that begins with a byte of words is one. -/
theorem Denotes.isWord {u : Text} (h : Denotes (b :: u) v) (hb : isWordByte b = true) :
    IsWord (b :: u) := by
  cases h with
  | compound h => cases hb
  | list h => cases hb
  | array h => cases hb
  | string h =>
    obtain ⟨quote, hquote, heq⟩ := h
    rw [(List.cons.inj heq).1] at hb
    cases hquote.symm.trans (isQuote_of_isWordByte hb)
  | word h => exact h

/-- What a list holds does not look like the header of an array. -/
theorem nbtArrayHeader?_of_bracketed {items : List Nbt} (h : Bracketed 0x5d Denotes t items)
    (rest : Text) : nbtArrayHeader? (0x5b :: (t ++ rest)) = none := by
  refine Option.eq_none_iff_forall_ne_some.mpr fun ⟨type, body⟩ hheader => ?_
  obtain ⟨-, heq⟩ := List.cons.inj (nbtArrayHeader?_eq_some_iff.mp hheader)
  have hletter : isWordByte type.letter = true := by cases type <;> decide
  have hblank : type.letter ≠ Text.blank := ne_of_class hletter (by decide)
  cases h with
  | @empty pre hpre =>
    cases pre with
    | nil => exact ne_of_class hletter (by decide) (List.cons.inj heq).1.symm
    | cons b pre => exact hblank ((List.cons.inj heq).1.symm.trans (hpre b List.mem_cons_self))
  | items h =>
    obtain ⟨pre, u, post, b, after, v, rfl, hpre, hdenotes, hpost, hb⟩ := h.exists_first
    cases pre with
    | cons b pre => exact hblank ((List.cons.inj heq).1.symm.trans (hpre b List.mem_cons_self))
    | nil =>
      obtain ⟨c, u, rfl, -⟩ := hdenotes.opens
      obtain ⟨rfl, hsecond⟩ := List.cons.inj heq
      -- The letter begins a word, and a semicolon neither belongs to it nor follows it.
      have hword := hdenotes.isWord hletter
      cases u with
      | cons d u => exact ne_of_class (hword.2 d (by simp)) (by decide) (List.cons.inj hsecond).1
      | nil =>
        cases post with
        | cons d post => cases (hpost d List.mem_cons_self).symm.trans (List.cons.inj hsecond).1
        | nil =>
          obtain ⟨rfl, -⟩ := List.cons.inj hsecond
          rcases hb with hb | hb <;> cases hb

/-! ### Reading tags -/

theorem nbtPrimitiveTag_eq_ok_iff :
    nbtPrimitiveTag t = .ok (v, rest) ↔ ∃ w, t = w ++ rest ∧ IsWord w ∧ WordEnds rest ∧
    v = nbtPrimitive w := by
  constructor
  · intro h
    obtain ⟨w, mid, hw, h⟩ := of_bind_eq_ok h
    cases w with
    | nil => cases h
    | cons b w =>
      cases h
      obtain ⟨rfl, hbytes, hends⟩ := word_eq_ok_iff.mp hw
      exact ⟨_, rfl, ⟨List.cons_ne_nil _ _, hbytes⟩, hends, rfl⟩
  · rintro ⟨w, rfl, hw, hends, rfl⟩
    rw [nbtPrimitiveTag, bind_eq (word_eq_ok_iff.mpr ⟨rfl, hw.2, hends⟩)]
    cases w with
    | nil => exact absurd rfl hw.1
    | cons b w => rfl

theorem compound_of_nbtCompoundOf {value : Scan Nbt} (hvalue : ReadsOnly value Denotes) :
    ReadsOnly (nbtCompoundOf value) fun t entries => Denotes t (.compound entries) := by
  intro t entries rest h
  obtain ⟨_, mid, hopen, hentries⟩ := of_bind_eq_ok h
  obtain rfl := eq_cons_of_require hopen
  obtain ⟨front, rfl, hfront⟩ :=
    bracketed_of_read (by decide) (entry_of_nbtEntry hvalue) _ _ _ hentries
  exact ⟨_, rfl, .compound hfront⟩

/-- A list, or an array if the header of one is there. -/
theorem denotes_of_bracket (hvalue : ReadsOnly (nbtTagWithin n) Denotes) {u : Text}
    (h : nbtTagWithin (n + 1) (0x5b :: u) = .ok (v, rest)) :
    ∃ front, 0x5b :: u = front ++ rest ∧ Denotes front v := by
  cases hheader : nbtArrayHeader? (0x5b :: u) with
  | some header =>
    obtain ⟨type, body⟩ := header
    obtain ⟨items, numbers, hitems, hnumbers, rfl⟩ := (nbtTagWithin_array_eq_ok_iff hheader).mp h
    obtain rfl := nbtNumbers?_eq_some_iff.mp hnumbers
    obtain ⟨front, rfl, hfront⟩ := bracketed_of_read (by decide) hvalue _ _ _ hitems
    exact ⟨_, nbtArrayHeader?_eq_some_iff.mp hheader, .array hfront⟩
  | none =>
    rw [nbtTagWithin_list hheader] at h
    obtain ⟨items, mid, hitems, h⟩ := of_bind_eq_ok h
    cases h
    obtain ⟨front, rfl, hfront⟩ := bracketed_of_read (by decide) hvalue _ _ _ hitems
    exact ⟨_, rfl, .list hfront⟩

/-- What is read is denoted by the text that it takes. -/
theorem denotes_of_nbtTagWithin (h : nbtTagWithin n t = .ok (v, rest)) :
    ∃ front, t = front ++ rest ∧ Denotes front v ∧ (IsWord front → WordEnds rest) := by
  -- On the bound of the depth.  Where a tag stands in another, what ends it is said by the brackets
  -- around it.
  induction n generalizing t v rest with
  | zero => cases h
  | succ n ih =>
    have hvalue : ReadsOnly (nbtTagWithin n) Denotes := by
      intro t v rest hok
      obtain ⟨front, ht, hfront, -⟩ := ih hok
      exact ⟨front, ht, hfront⟩
    cases t with
    | nil => cases h
    | cons b u =>
      by_cases hbrace : b = 0x7b
      · subst hbrace
        rw [nbtTagWithin_compound] at h
        obtain ⟨entries, mid, hentries, h⟩ := of_bind_eq_ok h
        cases h
        obtain ⟨front, ht, hfront⟩ := compound_of_nbtCompoundOf hvalue _ _ _ hentries
        exact ⟨front, ht, hfront, fun hword => absurd hword (not_isWord ht rfl)⟩
      by_cases hbracket : b = 0x5b
      · subst hbracket
        obtain ⟨front, ht, hfront⟩ := denotes_of_bracket hvalue h
        exact ⟨front, ht, hfront, fun hword => absurd hword (not_isWord ht rfl)⟩
      cases hquote : isQuote b with
      | true =>
        rw [nbtTagWithin_string hquote] at h
        obtain ⟨s, mid, hs, h⟩ := of_bind_eq_ok h
        cases h
        obtain ⟨front, ht, hfront⟩ := quotedString_eq_ok_iff.mp hs
        have hb : isWordByte b = false := by
          by_contra hword
          cases (isQuote_of_isWordByte (Bool.not_eq_false _ ▸ hword)).symm.trans hquote
        exact ⟨front, ht, .string hfront, fun hword => absurd hword (not_isWord ht hb)⟩
      | false =>
        rw [nbtTagWithin_primitive hbrace hbracket hquote] at h
        obtain ⟨w, ht, hword, hends, rfl⟩ := nbtPrimitiveTag_eq_ok_iff.mp h
        exact ⟨w, ht, .word hword, fun _ => hends⟩

theorem nbtCompoundOf_of_bracketed {value : Scan Nbt} {N : Nat} (hvalue : ReadsAll N value Denotes)
    (h : Bracketed 0x7d (Entry Denotes) t entries) (hN : t.length ≤ N) (rest : Text) :
    nbtCompoundOf value (0x7b :: (t ++ rest)) = .ok (entries, rest) := by
  have hopen : require '\x7b' (.missingByte '\x7b') (0x7b :: (t ++ rest)) = .ok ((), t ++ rest) :=
    require_same 0x7b _ _
  have hentry := nbtEntry_of_entry (fun _ _ => Denotes.opens) hvalue
  rw [nbtCompoundOf, bind_eq hopen]
  exact read_of_bracketed (.inr rfl) (fun _ _ => Entry.opens) hentry h hN rest

/-- A text that denotes a tag is read as that tag, if a word is taken as a whole. -/
theorem nbtTagWithin_of_denotes (h : Denotes t v) (hn : t.length ≤ n)
    (hrest : IsWord t → WordEnds rest) : nbtTagWithin n (t ++ rest) = .ok (v, rest) := by
  -- On the length: the rules have tags below brackets and entries, where their own induction does
  -- not reach.
  induction n generalizing t v rest with
  | zero =>
    obtain ⟨b, u, rfl, -⟩ := h.opens
    simp at hn
  | succ n ih =>
    have hvalue : ReadsAll n (nbtTagWithin n) Denotes :=
      fun t v rest hdenotes hlength hends => ih hdenotes hlength fun _ => hends
    cases h with
    | @compound t entries hentries =>
      have hread := nbtCompoundOf_of_bracketed hvalue hentries (by simpa using hn) rest
      rw [List.cons_append, nbtTagWithin_compound, bind_eq hread]
      rfl
    | @list t items hitems =>
      have hheader := nbtArrayHeader?_of_bracketed hitems rest
      have hread : nbtElements (nbtTagWithin n) (t ++ rest) = .ok (items, rest) :=
        read_of_bracketed (.inl rfl) (fun _ _ => Denotes.opens) hvalue hitems
          (by simpa using hn) rest
      rw [List.cons_append, nbtTagWithin_list hheader, bind_eq hread]
      rfl
    | @array type t items hitems =>
      have hlength : t.length ≤ n := by
        simp only [List.length_cons] at hn
        omega
      have hheader := nbtArrayHeader?_eq_some_iff.mpr
        (rfl : 0x5b :: type.letter :: 0x3b :: (t ++ rest) = _)
      have hread : nbtElements (nbtTagWithin n) (t ++ rest) = .ok (items.map .number, rest) :=
        read_of_bracketed (.inl rfl) (fun _ _ => Denotes.opens) hvalue hitems hlength rest
      exact (nbtTagWithin_array_eq_ok_iff hheader).mpr ⟨_, items, hread,
        nbtNumbers?_eq_some_iff.mpr rfl, rfl⟩
    | @string _ s hquoted =>
      obtain ⟨b, u, rfl, hb⟩ := hquoted.opens
      have hread : quotedString (b :: (u ++ rest)) = .ok (s, rest) :=
        quotedString_eq_ok_iff.mpr ⟨_, rfl, hquoted⟩
      rw [List.cons_append, nbtTagWithin_string hb, bind_eq hread]
      rfl
    | word hword =>
      obtain ⟨b, u, rfl⟩ := List.exists_cons_of_ne_nil hword.1
      have hb := hword.2 b List.mem_cons_self
      rw [List.cons_append, nbtTagWithin_primitive (ne_of_class hb (by decide))
        (ne_of_class hb (by decide)) (isQuote_of_isWordByte hb)]
      exact nbtPrimitiveTag_eq_ok_iff.mpr ⟨_, rfl, hword, hrest hword, rfl⟩

/-- A word is a number or itself. -/
theorem nbtPrimitive_cases (w : Text) :
    nbtPrimitive w = .string w ∨ ∃ n, nbtPrimitive w = .number n := by
  unfold nbtPrimitive
  grind

theorem Denotes.of_compound (h : Denotes t (.compound entries)) :
    ∃ u, t = 0x7b :: u ∧ Bracketed 0x7d (Entry Denotes) u entries := by
  -- A word has a value that is computed, so the cases are not told apart by their form.
  generalize hv : Nbt.compound entries = v at h
  cases h with
  | compound h =>
    cases hv
    exact ⟨_, rfl, h⟩
  | word h =>
    rcases nbtPrimitive_cases t with hprimitive | ⟨n, hprimitive⟩
    · cases hv.trans hprimitive
    · cases hv.trans hprimitive
  | _ => cases hv

/-! ### Brackets and commas -/

/-- Where a byte stands: outside of strings, perhaps behind a comma, in a string, or behind a
    backslash in one. -/
inductive Spot where
  | outside (afterComma : Bool)
  | quoted (quote : UInt8)
  | escape (quote : UInt8)
deriving DecidableEq

/-- What is open at a place of a text: what will close the brackets, innermost first, and where the
    place is. -/
structure Nesting where
  closers : List UInt8
  spot : Spot
deriving DecidableEq

/-- The nesting behind a byte.  A bracket must be closed by its own, and not behind a comma; blanks
    do not count. -/
def Nesting.step (s : Nesting) (b : UInt8) : Option Nesting :=
  match s.spot with
  | .quoted quote =>
    some ⟨s.closers, if b == quote then .outside false else if b == 0x5c then .escape quote
      else .quoted quote⟩
  | .escape quote => some ⟨s.closers, .quoted quote⟩
  | .outside afterComma =>
    if b == Text.blank then some s
    else if isQuote b then some ⟨s.closers, .quoted b⟩
    else if b == 0x7b then some ⟨0x7d :: s.closers, .outside false⟩
    else if b == 0x5b then some ⟨0x5d :: s.closers, .outside false⟩
    else if b == 0x2c then if afterComma then none else some ⟨s.closers, .outside true⟩
    else if b == 0x7d || b == 0x5d then
      if afterComma || s.closers.head? != some b then none
        else some ⟨s.closers.tail, .outside false⟩
    else some ⟨s.closers, .outside false⟩

/-- The nesting behind a text. -/
def Nesting.run (s : Nesting) (t : Text) : Option Nesting := t.foldlM Nesting.step s

/-- Every bracket outside of strings is closed by its own, and none behind a comma. -/
def WellNested (t : Text) : Prop := Nesting.run ⟨[], .outside false⟩ t = some ⟨[], .outside false⟩

instance (t : Text) : Decidable (WellNested t) := inferInstanceAs (Decidable (_ = _))

/-- A text that leaves the nesting as it is, wherever it stands outside of strings. -/
def Neutral (t : Text) : Prop :=
  ∀ closers afterComma, Nesting.run ⟨closers, .outside afterComma⟩ t =
    some ⟨closers, .outside false⟩

theorem Nesting.run_append (s : Nesting) (t u : Text) : s.run (t ++ u) =
    s.run t >>= fun s' => s'.run u :=
  List.foldlM_append

theorem Nesting.run_cons (s : Nesting) (b : UInt8) (t : Text) :
    s.run (b :: t) = s.step b >>= fun s' => s'.run t :=
  List.foldlM_cons

theorem run_blanks (h : Blanks t) (closers : List UInt8) (afterComma : Bool) :
    Nesting.run ⟨closers, .outside afterComma⟩ t = some ⟨closers, .outside afterComma⟩ := by
  induction t with
  | nil => rfl
  | cons b t ih =>
    obtain rfl := h b List.mem_cons_self
    rw [Nesting.run_cons]
    exact ih fun b hb => h b (List.mem_cons_of_mem _ hb)

theorem step_word (hb : isWordByte b = true) (closers : List UInt8) (afterComma : Bool) :
    Nesting.step ⟨closers, .outside afterComma⟩ b = some ⟨closers, .outside false⟩ := by
  have hblank : b ≠ Text.blank := ne_of_class hb (by decide)
  have hbrace : b ≠ 0x7b := ne_of_class hb (by decide)
  have hbracket : b ≠ 0x5b := ne_of_class hb (by decide)
  have hcomma : b ≠ 0x2c := ne_of_class hb (by decide)
  have hcloseBrace : b ≠ 0x7d := ne_of_class hb (by decide)
  have hcloseBracket : b ≠ 0x5d := ne_of_class hb (by decide)
  simp [Nesting.step, isQuote_of_isWordByte hb, hblank, hbrace, hbracket, hcomma, hcloseBrace,
    hcloseBracket]

theorem neutral_word {w : Text} (h : IsWord w) : Neutral w := by
  obtain ⟨hne, hbytes⟩ := h
  induction w with
  | nil => exact absurd rfl hne
  | cons b w ih =>
    intro closers afterComma
    rw [Nesting.run_cons, step_word (hbytes b List.mem_cons_self)]
    by_cases hw : w = []
    · subst hw
      rfl
    · exact ih hw (fun c hc => hbytes c (List.mem_cons_of_mem _ hc)) closers false

theorem run_escaped {quote : UInt8} (hquote : quote ≠ 0x5c) (s : Text) (closers : List UInt8) :
    Nesting.run ⟨closers, .quoted quote⟩ (s.escaped quote) = some ⟨closers, .quoted quote⟩ := by
  induction s with
  | nil => rfl
  | cons b s ih =>
    by_cases hb : b = 0x5c ∨ b = quote
    · rw [Text.escaped_cons_pos hb, Nesting.run_cons]
      have hstep : Nesting.step ⟨closers, .quoted quote⟩ 0x5c = some ⟨closers, .escape quote⟩ := by
        simp [Nesting.step, hquote.symm]
      rw [hstep]
      exact ih
    · rw [Text.escaped_cons_neg hb, Nesting.run_cons]
      have hstep : Nesting.step ⟨closers, .quoted quote⟩ b = some ⟨closers, .quoted quote⟩ := by
        simp [Nesting.step, not_or.mp hb]
      rw [hstep]
      exact ih

theorem neutral_quoted (h : IsQuoted t s) : Neutral t := by
  obtain ⟨quote, hquote, rfl⟩ := h
  intro closers afterComma
  have hblank : quote ≠ Text.blank := ne_of_class hquote (by decide)
  have hbackslash : quote ≠ 0x5c := ne_of_class hquote (by decide)
  have hopen : Nesting.step ⟨closers, .outside afterComma⟩ quote =
      some ⟨closers, .quoted quote⟩ := by
    simp [Nesting.step, hblank, hquote]
  rw [Nesting.run_cons, hopen]
  show Nesting.run ⟨closers, .quoted quote⟩ (s.escaped quote ++ [quote]) = _
  rw [Nesting.run_append, run_escaped hbackslash]
  show Nesting.step ⟨closers, .quoted quote⟩ quote >>= pure = _
  simp [Nesting.step]

section

variable {close : UInt8} {R : Text → α → Prop} {N : Nat} {as : List α}
  (hclose : IsCloser close) (hR : ∀ t a, R t a → t.length ≤ N → Neutral t)
include hclose

theorem step_close (closers : List UInt8) :
    Nesting.step ⟨close :: closers, .outside false⟩ close = some ⟨closers, .outside false⟩ := by
  rcases hclose with rfl | rfl <;> rfl

include hR

/-- Items close the bracket before them. -/
theorem Items.run (h : Items close R t as) (hN : t.length ≤ N) (closers : List UInt8)
    (afterComma : Bool) :
    Nesting.run ⟨close :: closers, .outside afterComma⟩ t = some ⟨closers, .outside false⟩ := by
  -- An item takes away the comma before it, if there is one.
  have hfirst : ∀ {pre t post rest : Text} {a : α} (afterComma : Bool), Blanks pre → R t a →
      t.length ≤ N → Blanks post → Nesting.run ⟨close :: closers, .outside afterComma⟩
        (pre ++ (t ++ (post ++ rest))) =
        Nesting.run ⟨close :: closers, .outside false⟩ rest := by
    intro pre t post rest a afterComma hpre hitem hlength hpost
    rw [Nesting.run_append, run_blanks hpre]
    show Nesting.run _ (t ++ (post ++ rest)) = _
    rw [Nesting.run_append, hR t a hitem hlength]
    show Nesting.run _ (post ++ rest) = _
    rw [Nesting.run_append, run_blanks hpost]
    rfl
  induction h generalizing afterComma with
  | @last pre t post a hpre hitem hpost =>
    simp only [List.length_append] at hN
    rw [hfirst afterComma hpre hitem (by omega) hpost, Nesting.run_cons, step_close hclose]
    rfl
  | @more pre t post rest a as hpre hitem hpost hrest ih =>
    simp only [List.length_append, List.length_cons] at hN
    rw [hfirst afterComma hpre hitem (by omega) hpost, Nesting.run_cons]
    exact ih (by omega) true

theorem Bracketed.run (h : Bracketed close R t as) (hN : t.length ≤ N) (closers : List UInt8) :
    Nesting.run ⟨close :: closers, .outside false⟩ t = some ⟨closers, .outside false⟩ := by
  cases h with
  | empty hpre =>
    rw [Nesting.run_append, run_blanks hpre]
    show Nesting.run _ [close] = _
    rw [Nesting.run_cons, step_close hclose]
    rfl
  | items h => exact h.run hclose hR hN closers false

end

theorem neutral_entry {R : Text → Nbt → Prop} {N : Nat}
    (hR : ∀ t v, R t v → t.length ≤ N → Neutral t) (h : Entry R t e) (hN : t.length ≤ N) :
    Neutral t := by
  cases h with
  | @mk k key pre post t v hkey hpre hpost hvalue =>
    simp only [List.length_append, List.length_cons] at hN
    have hk : Neutral k := by
      rcases hkey with hquoted | ⟨hword, -⟩
      · exact neutral_quoted hquoted
      · exact neutral_word hword
    intro closers afterComma
    rw [Nesting.run_append, hk]
    show Nesting.run _ (pre ++ 0x3a :: (post ++ t)) = _
    rw [Nesting.run_append, run_blanks hpre]
    show Nesting.run _ (post ++ t) = _
    rw [Nesting.run_append, run_blanks hpost]
    exact hR t v hvalue (by omega) closers false

theorem Denotes.neutral {N : Nat} (h : Denotes t v) (hN : t.length ≤ N) : Neutral t := by
  induction N generalizing t v with
  | zero =>
    obtain ⟨b, u, rfl, -⟩ := h.opens
    simp at hN
  | succ N ih =>
    have hvalue : ∀ t v, Denotes t v → t.length ≤ N → Neutral t := fun _ _ => ih
    cases h with
    | compound hentries =>
      exact fun closers _ =>
        hentries.run (.inr rfl) (fun _ _ => neutral_entry hvalue) (by simpa using hN) closers
    | list hitems => exact fun closers _ => hitems.run (.inl rfl) hvalue (by simpa using hN) closers
    | @array type t items hitems =>
      intro closers afterComma
      have hletter : isWordByte type.letter = true := by cases type <;> decide
      simp only [List.length_cons] at hN
      rw [Nesting.run_cons]
      show Nesting.run ⟨0x5d :: closers, .outside false⟩ (type.letter :: 0x3b :: t) = _
      rw [Nesting.run_cons, step_word hletter]
      exact hitems.run (.inl rfl) hvalue (by omega) closers
    | string hquoted => exact neutral_quoted hquoted
    | word hword => exact neutral_word hword

theorem Denotes.wellNested (h : Denotes t v) : WellNested t := h.neutral (Nat.le_refl _) [] false

example : ¬ WellNested "[1,[2, ]]" ∧ ¬ WellNested "\x7ba:[1\x7d" ∧ WellNested "[\"[,]\"]" := by
  decide +kernel

/-! ### Arguments -/

theorem map_eq_ok_iff {scan : Scan α} {f : α → Value} {v : Value} :
    (do return f (← scan) : Scan Value) t = .ok (v, rest) ↔ ∃ a, v = f a ∧
    scan t = .ok (a, rest) := by
  constructor
  · intro h
    obtain ⟨a, mid, hscan, h⟩ := of_bind_eq_ok h
    cases h
    exact ⟨a, rfl, hscan⟩
  · rintro ⟨a, rfl, hscan⟩
    exact bind_eq hscan _

theorem nbtTag_eq_ok_iff :
    nbtTag t = .ok (v, rest) ↔ ∃ front, t = front ++ rest ∧ Denotes front v ∧
    (IsWord front → WordEnds rest) := by
  rw [nbtTag_eq]
  refine ⟨denotes_of_nbtTagWithin, ?_⟩
  rintro ⟨front, rfl, hfront, hends⟩
  refine nbtTagWithin_of_denotes hfront ?_ hends
  rw [List.length_append]
  omega

theorem nbtCompound_eq_ok_iff :
    nbtCompound t = .ok (entries, rest) ↔ ∃ front, t = front ++ rest ∧
    Denotes front (.compound entries) := by
  rw [nbtCompound_eq]
  constructor
  · intro h
    refine compound_of_nbtCompoundOf (fun t v rest hok => ?_) _ _ _ h
    obtain ⟨front, ht, hfront, -⟩ := denotes_of_nbtTagWithin hok
    exact ⟨front, ht, hfront⟩
  · rintro ⟨front, rfl, hfront⟩
    obtain ⟨u, rfl, hentries⟩ := hfront.of_compound
    refine nbtCompoundOf_of_bracketed (fun _ _ _ hdenotes hlength hends => ?_) hentries
      (Nat.le_refl _) rest
    refine nbtTagWithin_of_denotes hdenotes ?_ fun _ => hends
    simp only [List.length_append, List.length_cons]
    omega

/-- What stands before the rest, by its length. -/
theorem exists_front_iff {input : Text} {P : Text → Prop} :
    (∃ front, input = front ++ input.drop n ∧ P front) ↔ P (input.take n) := by
  constructor
  · rintro ⟨front, hfront, hP⟩
    obtain rfl : input.take n = front :=
      List.append_cancel_right ((List.take_append_drop n input).trans hfront)
    exact hP
  · exact fun hP => ⟨_, (List.take_append_drop n input).symm, hP⟩

end Argument

/-- A tag is found at the front of a text exactly if the text begins with one that denotes it, which
    no byte of a word follows if it is a word.  A text that denotes a tag leaves no bracket open and
    closes none behind a comma. -/
theorem nbt_parse_iff_denotes (input : Text) (n : Nat) :
    (∀ v, Argument.Kind.nbtTag.parse input = .ok (v, n) ↔
        ∃ tag, v = .nbt tag ∧ n ≤ input.length ∧ Argument.Denotes (input.take n) tag ∧
          (Argument.IsWord (input.take n) → ∀ b, (input.drop n).head? = some b →
            Argument.isWordByte b = false)) ∧
      (∀ v, Argument.Kind.nbtCompound.parse input = .ok (v, n) ↔
        ∃ entries, v = .nbt (.compound entries) ∧ n ≤ input.length ∧
          Argument.Denotes (input.take n) (.compound entries)) ∧
      ∀ t tag, Argument.Denotes t tag → Argument.WellNested t := by
  refine ⟨fun v => ?_, fun v => ?_, fun t tag h => h.wellNested⟩
  · rw [Argument.Kind.parse_eq_ok_iff, Argument.Kind.scan, Argument.map_eq_ok_iff]
    simp only [Argument.nbtTag_eq_ok_iff, Argument.exists_front_iff]
    constructor
    · rintro ⟨hle, tag, rfl, hdenotes, hends⟩
      exact ⟨tag, rfl, hle, hdenotes, hends⟩
    · rintro ⟨tag, rfl, hle, hdenotes, hends⟩
      exact ⟨hle, tag, rfl, hdenotes, hends⟩
  · rw [Argument.Kind.parse_eq_ok_iff, Argument.Kind.scan, Argument.map_eq_ok_iff]
    simp only [Argument.nbtCompound_eq_ok_iff, Argument.exists_front_iff]
    constructor
    · rintro ⟨hle, entries, rfl, hdenotes⟩
      exact ⟨entries, rfl, hle, hdenotes⟩
    · rintro ⟨entries, rfl, hle, hdenotes⟩
      exact ⟨hle, _, rfl, hdenotes⟩

end DatapackDebug
