import DatapackDebug.Proofs.Quoting
import DatapackDebug.Proofs.StopReports

namespace DatapackDebug

/-!
# Injected blocks carry their commands

The commands that are injected stand in the data of command blocks: each command in a quoted string,
and the name of its block in a document in a quoted string.  The reader of blocks gives both back.

* `Argument.separated_comma`, `Argument.separated_close` — items between commas, one after the
  other;
* `Argument.nbtEntry_eq`, `Argument.block_eq` — an entry of a compound, and a block with its
  properties and data;
* `escapeName_eq` — a name is quoted twice;
* `block_blockText` — the block of a command, read back;
* `injectionLines_carry` — the column of blocks that is built for some commands.
-/

/-! ### Scans -/

namespace Argument

variable {α : Type} {item : Scan α} {close : UInt8} {unclosed expected : Cause}
  {t rest after : Text} {a : α} {others : List α} {w sep : Text}

/-- An item with a comma behind it, and the items that follow. -/
theorem separated_comma {n : Nat} (ht : t.head? ≠ some Text.blank)
    (hitem : item t = .ok (a, 0x2c :: rest))
    (hothers : separated item close unclosed expected n rest = .ok (others, after)) :
    separated item close unclosed expected (n + 1) t = .ok (a :: others, after) := by
  have hcomma : skipBlanks (0x2c :: rest) = .ok ((), 0x2c :: rest) :=
    skipBlanks_eq (by simp [Text.blank])
  have hpeek : peek? (0x2c :: rest) = .ok (some 0x2c, 0x2c :: rest) := rfl
  rw [separated, bind_eq (skipBlanks_eq ht), bind_eq hitem, bind_eq hcomma, bind_eq hpeek]
  show (accept 0x2c >>= _) (0x2c :: rest) = _
  rw [bind_eq (accept_same ..), if_pos rfl, bind_eq hothers]
  rfl

/-- The last item, with the closing bracket behind it. -/
theorem separated_close {n : Nat} (ht : t.head? ≠ some Text.blank)
    (hitem : item t = .ok (a, close :: rest)) (hblank : close ≠ Text.blank)
    (hcomma : close ≠ 0x2c) :
    separated item close unclosed expected (n + 1) t = .ok ([a], rest) := by
  have hclose : skipBlanks (close :: rest) = .ok ((), close :: rest) :=
    skipBlanks_eq (by simpa using hblank)
  have hpeek : peek? (close :: rest) = .ok (some close, close :: rest) := rfl
  rw [separated, bind_eq (skipBlanks_eq ht), bind_eq hitem, bind_eq hclose, bind_eq hpeek]
  show (accept 0x2c >>= _) (close :: rest) = _
  rw [bind_eq (accept_other hcomma _), if_neg Bool.false_ne_true, bind_eq (require_same ..)]
  rfl

/-- Brackets around items. -/
theorem bracketed_eq {b : UInt8} (hhead : t.head? = some b) (hblank : b ≠ Text.blank)
    (hclose : b ≠ close) :
    bracketed item close unclosed expected t =
      separated item close unclosed expected (t.length + 1) t := by
  obtain ⟨t, rfl⟩ := List.head?_eq_some_iff.mp hhead
  have hskip : skipBlanks (b :: t) = .ok ((), b :: t) := skipBlanks_eq (head?_ne_blank hhead hblank)
  rw [bracketed, bind_eq hskip, bind_eq (accept_other hclose t), if_neg Bool.false_ne_true]
  rfl

/-! ### Words -/

/-- A byte of a class is none that is not of the class. -/
theorem ne_of_class {p : UInt8 → Bool} {b c : UInt8} (hb : p b = true) (hc : p c = false) :
    b ≠ c := by
  rintro rfl
  exact Bool.false_ne_true (hc.symm.trans hb)

theorem isQuote_of_isWordByte {b : UInt8} (h : isWordByte b = true) : isQuote b = false := by
  have hdouble : b ≠ 0x22 := ne_of_class h (by decide)
  have hsingle : b ≠ 0x27 := ne_of_class h (by decide)
  simp [isQuote, hdouble, hsingle]

/-- A word that is not empty. -/
def IsWord (w : Text) : Prop := w ≠ [] ∧ ∀ b ∈ w, isWordByte b = true

instance (w : Text) : Decidable (IsWord w) := inferInstanceAs (Decidable (_ ∧ _))

section

variable (hw : IsWord w) (hsep : sep.head?.map isWordByte = some false) (rest : Text)

include hw hsep

theorem word_eq : word (w ++ (sep ++ rest)) = .ok (w, sep ++ rest) := by
  rw [word, spanOf, Text.takeWhile_field sep rest hw.2 hsep,
    Text.dropWhile_field sep rest hw.2 hsep]

/-- A word up to a byte of another kind. -/
theorem phrase?_word : phrase? (w ++ (sep ++ rest)) = .ok (some w, sep ++ rest) := by
  obtain ⟨b, w, rfl⟩ := List.exists_cons_of_ne_nil hw.1
  have hpeek : peek? (b :: w ++ (sep ++ rest)) = .ok (some b, b :: w ++ (sep ++ rest)) := rfl
  have hquote : ¬ ((some b).any isQuote = true) := by
    simp [isQuote_of_isWordByte (hw.2 b List.mem_cons_self)]
  rw [phrase?, bind_eq hpeek, if_neg hquote, bind_eq (word_eq hw hsep rest)]
  rfl

/-! ### Tags -/

/-- A word as a tag. -/
theorem nbtTagWithin_word (depth : Nat) :
    nbtTagWithin (depth + 1) (w ++ (sep ++ rest)) = .ok (nbtPrimitive w, sep ++ rest) := by
  obtain ⟨b, w, rfl⟩ := List.exists_cons_of_ne_nil hw.1
  have hb := hw.2 b List.mem_cons_self
  have hbrace : (b == Char.toUInt8 '\x7b') = false := beq_false_of_ne (ne_of_class hb (by decide))
  have hbracket : (b == Char.toUInt8 '[') = false := beq_false_of_ne (ne_of_class hb (by decide))
  have hword := word_eq hw hsep rest
  rw [nbtTagWithin]
  show (if _ then _ else _ : Scan Nbt) _ = _
  simp only [hbrace, hbracket, isQuote_of_isWordByte hb]
  rw [if_neg Bool.false_ne_true, if_neg Bool.false_ne_true, if_neg Bool.false_ne_true,
    bind_eq hword]
  rfl

end

/-- A quoted string as a tag. -/
theorem nbtTagWithin_quoted {quote : UInt8} (hquote : isQuote quote = true) (s rest : Text)
    (depth : Nat) :
    nbtTagWithin (depth + 1) (quote :: (s.escaped quote ++ quote :: rest)) =
      .ok (.string s, rest) := by
  have hstring : quotedString (quote :: (s.escaped quote ++ quote :: rest)) = .ok (s, rest) := by
    have hbackslash : quote ≠ 0x5c := ne_of_class hquote (by decide)
    rw [quotedString, if_pos hquote, quotedBody_escaped hbackslash]
  have hquotes : quote = 0x22 ∨ quote = 0x27 := by simpa [isQuote] using hquote
  rw [nbtTagWithin]
  rcases hquotes with rfl | rfl
  all_goals
    show (quotedString >>= fun s => pure (Nbt.string s)) _ = _
    rw [bind_eq hstring]
    rfl

/-- A key without quotes and its value. -/
theorem nbtEntry_eq {value : Scan Nbt} {key : Text} {v : Nbt} (hkey : IsWord key)
    (hrest : rest.head? ≠ some Text.blank) (hvalue : value rest = .ok (v, after)) :
    nbtEntry value (key ++ ([0x3a] ++ rest)) = .ok ((key, v), after) := by
  have hcolon : skipBlanks ([0x3a] ++ rest) = .ok ((), 0x3a :: rest) :=
    skipBlanks_eq (by simp [Text.blank])
  have hrequire : require ':' (.missingByte ':') (0x3a :: rest) = .ok ((), rest) :=
    require_same 0x3a _ rest
  rw [nbtEntry, bind_eq (phrase?_word hkey (by decide) rest)]
  show (skipBlanks >>= _) ([0x3a] ++ rest) = _
  rw [bind_eq hcolon, bind_eq hrequire, bind_eq (skipBlanks_eq hrest), bind_eq hvalue]
  rfl

/-! ### Blocks -/

theorem IsWord.exists_head (hw : IsWord w) (rest : Text) :
    ∃ b, (w ++ rest).head? = some b ∧ isWordByte b = true := by
  obtain ⟨b, w, rfl⟩ := List.exists_cons_of_ne_nil hw.1
  exact ⟨b, rfl, hw.2 b List.mem_cons_self⟩

variable {key value : Text}

/-- A property with its value, up to the closing bracket. -/
theorem blockProperty_eq (hkey : IsWord key) (hvalue : IsWord value) (rest : Text) :
    blockProperty (key ++ ([0x3d] ++ (value ++ ([0x5d] ++ rest)))) =
      .ok ((key, value), 0x5d :: rest) := by
  obtain ⟨c, hhead, hc⟩ := hvalue.exists_head ([0x5d] ++ rest)
  have hskip := skipBlanks_eq (head?_ne_blank hhead (ne_of_class hc (by decide)))
  have hequals : skipBlanks ([0x3d] ++ (value ++ ([0x5d] ++ rest))) =
      .ok ((), 0x3d :: (value ++ ([0x5d] ++ rest))) := skipBlanks_eq (by simp [Text.blank])
  have hrequire : require '=' (.missingPropertyValue key) (0x3d :: (value ++ ([0x5d] ++ rest))) =
      .ok ((), value ++ ([0x5d] ++ rest)) := require_same 0x3d _ _
  rw [blockProperty, bind_eq (phrase?_word hkey (by decide) _)]
  show (skipBlanks >>= _) ([0x3d] ++ _) = _
  rw [bind_eq hequals, bind_eq hrequire, bind_eq hskip,
    bind_eq (phrase?_word hvalue (by decide) rest)]
  rfl

/-- One property between brackets. -/
theorem blockProperties?_eq (hkey : IsWord key) (hvalue : IsWord value) (rest : Text) :
    blockProperties? (0x5b :: (key ++ ([0x3d] ++ (value ++ ([0x5d] ++ rest))))) =
      .ok (some [(key, value)], rest) := by
  obtain ⟨b, hhead, hb⟩ := hkey.exists_head ([0x3d] ++ (value ++ ([0x5d] ++ rest)))
  have hblank : b ≠ Text.blank := ne_of_class hb (by decide)
  have hclose : b ≠ 0x5d := ne_of_class hb (by decide)
  have hbrackets : bracketed blockProperty 0x5d .unclosedProperties .unfinishedProperties
      (key ++ ([0x3d] ++ (value ++ ([0x5d] ++ rest)))) = .ok ([(key, value)], rest) := by
    rw [bracketed_eq hhead hblank hclose]
    exact separated_close (head?_ne_blank hhead hblank) (blockProperty_eq hkey hvalue rest)
      (by decide) (by decide)
  rw [blockProperties?]
  show (accept 0x5b >>= _) _ = _
  rw [bind_eq (accept_same 0x5b _), if_pos rfl]
  exact bind_eq hbrackets _

/-- A name that is followed by something else. -/
theorem resourceRef_eq {name : Text} {r : ResourceName}
    (hname : ∀ b ∈ name, isResourceByte b = true) (hr : resourceOfText? name = some r)
    (hne : name ≠ []) (hsep : sep.head?.map isResourceByte = some false) (rest : Text) :
    resourceRef (name ++ (sep ++ rest)) = .ok (⟨false, r⟩, sep ++ rest) := by
  have hresource : resource (name ++ (sep ++ rest)) = .ok (r, sep ++ rest) := by
    rw [resource_eq, Text.takeWhile_field sep rest hname hsep,
      Text.dropWhile_field sep rest hname hsep, if_neg (by simpa using hne), hr]
  have haccept : accept 0x23 (name ++ (sep ++ rest)) = .ok (false, name ++ (sep ++ rest)) := by
    obtain ⟨b, name, rfl⟩ := List.exists_cons_of_ne_nil hne
    exact accept_other (ne_of_class (hname b List.mem_cons_self) (by decide)) _
  rw [resourceRef]
  show (accept 0x23 >>= _) _ = _
  rw [bind_eq haccept, bind_eq hresource]
  rfl

/-- A block with one property and with data. -/
theorem block_eq {name data : Text} {r : ResourceName} {entries : NbtEntries} (allowTag : Bool)
    (hname : ∀ b ∈ name, isResourceByte b = true) (hr : resourceOfText? name = some r)
    (hne : name ≠ []) (hkey : IsWord key) (hvalue : IsWord value)
    (hdata : nbtCompound (0x7b :: data) = .ok (entries, rest)) :
    block allowTag
      (name ++ ([0x5b] ++ (key ++ ([0x3d] ++ (value ++ ([0x5d] ++ (0x7b :: data))))))) =
      .ok (⟨⟨false, r⟩, some [(key, value)], some entries⟩, rest) := by
  generalize htext : name ++
    ([0x5b] ++ (key ++ ([0x3d] ++ (value ++ ([0x5d] ++ (0x7b :: data)))))) = text
  have hpeek : peek? text = .ok (text.head?, text) := rfl
  have hhash : (text.head? == some 0x23) = false := by
    obtain ⟨b, name, rfl⟩ := List.exists_cons_of_ne_nil hne
    have hb : b ≠ 0x23 := ne_of_class (hname b List.mem_cons_self) (by decide)
    rw [← htext]
    exact beq_false_of_ne fun h => hb (Option.some.inj h)
  have hcompound : nbtCompound? (0x7b :: data) = .ok (some entries, rest) := by
    have hpeek : peek? (0x7b :: data) = .ok (some 0x7b, 0x7b :: data) := rfl
    rw [nbtCompound?, bind_eq hpeek, if_pos (by decide), bind_eq hdata]
    rfl
  have hrest : (resourceRef >>= fun name => blockProperties? >>= fun properties =>
      nbtCompound? >>= fun nbt => pure (⟨name, properties, nbt⟩ : Block)) text =
      .ok (⟨⟨false, r⟩, some [(key, value)], some entries⟩, rest) := by
    have hproperties : blockProperties?
        ([0x5b] ++ (key ++ ([0x3d] ++ (value ++ ([0x5d] ++ (0x7b :: data)))))) =
        .ok (some [(key, value)], 0x7b :: data) := blockProperties?_eq hkey hvalue _
    rw [← htext, bind_eq (resourceRef_eq hname hr hne (by decide) _), bind_eq hproperties,
      bind_eq hcompound]
    rfl
  -- the text starts with no `#`, so it does not matter whether a tag is allowed
  rw [block]
  cases allowTag with
  | true => exact hrest
  | false =>
    show (peek? >>= _) text = _
    rw [bind_eq hpeek, hhash]
    exact hrest

end Argument

/-! ### The block of a command -/

theorem escapeCommand_eq (t : Text) : escapeCommand t = t.escaped 0x22 := by
  apply List.flatMap_congr
  intro b _
  by_cases hb : b = 0x5c ∨ b = 0x22
  · rw [if_pos hb]
    exact if_pos (by rcases hb with rfl | rfl <;> decide)
  · obtain ⟨hbackslash, hquote⟩ := not_or.mp hb
    rw [if_neg hb]
    refine if_neg fun h => ?_
    rcases Bool.or_eq_true_iff.mp h with h | h
    · exact hbackslash (eq_of_beq h)
    · exact hquote (eq_of_beq h)

/-- A name is quoted twice: for the document, and for the string that holds the document. -/
theorem escapeName_eq (t : Text) : escapeName t = (t.escaped 0x22).escaped 0x27 := by
  rw [Text.escaped, Text.escaped, List.flatMap_assoc]
  apply List.flatMap_congr
  intro b _
  by_cases hbackslash : b = 0x5c
  · subst hbackslash
    decide
  by_cases hquote : b = 0x22
  · subst hquote
    decide
  by_cases hsingle : b = 0x27
  · subst hsingle
    decide
  · have hdouble : ¬ (b = 0x5c ∨ b = 0x22) := not_or.mpr ⟨hbackslash, hquote⟩
    have houter : ¬ (b = 0x5c ∨ b = 0x27) := not_or.mpr ⟨hbackslash, hsingle⟩
    rw [if_neg hdouble, List.flatMap_singleton, if_neg houter]
    refine (if_neg fun h => hbackslash (eq_of_beq h)).trans ?_
    refine (if_neg fun h => hquote (eq_of_beq h)).trans ?_
    exact if_neg fun h => hsingle (eq_of_beq h)

/-- The document that holds the name of a block. -/
def nameDocument (c : ServerCommand) : Text := Json.field "text" c.name

/-- The data of the block of a command, behind the opening brace. -/
def commandData (c : ServerCommand) : Text :=
  Text.ofString "auto" ++
    ([0x3a] ++ (Text.ofString "1b" ++ ([0x2c] ++ (Text.ofString "CustomName" ++ ([0x3a] ++
    (0x27 :: ((nameDocument c).escaped 0x27 ++ 0x27 :: 0x2c ::
      (Text.ofString "Command" ++ ([0x3a] ++
      (0x22 :: (c.command.escaped 0x22 ++ 0x22 :: [0x7d])))))))))))

/-- The kind of the block at a height: the impulse block stands at the bottom. -/
def blockKind (height : Nat) : Text := if height = 0 then "command_block" else "chain_command_block"

/-- The block of a command as console commands write it. -/
def blockText (height : Nat) (c : ServerCommand) : Text :=
  blockKind height ++
    ([0x5b] ++ (Text.ofString "facing" ++ ([0x3d] ++ (Text.ofString "up" ++ ([0x5d] ++
    (0x7b :: commandData c))))))

/-- The entries that are read from the data. -/
def commandEntries (c : ServerCommand) : NbtEntries :=
  [("auto", Argument.nbtPrimitive "1b"), ("CustomName", .string (nameDocument c)),
    ("Command", .string c.command)]

theorem escaped_nameDocument (c : ServerCommand) :
    (nameDocument c).escaped 0x27 = "\x7b\"text\":\"" ++ escapeName c.name ++ "\"\x7d" := by
  have hfront : Text.escaped 0x27 ("\x7b\"" ++ ("text" ++ "\":\"")) =
      Text.ofString "\x7b\"text\":\"" := by decide
  have hback : Text.escaped 0x27 "\"\x7d" = Text.ofString "\"\x7d" := by decide
  rw [nameDocument, Json.field, escapeName_eq, ← hfront]
  simp only [Text.escaped_append, hback, List.append_assoc]

theorem placeBlock_eq (p : BlockPos) (height : Nat) (c : ServerCommand) :
    placeBlock p (blockKind height) c = "setblock " ++ p.text ++ " " ++ blockText height c := by
  have hopening : Text.ofString "[facing=up]\x7bauto:1b,CustomName:'\x7b\"text\":\"" =
      [0x5b] ++ (Text.ofString "facing" ++ ([0x3d] ++ (Text.ofString "up" ++ ([0x5d] ++ (0x7b ::
        (Text.ofString "auto" ++
          ([0x3a] ++ (Text.ofString "1b" ++ ([0x2c] ++ (Text.ofString "CustomName" ++
          ([0x3a] ++ (0x27 :: Text.ofString "\x7b\"text\":\"")))))))))))) := by decide
  have hbetween : Text.ofString "\"\x7d',Command:\"" =
      Text.ofString "\"\x7d" ++
        (0x27 :: 0x2c :: (Text.ofString "Command" ++ ([0x3a] ++ [0x22]))) := by decide
  have hclosing : Text.ofString "\"\x7d" = [0x22, 0x7d] := by decide
  rw [placeBlock, blockText, commandData, escaped_nameDocument, ← escapeCommand_eq, hopening,
    hbetween]
  simp only [hclosing, List.append_assoc, List.cons_append, List.nil_append]

theorem nbtCompound_commandData (c : ServerCommand) :
    Argument.nbtCompound (0x7b :: commandData c) = .ok (commandEntries c, []) := by
  obtain ⟨n, hn⟩ : ∃ n, (commandData c).length + 1 = n + 3 := by
    have hlength : 4 ≤ (commandData c).length := by
      rw [commandData, List.length_append]
      exact Nat.le_add_right 4 _
    exact ⟨(commandData c).length - 2, by omega⟩
  have hbrace : Argument.require '\x7b' (.missingByte '\x7b') (0x7b :: commandData c) =
      .ok ((), commandData c) :=
    Argument.require_same 0x7b _ _
  show Argument.nbtCompoundOf (Argument.nbtTagWithin ((commandData c).length + 1))
    (0x7b :: commandData c) = _
  rw [Argument.nbtCompoundOf, Argument.bind_eq hbrace,
    Argument.bracketed_eq (b := 0x61) rfl (by decide) (by decide), hn]
  refine Argument.separated_comma (Argument.head?_ne_blank (b := 0x61) rfl (by decide))
    (Argument.nbtEntry_eq (by decide +kernel) (Argument.head?_ne_blank (b := 0x31) rfl (by decide))
      (Argument.nbtTagWithin_word (by decide +kernel) (by decide) _ _)) ?_
  refine Argument.separated_comma (Argument.head?_ne_blank (b := 0x43) rfl (by decide))
    (Argument.nbtEntry_eq (by decide +kernel) (Argument.head?_ne_blank (b := 0x27) rfl (by decide))
      (Argument.nbtTagWithin_quoted (by decide) _ _ _)) ?_
  exact Argument.separated_close (Argument.head?_ne_blank (b := 0x43) rfl (by decide))
    (Argument.nbtEntry_eq (by decide +kernel) (Argument.head?_ne_blank (b := 0x22) rfl (by decide))
      (Argument.nbtTagWithin_quoted (by decide) _ _ _)) (by decide) (by decide)

/-- The block of a command is read back. -/
theorem block_blockText (allowTag : Bool) (height : Nat) (c : ServerCommand) :
    Argument.block allowTag (blockText height c) =
      .ok (⟨⟨false, ⟨"minecraft", blockKind height⟩⟩,
        some [(Text.ofString "facing", Text.ofString "up")], some (commandEntries c)⟩, []) := by
  have hkind : (∀ b ∈ blockKind height, Argument.isResourceByte b = true) ∧ blockKind height ≠ [] ∧
      Argument.resourceOfText? (blockKind height) = some ⟨"minecraft", blockKind height⟩ := by
    unfold blockKind
    split <;> decide +kernel
  have hkey : Argument.IsWord "facing" := by decide +kernel
  have hvalue : Argument.IsWord "up" := by decide +kernel
  exact Argument.block_eq allowTag hkind.1 hkind.2.2 hkind.2.1 hkey hvalue
    (nbtCompound_commandData c)

/-! ### The column of blocks -/

/-- The text of a block at a height carries a command: the reader of blocks takes all of it, and
    finds the command, and the name in a document. -/
def CarriesCommand (height : Nat) (c : ServerCommand) (text : Text) : Prop :=
  ∀ allowTag, ∃ (block : Block) (entries : NbtEntries) (document : Text),
    Argument.block allowTag text = .ok (block, []) ∧
    block.name = ⟨false, ⟨"minecraft", blockKind height⟩⟩ ∧
    block.properties = some [(Text.ofString "facing", Text.ofString "up")] ∧
    block.nbt = some entries ∧ (entries.map (·.1)).Nodup ∧
    entries.get? "Command" = some (.string c.command) ∧
    entries.get? "CustomName" = some (.string document) ∧
    Json.parse document = .ok (.object [("text", .string c.name)])

theorem carriesCommand_blockText (height : Nat) {c : ServerCommand}
    (hvalid : Utf8.isValid c.name = true) (hcontrol : ∀ b ∈ c.name, 0x20 ≤ b) :
    CarriesCommand height c (blockText height c) := by
  intro allowTag
  have hkeys : ((commandEntries c).map (·.1)).Nodup := by
    show [Text.ofString "auto", Text.ofString "CustomName", Text.ofString "Command"].Nodup
    decide
  exact ⟨_, commandEntries c, nameDocument c, block_blockText allowTag height c, rfl, rfl, rfl,
    hkeys, rfl, rfl, Json.parse_field (by decide +kernel) (by decide +kernel) hvalid hcontrol⟩

theorem placeBlocks_eq (p : BlockPos) (height : Nat) (commands : List ServerCommand) :
    placeBlocks p height commands =
      (commands.mapIdx fun i c =>
        "setblock " ++ (p.above (height + i)).text ++ " " ++ blockText (height + i) c).reverse := by
  induction commands generalizing height with
  | nil => rfl
  | cons c commands ih =>
    have hkind : (if height == 0 then Text.ofString "command_block"
      else Text.ofString "chain_command_block") =
        blockKind height := by
      rw [blockKind]
      by_cases hheight : height = 0
      · rw [if_pos hheight, if_pos (by simpa using hheight)]
      · rw [if_neg hheight, if_neg (by simpa using hheight)]
    rw [placeBlocks, hkind, placeBlock_eq, ih, List.mapIdx_cons, List.reverse_cons]
    simp only [Nat.add_assoc, Nat.add_comm 1, Nat.add_zero]

/-- The height of a block, if it is a 64-bit word. -/
theorem BlockPos.above_eq {p : BlockPos} {n : Nat} (hlow : -(Nat.pow 2 63 : Nat) ≤ p.y + n)
    (hhigh : p.y + n < (Nat.pow 2 63 : Nat)) : p.above n = { p with y := p.y + n } := by
  have hpow : Nat.pow 2 63 = 9223372036854775808 ∧ Nat.pow 2 64 = 18446744073709551616 := by decide
  rw [hpow.1] at hlow hhigh
  have hwrap : wrap64 (p.y + n) = p.y + n := by
    rw [wrap64, hpow.2]
    exact Int.bmod_eq_of_le (by omega) (by omega)
  rw [BlockPos.above, hwrap]

/-- Console commands build a column of blocks for some commands. -/
structure BuildsColumn (p : BlockPos) (commands : List ServerCommand)
    (lines : List Text) : Prop where
  /-- the column is cleared; then the blocks are placed, the topmost first and the one at the bottom
      last -/
  placed : ∃ blocks : List Text,
    lines = ("fill " ++ p.text ++ " " ++ (p.above (commands.length - 1)).text ++ " air") ::
      (blocks.mapIdx fun i block => "setblock " ++ (p.above i).text ++ " " ++ block).reverse ∧
    blocks.length = commands.length ∧
    ∀ i c, commands[i]? = some c → ∃ block, blocks[i]? = some block ∧ CarriesCommand i c block
  /-- heights are counted from the bottom, as long as they are 64-bit words -/
  heights : ∀ n : Nat, -(Nat.pow 2 63 : Nat) ≤ p.y + n → p.y + n < (Nat.pow 2 63 : Nat) →
    p.above n = { p with y := p.y + n }

/-- The blocks that are injected carry the commands, whatever bytes these hold. -/
theorem injectionLines_carry (p : BlockPos) {commands : List ServerCommand} (hne : commands ≠ [])
    (hnames : ∀ c ∈ commands, Utf8.isValid c.name = true ∧ ∀ b ∈ c.name, 0x20 ≤ b) :
    BuildsColumn p commands (injectionLines p commands) := by
  refine ⟨⟨commands.mapIdx blockText, ?_, List.length_mapIdx, ?_⟩, fun n => BlockPos.above_eq⟩
  · rw [injectionLines, if_neg (by simpa using hne), placeBlocks_eq, List.mapIdx_mapIdx]
    simp only [Nat.zero_add]
    rfl
  · intro i c hc
    obtain ⟨hvalid, hcontrol⟩ := hnames c (List.mem_of_getElem? hc)
    refine ⟨blockText i c, ?_, carriesCommand_blockText i hvalid hcontrol⟩
    rw [List.getElem?_mapIdx, hc]
    rfl

/-- Commands with quotes and backslashes in all places. -/
def quotingCommands : List ServerCommand :=
  [⟨"it's \"é\\", "say \"\\'\""⟩, ⟨"", ""⟩]

theorem quotingCommands_carried :
    (quotingCommands ≠ [] ∧ ∀ c ∈ quotingCommands, Utf8.isValid c.name = true ∧
      ∀ b ∈ c.name, 0x20 ≤ b) ∧
      BuildsColumn ⟨1, -64, 2⟩ quotingCommands (injectionLines ⟨1, -64, 2⟩ quotingCommands) :=
  ⟨by decide +kernel, injectionLines_carry _ (by decide) (by decide +kernel)⟩

end DatapackDebug
