import DatapackDebug.Proofs.GrammarArena

namespace DatapackDebug

/-!
# Grammars hold what their documents declare

A grammar is read from its document piece by piece, and its nodes are numbered on the way.  Here the
document is read a second time, as one JSON value, and the nodes are those that this value declares.

* `Json.readValue_mono` — a value is found again where deeper nesting is allowed;
* `Json.Fields` — the fields that are left of an object, as the general reader finds them;
* `Declares` — the tree that a value declares, with its children in the order of the fields;
* `GrammarLoader.Grows`, `GrammarLoader.sound` — what every step adds to the arena: the numbered
  nodes of such trees;
* `Grammar.exists_of_ofJson` — a grammar that is read from a document is that of the declared tree.
-/

/-! ### Values -/

namespace Json

variable {α : Type} {value value' : ValueReader}

/-- What one reader finds, the other one finds. -/
def Refines (read read' : Text → Except SyntaxError (α × Text)) : Prop :=
  ∀ t a rest, read t = .ok (a, rest) → read' t = .ok (a, rest)

theorem Refines.refl (read : Text → Except SyntaxError (α × Text)) : Refines read read :=
  fun _ _ _ hok => hok

theorem Refines.readField (h : Refines value value') :
    Refines (readField value) (readField value') := by
  intro t a rest hok
  obtain ⟨⟨key, mid⟩, hkey, hok⟩ := exists_of_bind_eq_ok hok
  obtain ⟨⟨v, rest'⟩, hv, hok⟩ := exists_of_bind_eq_ok hok
  rw [Json.readField, hkey]
  show (value' mid >>= _) = _
  rw [h mid v rest' hv]
  exact hok

/-- A sequence is found again by a reader that finds more items, with a larger bound. -/
theorem Refines.readSequence {item item' : Text → Except SyntaxError (α × Text)} {close : UInt8}
    {context : ErrorContext} (hclose : close ≠ 0x2c) (h : Refines item item') {n m : Nat}
    (hnm : n ≤ m) :
    Refines (readSequence item close context n) (readSequence item' close context m) := by
  induction n generalizing m with
  | zero => exact fun t as rest hok => by cases hok
  | succ n ih =>
    obtain ⟨m, rfl⟩ := Nat.exists_eq_add_of_lt hnm
    intro t as rest hok
    obtain ⟨a, mid, ha, hcase⟩ := (readSequence_succ_eq_ok_iff hclose).mp hok
    refine (readSequence_succ_eq_ok_iff hclose).mpr ⟨a, mid, h t a mid ha, hcase.imp_left ?_⟩
    rintro ⟨u, others, hspace, hothers, rfl⟩
    exact ⟨u, others, hspace, ih (Nat.le_add_right n m) u others rest hothers, rfl⟩

/-- A reader that changes what another one has found refines the one that does so with more. -/
theorem Refines.map {β : Type} {read read' : Text → Except SyntaxError (α × Text)}
    (h : Refines read read')
    {t : Text} {f : α × Text → β × Text} {r : β × Text} (hok : (read t).map f = .ok r) :
    (read' t).map f = .ok r := by
  obtain ⟨found, hread, rfl⟩ := exists_of_map_eq_ok hok
  rw [h t found.1 found.2 hread]
  rfl

/-- One more level of nesting does no harm. -/
theorem readValue_succ (depth : Nat) : Refines (readValue depth) (readValue (depth + 1)) := by
  induction depth using Nat.strongRecOn with
  | ind depth ih =>
    intro t v rest hok
    rw [readValue.eq_def] at hok ⊢
    dsimp only at hok ⊢
    cases hspace : skipSpace t with
    | nil =>
      rw [hspace] at hok
      cases hok
    | cons b body =>
      rw [hspace] at hok
      dsimp only at hok ⊢
      by_cases hbrace : (b == Char.toUInt8 '\x7b') = true
      · rw [if_pos hbrace] at hok ⊢
        cases depth with
        | zero => cases hok
        | succ depth =>
          dsimp only at hok ⊢
          split at hok
          · exact hok
          · have hdepth := (ih depth (Nat.lt_succ_self _)).readField
            exact (hdepth.readSequence (by decide) (Nat.le_refl _)).map hok
      rw [if_neg hbrace] at hok ⊢
      by_cases hbracket : (b == Char.toUInt8 '[') = true
      · rw [if_pos hbracket] at hok ⊢
        cases depth with
        | zero => cases hok
        | succ depth =>
          dsimp only at hok ⊢
          split at hok
          · exact hok
          · have hdepth := ih depth (Nat.lt_succ_self _)
            exact (hdepth.readSequence (by decide) (Nat.le_refl _)).map hok
      rw [if_neg hbracket] at hok ⊢
      exact hok

/-- A value is found again where deeper nesting is allowed. -/
theorem readValue_mono {depth depth' : Nat} (h : depth ≤ depth') :
    Refines (readValue depth) (readValue depth') := by
  induction h with
  | refl => exact .refl _
  | step _ ih => exact fun t v rest hok => readValue_succ _ t v rest (ih t v rest hok)

/-! ### Fields of objects -/

/-- Where a field of an object begins: behind the opening brace if it is the first one, else behind
    a comma. -/
def FieldStart : Bool → Text → Text → Prop
  | true, t, u => u = t
  | false, t, u => skipSpace t = 0x2c :: u

/-- The fields that are left of an object, up to its closing brace. -/
inductive Fields (value : ValueReader) : Bool → Text → List (Text × Json) → Text → Prop where
  | close {first t rest} : skipSpace t = 0x7d :: rest → Fields value first t [] rest
  | field {first t u mid key v after fs rest} : FieldStart first t u → readKey u = .ok (key, mid) →
      value mid = .ok (v, after) → Fields value false after fs rest →
      Fields value first t ((key, v) :: fs) rest

variable {t rest : Text} {first : Bool} {fs : List (Text × Json)}

theorem Fields.mono (h : Fields value first t fs rest) (hvalue : Refines value value') :
    Fields value' first t fs rest := by
  induction h with
  | close hclose => exact .close hclose
  | field hstart hkey hv _ ih => exact .field hstart hkey (hvalue _ _ _ hv) ih

/-- The general reader finds the same fields. -/
theorem Fields.exists_readFields (h : Fields value first t fs rest) (hne : fs ≠ []) :
    ∃ u n, FieldStart first t u ∧ readFields value n u = .ok (fs, rest) := by
  induction h with
  | close => exact absurd rfl hne
  | @field first t u mid key v after fs rest hstart hkey hv hrest ih =>
    have hfield : readField value u = .ok ((key, v), after) := by
      rw [readField, hkey]
      show (value mid >>= _) = _
      rw [hv]
      rfl
    cases hrest with
    | close hclose =>
      exact ⟨u, 1, hstart, (readSequence_succ_eq_ok_iff (by decide)).mpr
        ⟨_, after, hfield, .inr ⟨hclose, rfl⟩⟩⟩
    | field =>
      obtain ⟨u', n, hcomma, hread⟩ := ih (List.cons_ne_nil _ _)
      exact ⟨u, n + 1, hstart, (readSequence_succ_eq_ok_iff (by decide)).mpr
        ⟨_, after, hfield, .inl ⟨u', _, hcomma, hread, rfl⟩⟩⟩

/-- The name of a field begins with a quote. -/
theorem skipSpace_of_readKey {u mid key : Text} (h : readKey u = .ok (key, mid)) :
    ∃ w, skipSpace u = 0x22 :: w := by
  unfold readKey at h
  split at h
  · cases h
  next b w hspace =>
    split at h
    next hb => exact ⟨w, hspace.trans (congrArg (· :: w) (eq_of_beq hb))⟩
    · cases h

/-- An object is what its fields are between their braces. -/
theorem Fields.readValue {depth : Nat} {u : Text} (h : Fields (readValue depth) true u fs rest)
    (hopen : skipSpace t = 0x7b :: u) : Json.readValue (depth + 1) t = .ok (.object fs, rest) := by
  rw [readValue.eq_def]
  dsimp only
  rw [hopen]
  have hbrace : ((0x7b : UInt8) == Char.toUInt8 '\x7b') = true := by decide
  dsimp only
  rw [if_pos hbrace]
  cases fs with
  | nil =>
    cases h with
    | close hclose =>
      rw [hclose]
      rfl
  | cons f fs =>
    obtain ⟨u, n, rfl, hread⟩ := h.exists_readFields (List.cons_ne_nil _ _)
    -- The bound of the general reader is as good as one that is larger than both.
    have hlength : readFields (Json.readValue depth) u.length u = .ok (f :: fs, rest) := by
      have hlarge := (Refines.refl _).readSequence (by decide)
        (Nat.le_max_left n u.length) u _ _ hread
      have hleaves := leaves_readField (leaves_readValue depth)
      exact (readSequence_bound hleaves rfl (Nat.le_refl _)
        (Nat.le_max_right n u.length)).trans hlarge
    cases h with
    | field hstart hkey =>
      obtain rfl := hstart
      obtain ⟨w, hquote⟩ := skipSpace_of_readKey hkey
      rw [hquote, hlength]
      rfl

end Json

/-! ### Declarations -/

namespace Json

/-- The text of a string. -/
def text? : Json → Option Text
  | .string t => some t
  | _ => none

/-- The truth value that a value is. -/
def bool? : Json → Option Bool
  | .bool b => some b
  | _ => none

/-- The fields of an object. -/
def members : Json → List (Text × Json)
  | .object fs => fs
  | _ => []

/-- The names of a path; one that is no string is empty. -/
def names : Json → List Text
  | .array items => items.map fun v => v.text?.getD []
  | _ => []

/-- Properties with those of an object added; another value removes all. -/
def addTo (properties : Argument.Properties) : Json → Argument.Properties
  | .object fs => properties ++ fs
  | _ => []

/-- The values of all fields of a name, in their order. -/
def valuesOf (name : Text) (fs : List (Text × Json)) : List Json :=
  fs.filterMap fun f => if f.1 == name then some f.2 else none

/-- The texts of all fields of a name. -/
def textsOf (name : Text) (fs : List (Text × Json)) : List Text :=
  (valuesOf name fs).filterMap text?

/-- The truth values of all fields of a name. -/
def boolsOf (name : Text) (fs : List (Text × Json)) : List Bool :=
  (valuesOf name fs).filterMap bool?

/-- The fields of all objects that are fields of a name, one after the other. -/
def membersOf (name : Text) (fs : List (Text × Json)) : List (Text × Json) :=
  (valuesOf name fs).flatMap members

end Json

/-- How a document names a type. -/
def NodeType.word : NodeType → Text
  | .root => "root"
  | .literal => "literal"
  | .argument => "argument"

open Json in
/-- What the fields of an object say of a node: the last text, truth value and path count. -/
def declaredHead (name : Text) (type : NodeType) (fs : List (Text × Json)) : NodeHead where
  name := name
  type := type
  argumentId := (textsOf "parser" fs).getLastD []
  properties := (valuesOf "properties" fs).foldl addTo []
  executable := (boolsOf "executable" fs).getLastD false
  redirect := (valuesOf "redirect" fs).getLast?.map names

/-- The tree that a value declares under a name.  Its children are all fields of all its fields
    `children`, in the order in which they stand there. -/
inductive Declares : Text → Json → CommandTree → Prop where
  | node {name : Text} {type : NodeType} {fs : List (Text × Json)} {children : List CommandTree} :
      (Json.textsOf "type" fs).getLastD [] = type.word →
      List.Forall₂ (fun f t => Declares f.1 f.2 t) (Json.membersOf "children" fs) children →
      Declares name (.object fs) (.node (declaredHead name type fs) children)

/-! ### Steps of the loader -/

namespace GrammarLoader

section Except

variable {α β ε ε' : Type} {x : Except ε α} {a : α} {b : β}

theorem of_mapError_eq_ok {f : ε → ε'} (h : x.mapError f = .ok a) : x = .ok a := by
  cases x with
  | error e => cases h
  | ok a' => exact congrArg Except.ok (Except.ok.inj h)

theorem bind_ne_ok {f : α → Except ε β} (h : ∀ a, f a ≠ .ok b) : (x >>= f) ≠ .ok b := by
  cases x with
  | error e => exact nofun
  | ok a => exact h a

end Except

variable {t u rest name : Text} {first inField : Bool}

theorem skipSpace_of_openObject (h : openObject inField t = .ok u) :
    Json.skipSpace t = 0x7b :: u := by
  unfold openObject at h
  split at h
  · cases h
  next b body hspace =>
    split at h
    next hb =>
      cases h
      exact hspace.trans (congrArg (· :: u) (eq_of_beq hb))
    iterate 3
      split at h
      · cases h
    exact absurd h (bind_ne_ok fun _ => nofun)

theorem skipSpace_of_objectColon (h : objectColon t = .ok u) : Json.skipSpace t = 0x3a :: u := by
  unfold objectColon at h
  split at h
  · cases h
  next b rest hspace =>
    split at h
    next hb =>
      cases h
      exact hspace.trans (congrArg (· :: u) (eq_of_beq hb))
    · cases h

theorem of_fieldValue {v : Json} (h : fieldValue t = .ok (v, rest)) :
    ∃ u, Json.skipSpace t = 0x3a :: u ∧ Json.read u = .ok (v, rest) := by
  unfold fieldValue at h
  split at h
  next u hspace => exact ⟨u, hspace, of_mapError_eq_ok h⟩
  · cases h

theorem of_fieldName (h : fieldName t = .ok (name, rest)) :
    ∃ w, t = 0x22 :: w ∧ Json.readString w = .ok (name, rest) := by
  unfold fieldName at h
  split at h
  next w => exact ⟨w, rfl, of_mapError_eq_ok h⟩
  · cases h
  · cases h
  · exact absurd h (bind_ne_ok fun _ => nofun)

theorem of_fieldAt {field : Option Text} (h : fieldAt t = .ok (field, rest)) :
    field = none ∧ t = 0x7d :: rest ∨
      ∃ name w, field = some name ∧ t = 0x22 :: w ∧ Json.readString w = .ok (name, rest) := by
  unfold fieldAt at h
  split at h
  · cases h
  · cases h
    exact .inl ⟨rfl, rfl⟩
  · obtain ⟨r, hname, h⟩ := exists_of_map_eq_ok h
    cases h
    obtain ⟨w, rfl, hw⟩ := of_fieldName hname
    exact .inr ⟨r.1, w, rfl, rfl, hw⟩

/-- An object is at its closing brace, or a field begins, which is separated from the one before. -/
theorem of_nextField {field : Option Text} (h : nextField first t = .ok (field, rest)) :
    field = none ∧ Json.skipSpace t = 0x7d :: rest ∨
      ∃ name u w, field = some name ∧ Json.FieldStart first t u ∧ Json.skipSpace u = 0x22 :: w ∧
        Json.readString w = .ok (name, rest) := by
  unfold nextField at h
  split at h
  · cases h
  next b v hspace =>
    split at h
    next hseparator =>
      -- A comma must not be the first token, nor the last one before the brace.
      dsimp only at h
      split at h
      · cases h
      next hother =>
        split at h
        · cases h
        next hcolon =>
          simp only [Bool.or_eq_true, not_or, beq_iff_eq] at hseparator hother hcolon
          obtain rfl := Bool.eq_false_iff.mpr hother.1.1
          obtain rfl := hseparator.resolve_right hcolon
          rcases of_fieldAt h with ⟨-, hclose⟩ | ⟨name, w, hname, hw, hread⟩
          · exact absurd (congrArg List.head? hclose) hother.1.2
          · exact .inr ⟨name, v, w, hname, hspace, hw, hread⟩
    split at h
    next hstart =>
      rcases of_fieldAt h with ⟨hnone, hclose⟩ | ⟨name, w, hname, hw, hread⟩
      · exact .inl ⟨hnone, hspace.trans hclose⟩
      · obtain ⟨rfl, -⟩ := List.cons.inj hw
        have hfirst : first = true := by simpa +decide using hstart
        exact .inr ⟨name, t, w, hname, hfirst ▸ rfl, hspace.trans hw, hread⟩
    · cases h

/-- The name of a field with the colon behind it, as the general reader finds it. -/
theorem readKey_eq {w mid after : Text} (hquote : Json.skipSpace u = 0x22 :: w)
    (hname : Json.readString w = .ok (name, mid)) (hcolon : Json.skipSpace mid = 0x3a :: after) :
    Json.readKey u = .ok (name, after) := by
  unfold Json.readKey
  rw [hquote]
  dsimp only
  rw [if_pos (by decide), hname]
  simp only [bind, Except.bind, hcolon]
  rw [if_pos (by decide)]
  rfl

/-! ### Drafts -/

section Drafts

open Json

variable {d d' : Draft} {field : Text} {v : Json}

/-- The draft once some fields and the numbers of some children have been read. -/
def Draft.after (d : Draft) (fs : List (Text × Json)) (children : List Nat) : Draft where
  type := (textsOf "type" fs).getLastD d.type
  executable := (boolsOf "executable" fs).getLastD d.executable
  argumentId := (textsOf "parser" fs).getLastD d.argumentId
  properties := (valuesOf "properties" fs).foldl addTo d.properties
  redirect := ((valuesOf "redirect" fs).map fun v => some v.names).getLastD d.redirect
  children := d.children ++ children

theorem Draft.after_nil (d : Draft) : d.after [] [] = d := by
  cases d
  simp [after, textsOf, boolsOf, valuesOf]

/-- Of several lists one after the other the last element of the last one counts. -/
theorem getLastD_append {α : Type} (l l' : List α) (a : α) :
    (l ++ l').getLastD a = l'.getLastD (l.getLastD a) := by
  simp [List.getLastD_eq_getLast?, List.getLast?_append, Option.getD_or]

theorem valuesOf_cons (name : Text) (f : Text × Json) (fs : List (Text × Json)) :
    valuesOf name (f :: fs) = valuesOf name [f] ++ valuesOf name fs :=
  List.filterMap_append (l := [f])

theorem Draft.after_cons (d : Draft) (f : Text × Json) (fs : List (Text × Json))
    (numbers numbers' : List Nat) :
    (d.after [f] numbers).after fs numbers' = d.after (f :: fs) (numbers ++ numbers') := by
  simp only [after, textsOf, boolsOf, valuesOf_cons _ f fs, List.filterMap_append, List.map_append,
    List.foldl_append, getLastD_append, List.append_assoc]

theorem valuesOf_self (name : Text) (v : Json) : valuesOf name [(name, v)] = [v] := by
  simp [valuesOf]

theorem valuesOf_other (h : field ≠ name) : valuesOf name [(field, v)] = [] := by
  simp [valuesOf, h]

theorem of_stringField {old new : Text} (h : stringField old v = .ok new) :
    ([v].filterMap text?).getLastD old = new := by
  cases v with
  | string t => exact Except.ok.inj h
  | null => exact Except.ok.inj h
  | _ => cases h

theorem of_boolField {old new : Bool} (h : boolField old v = .ok new) :
    ([v].filterMap bool?).getLastD old = new := by
  cases v with
  | bool b => exact Except.ok.inj h
  | null => exact Except.ok.inj h
  | _ => cases h

theorem of_pathField {path : List Text} (h : pathField v = .ok path) : v.names = path := by
  cases v with
  | array items =>
    have hitems := Grammar.forall₂_of_mapM_eq_ok h
    clear h
    induction hitems with
    | nil => rfl
    | @cons item name items path hitem _ ih =>
      have hname : item.text?.getD [] = name := by
        cases item with
        | string t => exact Except.ok.inj hitem
        | null => exact Except.ok.inj hitem
        | _ => cases hitem
      exact congrArg₂ List.cons hname ih
  | null => exact Except.ok.inj h
  | _ => cases h

theorem of_propertiesField {old new : Argument.Properties} (h : propertiesField old v = .ok new) :
    v.addTo old = new := by
  cases v with
  | object fs => exact Except.ok.inj h
  | null => exact Except.ok.inj h
  | _ => cases h

/-- A field other than the children changes what it says it does. -/
theorem Draft.after_of_set (hfield : field ≠ "children") (h : d.set field v = .ok d') :
    d.after [(field, v)] [] = d' := by
  unfold Draft.set at h
  -- One by one, the names of the fields that are known.
  iterate 5
    split at h
    next hname =>
      obtain rfl := eq_of_beq hname
      obtain ⟨new, hnew, h⟩ := exists_of_bind_eq_ok h
      cases h
      simp +decide only [after, textsOf, boolsOf, valuesOf_self, valuesOf_other]
      first
      | rw [← of_stringField hnew]
      | rw [← of_boolField hnew]
      | rw [← of_propertiesField hnew]
      | rw [← of_pathField hnew]
      simp
  cases h
  simp_all [after, textsOf, boolsOf, valuesOf_other]

theorem of_nodeType? {word : Text} {type : NodeType} (h : nodeType? word = some type) :
    word = type.word := by
  unfold nodeType? at h
  iterate 3
    split at h
    next hword =>
      cases h
      exact eq_of_beq hword
  cases h

/-- A complete draft is the node that its fields declare. -/
theorem Draft.of_node_after {fs : List (Text × Json)} {numbers : List Nat} {n : OpenNode}
    (h : (Draft.after {} fs numbers).node name = .ok n) :
    ∃ type, (textsOf "type" fs).getLastD [] = NodeType.word type ∧
      n = (declaredHead name type fs).open numbers := by
  unfold Draft.node at h
  split at h
  · cases h
  next type htype =>
    refine ⟨type, of_nodeType? htype, ?_⟩
    cases h
    have hredirect : ((valuesOf "redirect" fs).map fun v => some v.names).getLastD none =
        (valuesOf "redirect" fs).getLast?.map names := by
      rw [List.getLastD_eq_getLast?, List.getLast?_map]
      cases (valuesOf "redirect" fs).getLast? <;> rfl
    rw [declaredHead, ← hredirect]
    rfl

end Drafts

end GrammarLoader

/-! ### Growing arenas -/

namespace CommandTree

theorem indices_append (first : Nat) (ts us : List CommandTree) :
    indices first (ts ++ us) = indices first ts ++ indices (first + sizes ts) us := by
  induction ts generalizing first with
  | nil => simp [indices, sizes]
  | cons t ts ih => simp only [List.cons_append, indices, sizes, ih, Nat.add_assoc]

theorem numbers_append (first : Nat) (ts us : List CommandTree) :
    numbers first (ts ++ us) = numbers first ts ++ numbers (first + sizes ts) us := by
  induction ts generalizing first with
  | nil => simp [numbers, sizes]
  | cons t ts ih =>
    simp only [List.cons_append, numbers, sizes, ih, Nat.add_assoc, List.append_assoc]

end CommandTree

namespace GrammarLoader

open CommandTree

variable {arena arena₁ arena' : Arena} {ts us : List CommandTree} {n : Nat}

/-- The nodes of some trees have been added to the arena, numbered from its end on. -/
def Grows (arena : Arena) (ts : List CommandTree) (arena' : Arena) : Prop :=
  arena'.toList = arena.toList ++ numbers arena.size ts

theorem Grows.refl (arena : Arena) : Grows arena [] arena := by
  rw [Grows, numbers, List.append_nil]

theorem Grows.size (h : Grows arena ts arena') : arena'.size = arena.size + sizes ts := by
  rw [← Array.length_toList, h, List.length_append, Array.length_toList, length_numbers]

theorem Grows.trans (h : Grows arena ts arena₁) (h' : Grows arena₁ us arena') :
    Grows arena (ts ++ us) arena' := by
  rw [Grows, h', h, h.size, numbers_append, List.append_assoc]

/-- The place of a node is filled after its children have been added. -/
theorem Grows.fill {name : Text} {head : NodeHead}
    (h : Grows (arena.push (placeholder name)) ts arena') :
    Grows arena [.node head ts]
      (arena'.set! arena.size (head.open (indices (arena.size + 1) ts))) := by
  have hsize : (arena.push (placeholder name)).size = arena.size + 1 := Array.size_push _
  rw [Grows, Array.set!_eq_setIfInBounds, Array.toList_setIfInBounds, h, Array.toList_push, hsize,
    numbers, number, numbers, List.append_nil, List.append_assoc]
  simp

/-! ### Reading nodes -/

/-- A declaration of a node was read: the general reader finds a value there, and the tree that this
    value declares was added to the arena. -/
def ReadsNode (name : Text) (arena : Arena) (t : Text) (r : Nat × Arena × Text) : Prop :=
  ∃ depth v tree, Json.readValue depth t = .ok (v, r.2.2) ∧ Declares name v tree ∧
    r.1 = arena.size ∧ Grows arena [tree] r.2.1

/-- Declarations of children were read, from fields of an object. -/
def ReadsChildren (first : Bool) (arena : Arena) (t : Text) (r : List Nat × Arena × Text) : Prop :=
  ∃ depth fs ts, Json.Fields (Json.readValue depth) first t fs r.2.2 ∧
    List.Forall₂ (fun f t => Declares f.1 f.2 t) fs ts ∧ r.1 = indices arena.size ts ∧
    Grows arena ts r.2.1

/-- Fields of a node were read. -/
def ReadsFields (draft : Draft) (first : Bool) (arena : Arena) (t : Text)
    (r : Draft × Arena × Text) : Prop :=
  ∃ depth fs ts, Json.Fields (Json.readValue depth) first t fs r.2.2 ∧
    List.Forall₂ (fun f t => Declares f.1 f.2 t) (Json.membersOf "children" fs) ts ∧
    r.1 = draft.after fs (indices arena.size ts) ∧ Grows arena ts r.2.1

/-- What the steps of the loader with a bound of `n` do. -/
structure Sound (n : Nat) : Prop where
  node : ∀ {inField name arena t r}, node n inField name arena t = .ok r → ReadsNode name arena t r
  fields : ∀ {name draft first arena t r}, fields n name draft first arena t = .ok r →
    ReadsFields draft first arena t r
  children : ∀ {first arena t r}, childNodes n first arena t = .ok r → ReadsChildren first arena t r

/-- The place of a node is taken before its children are numbered. -/
theorem Sound.node_succ (h : Sound n) {inField : Bool} {name t : Text} {r : Nat × Arena × Text}
    (hnode : GrammarLoader.node (n + 1) inField name arena t = .ok r) :
    ReadsNode name arena t r := by
  rw [GrammarLoader.node] at hnode
  obtain ⟨u, hopen, hnode⟩ := exists_of_bind_eq_ok hnode
  obtain ⟨⟨draft, arena', rest⟩, hfields, hnode⟩ := exists_of_bind_eq_ok hnode
  obtain ⟨filled, hfilled, hnode⟩ := exists_of_bind_eq_ok hnode
  cases hnode
  obtain ⟨depth, fs, ts, hread, hdeclares, rfl, hgrows⟩ := h.fields hfields
  obtain ⟨type, htype, rfl⟩ := Draft.of_node_after hfilled
  rw [Array.size_push]
  exact ⟨depth + 1, .object fs, _, hread.readValue (skipSpace_of_openObject hopen),
    .node htype hdeclares, rfl, hgrows.fill⟩

/-- Children are numbered one after the other. -/
theorem Sound.children_succ (h : Sound n) {first : Bool} {t : Text} {r : List Nat × Arena × Text}
    (hchildren : childNodes (n + 1) first arena t = .ok r) : ReadsChildren first arena t r := by
  rw [childNodes] at hchildren
  obtain ⟨⟨field, u⟩, hnext, hchildren⟩ := exists_of_bind_eq_ok hchildren
  rcases of_nextField hnext with ⟨rfl, hclose⟩ | ⟨name, start, w, rfl, hstart, hquote, hname⟩
  · cases hchildren
    exact ⟨0, [], [], .close hclose, .nil, rfl, .refl arena⟩
  · obtain ⟨mid, hcolon, hchildren⟩ := exists_of_bind_eq_ok hchildren
    obtain ⟨⟨child, arena₁, after⟩, hnode, hchildren⟩ := exists_of_bind_eq_ok hchildren
    obtain ⟨⟨children, arena', rest⟩, hothers, hchildren⟩ := exists_of_bind_eq_ok hchildren
    cases hchildren
    obtain ⟨depth, v, tree, hread, hdeclares, rfl, hgrows⟩ := h.node hnode
    obtain ⟨depth', fs, ts, hfields, hall, rfl, hgrows'⟩ := h.children hothers
    have hkey := readKey_eq hquote hname (skipSpace_of_objectColon hcolon)
    -- The larger of the two depths serves both readers.
    have hvalue := Json.readValue_mono (Nat.le_max_left depth depth') _ _ _ hread
    have hrest := hfields.mono (Json.readValue_mono (Nat.le_max_right depth depth'))
    refine ⟨_, _, tree :: ts, .field hstart hkey hvalue hrest, .cons hdeclares hall, ?_,
      hgrows.trans hgrows'⟩
    rw [hgrows.size, indices]
    simp [sizes]

/-- One field was read: its children were added to the arena, and the draft holds the rest. -/
theorem Sound.field (h : Sound n) {draft draft' : Draft} {start w key u rest : Text}
    (hquote : Json.skipSpace start = 0x22 :: w) (hname : Json.readString w = .ok (key, u))
    (hfield : GrammarLoader.field (childNodes n true) draft key arena u =
      .ok (draft', arena', rest)) :
    ∃ depth v ts mid, Json.readKey start = .ok (key, mid) ∧
      Json.readValue depth mid = .ok (v, rest) ∧
      List.Forall₂ (fun f t => Declares f.1 f.2 t) (Json.membersOf "children" [(key, v)]) ts ∧
      draft' = draft.after [(key, v)] (indices arena.size ts) ∧ Grows arena ts arena' := by
  unfold GrammarLoader.field at hfield
  split at hfield
  next hchildren =>
    obtain rfl := eq_of_beq hchildren
    obtain ⟨mid, hcolon, hfield⟩ := exists_of_bind_eq_ok hfield
    obtain ⟨body, hopen, hfield⟩ := exists_of_bind_eq_ok hfield
    obtain ⟨⟨numbers, arena', rest⟩, hread, hfield⟩ := exists_of_bind_eq_ok hfield
    cases hfield
    obtain ⟨depth, fs, ts, hfields, hall, rfl, hgrows⟩ := h.children hread
    refine ⟨depth + 1, .object fs, ts, mid,
      readKey_eq hquote hname (skipSpace_of_objectColon hcolon),
      hfields.readValue (skipSpace_of_openObject hopen), ?_, ?_, hgrows⟩
    · simpa [Json.membersOf, valuesOf_self, Json.members] using hall
    · simp +decide [Draft.after, Json.textsOf, Json.boolsOf, valuesOf_other]
  next hother =>
    have hother : key ≠ "children" := fun hkey => hother (beq_iff_eq.mpr hkey)
    obtain ⟨⟨v, rest⟩, hread, hfield⟩ := exists_of_bind_eq_ok hfield
    obtain ⟨draft', hset, hfield⟩ := exists_of_bind_eq_ok hfield
    cases hfield
    obtain ⟨mid, hcolon, hvalue⟩ := of_fieldValue hread
    refine ⟨Json.maxDepth, v, [], mid, readKey_eq hquote hname hcolon, hvalue, ?_,
      (Draft.after_of_set hother hset).symm, .refl arena⟩
    simp [Json.membersOf, valuesOf_other hother]

theorem Sound.fields_succ (h : Sound n) {name t : Text} {draft : Draft} {first : Bool}
    {r : Draft × Arena × Text}
    (hfields : GrammarLoader.fields (n + 1) name draft first arena t = .ok r) :
    ReadsFields draft first arena t r := by
  rw [GrammarLoader.fields] at hfields
  obtain ⟨⟨key?, u⟩, hnext, hfields⟩ := exists_of_bind_eq_ok hfields
  rcases of_nextField hnext with ⟨rfl, hclose⟩ | ⟨key, start, w, rfl, hstart, hquote, hname⟩
  · cases hfields
    exact ⟨0, [], [], .close hclose, .nil, (draft.after_nil).symm, .refl arena⟩
  · dsimp only at hfields
    split at hfields
    · cases hfields
    next draft₁ arena₁ after hfield =>
      obtain ⟨depth, v, ts, mid, hkey, hvalue, hdeclares, rfl, hgrows⟩ :=
        h.field hquote hname hfield
      obtain ⟨depth', fs, ts', hrest, hall, hdraft, hgrows'⟩ := h.fields hfields
      have hvalue := Json.readValue_mono (Nat.le_max_left depth depth') _ _ _ hvalue
      have hrest := hrest.mono (Json.readValue_mono (Nat.le_max_right depth depth'))
      refine ⟨_, _, ts ++ ts', .field hstart hkey hvalue hrest, ?_, ?_, hgrows.trans hgrows'⟩
      · rw [Json.membersOf, valuesOf_cons, List.flatMap_append]
        exact List.rel_append hdeclares hall
      · rw [hdraft, Draft.after_cons, indices_append, hgrows.size]

/-- Every step of the loader adds what the document declares. -/
theorem sound (n : Nat) : Sound n := by
  induction n with
  | zero =>
    constructor
    · intro _ _ _ _ _ h
      cases h
    · intro _ _ _ _ _ _ h
      cases h
    · intro _ _ _ _ h
      cases h
  | succ n ih => exact ⟨ih.node_succ, ih.fields_succ, ih.children_succ⟩

end GrammarLoader

/-! ### Grammars -/

namespace Grammar

variable {document : Text} {g : Grammar}

/-- A grammar that is read from a document is that of the tree which the document declares. -/
theorem exists_of_ofJson (h : ofJson document = .ok g) :
    ∃ depth v rest t, Json.readValue depth document = .ok (v, rest) ∧ Declares [] v t ∧
      ofTree t = .ok g := by
  obtain ⟨⟨i, arena, rest⟩, hnode, hnodes⟩ := exists_of_bind_eq_ok h
  obtain ⟨depth, v, t, hread, hdeclares, -, hgrows⟩ := (GrammarLoader.sound _).node hnode
  refine ⟨depth, v, rest, t, hread, hdeclares, ?_⟩
  rw [GrammarLoader.Grows, CommandTree.numbers, CommandTree.numbers, List.append_nil] at hgrows
  rw [ofTree, ← hnodes]
  exact congrArg ofNodes hgrows.symm

/-- Every grammar that is read from a document is closed. -/
theorem closed_ofJson (h : ofJson document = .ok g) : g.Closed := by
  obtain ⟨-, -, -, t, -, -, htree⟩ := exists_of_ofJson h
  exact closed_ofTree htree

end Grammar

end DatapackDebug
