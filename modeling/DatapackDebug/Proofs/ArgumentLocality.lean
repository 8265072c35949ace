import DatapackDebug.Proofs.BracketLocality
import DatapackDebug.Proofs.DocumentRange

namespace DatapackDebug

/-!
# Arguments depend on their own text

Every kind of argument is read within the input, so that the length of an argument and the position
of a failure are places in the input.  An argument ends at a blank or at the end of the line.  What
is read for it, and how long it is, does not depend on what follows the blank.

* `Argument.local_coordinates`, `Argument.local_time`, … — numbers of several parts;
* `Argument.local_nbtTag`, `Argument.local_nbtPath` — tags and paths into them;
* `Argument.local_selector` — selectors, with the positions of their options;
* `Argument.local_block`, `Argument.local_item` — what may follow a name directly;
* `Argument.Kind.local_scan` — every kind of argument but components and those that take everything;
* `Argument.Kind.parse_ok`, `Argument.Kind.parse_error` — the length of an argument and the position
  of a failure lie within the input, and tell where the reader stood;
* `parse_independent_of_rest` — the value and the length of an argument of a grammar depend on its
  own text.
-/

namespace Argument

variable {base t : Text} {rest input : Text} {kind : Kind}

/-! ### Next bytes -/

section

variable {b b' : Option UInt8} (h : b.getD Text.blank = b'.getD Text.blank)
include h

/-- A byte other than a blank is next in both or in neither. -/
theorem beq_some_of_getD_eq {c : UInt8} (hc : c ≠ Text.blank) : (b == some c) = (b' == some c) := by
  cases b <;> cases b' <;> grind

/-- The end of a text counts as a blank does. -/
theorem filter_of_getD_eq : b.filter (· != Text.blank) = b'.filter (· != Text.blank) := by
  cases b <;> cases b' <;> grind

end

/-! ### Words -/

theorem local_wordOf (what : Subject) : Again base SameStop (wordOf what) :=
  .bind local_word fun _ => .check (.fail _) fun _ => .pure rfl

/-- Chunks end at a blank. -/
theorem local_chunkOf (what : Subject) : Again base SameStop (chunkOf what) :=
  .bind (local_spanOf rfl) fun _ => .check (.fail _) fun _ => .pure rfl

/-- A phrase is quoted or a word. -/
theorem local_phraseOf (what : Subject) : Again base SameStop (phraseOf what) := by
  refine .bind local_phrase? fun s => ?_
  cases s with
  | none => exact .fail _
  | some s => exact .pure rfl

/-- Operations and axes are chunks, and fail where they start. -/
theorem local_operation : Again base SameStop operation := by
  refine .get_bind fun start hstart _ => .bind (local_chunkOf _) fun op => ?_
  exact .ite (.pure rfl) (.failAt _ hstart)

theorem local_swizzle : Again base SameStop swizzle := by
  refine .get_bind fun start hstart _ => .bind (local_chunkOf _) fun axes => ?_
  exact .ite (.pure rfl) (.failAt _ hstart)

/-- An anchor fails where it starts, unless there is nothing at all. -/
theorem local_anchor : Again base SameStop anchor := by
  refine .get_bind fun start hstart _ => .bind local_word fun w => ?_
  exact .ite (.pure rfl) (.ite (.pure rfl) (.ite (.fail _) (.failAt _ hstart)))

theorem local_uuid : Again base SameStop uuid := by
  refine .get_bind fun start hstart _ => .bind (local_spanOf rfl) fun text => ?_
  refine .check (.fail _) fun _ => ?_
  cases uuid? text with
  | none => exact .failAt _ hstart
  | some id => exact .pure rfl

/-! ### Numbers of several parts -/

/-- A relative angle may have no number. -/
theorem local_angle : Again base SameStop angle := by
  refine .peek_bind_of_some (fun _ => ⟨_, rfl⟩) (fun _ => ⟨_, rfl⟩) fun c hc => ?_
  refine .check (.fail _) fun _ => .bind (local_accept (by decide)) fun relative => ?_
  refine .peek_bind fun b b' hb => ?_
  rw [any_eq_of_getD_eq rfl hb]
  exact .ite (.pure rfl) ((local_decimal _ _ _).map _)

/-- What follows the mark of a coordinate that starts at `start`. -/
def coordinateValue (shape : CoordinatesShape) (start : Text) (kind : CoordinateKind) :
    Scan Coordinate := do
  if !(← peek?).any isNumberByte then
    if kind == .absolute then failAt start .missingCoordinate
    return ⟨kind, .zero⟩
  if shape.integral && kind == .absolute then
    return ⟨kind, .ofIntDouble (← integer32)⟩
  return ⟨kind, ← double⟩

/-- Where a coordinate starts matters for failures alone. -/
theorem local_coordinateValue (shape : CoordinatesShape) {start : Text} (hstart : start <:+ base)
    (start' : Text) (kind : CoordinateKind) :
    Local base SameStop Eq (coordinateValue shape start kind)
      (coordinateValue shape start' kind) := by
  refine .peek_bind fun b b' hb => ?_
  rw [any_eq_of_getD_eq rfl hb]
  refine .ite (.check (.failAt _ hstart) fun _ => .pure rfl) (.ite ?_ ?_)
  · exact (local_integer _ _ _).map _
  · exact (local_decimal _ _ _).map _

/-- A coordinate depends on its mark and its number, however the mark was found. -/
theorem local_coordinate (shape : CoordinatesShape) : Again base SameStop (coordinate shape) := by
  refine .get_bind fun start hstart start' => .bind (local_accept (by decide)) fun relative => ?_
  have hvalue := local_coordinateValue shape hstart start'
  have hmark : ∀ kind : CoordinateKind, Again base AnyRest (pure kind : Scan CoordinateKind) :=
    fun _ => .pure rfl
  refine .ite (.bind (hmark _) hvalue) (.peek_bind fun b b' hb => ?_)
  rw [beq_some_of_getD_eq hb (by decide)]
  refine .ite (.check (.fail _) fun _ => .bind (local_accept (by decide)) fun _ => ?_) ?_
  · exact .bind (hmark _) hvalue
  · exact .bind (hmark _) hvalue

/-- A byte that is no blank stands behind a single one. -/
theorem exists_of_singleBlank (h : singleBlank t = true) :
    ∃ c u, t = Text.blank :: c :: u ∧ c ≠ Text.blank := by
  unfold singleBlank at h
  split at h
  · next b c u =>
    simp only [Bool.and_eq_true, beq_iff_eq, bne_iff_ne] at h
    exact ⟨c, u, by rw [h.1], h.2⟩
  · cases h

/-- Coordinates go on behind single blanks. -/
theorem local_moreCoordinates (shape : CoordinatesShape) (n : Nat) :
    Again base SameStop (moreCoordinates shape n) := by
  induction n with
  | zero => exact .pure rfl
  | succ n ih =>
    -- A blank goes on only if it is single, which the byte behind it decides; that byte belongs to
    -- what is taken.
    let others : Scan (List Coordinate) := do
      let first ← coordinate shape
      return first :: (← moreCoordinates shape n)
    have hlocal : Again base SameStop others := .bind (local_coordinate shape) fun first => ih.map _
    have hstep : ∀ {c : UInt8}, c ≠ Text.blank → ∀ u,
        moreCoordinates shape (n + 1) (Text.blank :: c :: u) = others (c :: u) := by
      intro c hc u
      have hsingle : singleBlank (Text.blank :: c :: u) = true := by simpa [singleBlank] using hc
      rw [moreCoordinates, get_bind_eq, hsingle]
      exact bind_eq (accept_same Text.blank (c :: u)) _
    intro t ht
    cases hsingle : singleBlank t with
    | false =>
      have herror : moreCoordinates shape (n + 1) t =
          .error ⟨.incompleteCoordinates shape.count, t⟩ := by
        rw [moreCoordinates, get_bind_eq, hsingle]
        rfl
      exact .of_error herror ht
    | true =>
      obtain ⟨c, u, rfl, hc⟩ := exists_of_singleBlank hsingle
      have hothers := hlocal (c :: u) ((List.suffix_cons _ _).trans ht)
      refine ⟨fun cs rest hok => ?_, fun failure herror => ?_⟩
      · rw [hstep hc] at hok
        obtain ⟨front, hfront, hagain⟩ := hothers.ok cs rest hok
        refine ⟨Text.blank :: front, congrArg _ hfront, fun rest' hrest' => ?_⟩
        -- The byte behind the blank is the same, as it is no blank.
        have hstop : SameStop (c :: u) (front ++ rest') := hfront ▸ Behind.append hrest' front
        obtain ⟨u', hu'⟩ := List.head?_eq_some_iff.mp (hstop.head?_eq rfl hc)
        obtain ⟨_, rfl, hmore⟩ := hagain rest' hrest'
        rw [hu'] at hmore
        rw [List.cons_append, hu', hstep hc]
        exact ⟨cs, rfl, hmore⟩
      · exact hothers.error failure ((hstep hc u).symm.trans herror)

/-- Coordinates that do not fit together fail where they start. -/
theorem local_coordinates (shape : CoordinatesShape) : Again base SameStop (coordinates shape) := by
  refine .get_bind fun start hstart _ => ?_
  refine .peek_bind_of_some (fun _ => ⟨_, rfl⟩) (fun _ => ⟨_, rfl⟩) fun c hc => ?_
  refine .check (.fail _) fun _ => .bind (local_coordinate shape) fun first => ?_
  refine .bind (local_moreCoordinates shape _) fun others => ?_
  exact .check (.failAt _ hstart) fun _ => .pure rfl

theorem local_timeUnit : Again base SameStop timeUnit := by
  refine .bind (local_accept (by decide)) fun days => .ite (.pure rfl) ?_
  refine .bind (local_accept (by decide)) fun seconds => .ite (.pure rfl) ?_
  exact .bind (local_accept (by decide)) fun _ => .pure rfl

/-- A time is a number with its unit. -/
theorem local_time (least : Int) : Again base SameStop (time least) := by
  refine .get_bind fun start hstart _ => .bind (local_decimal _ _ _) fun v => ?_
  refine .bind local_timeUnit fun unit => ?_
  exact .check (.failAt _ hstart) fun _ => .pure rfl

/-! ### Tags and paths -/

/-- The bound of the reader of tags is the length of the text, and any larger one does. -/
theorem local_nbtTag : Again base SameStop nbtTag := by
  have hbound : ∀ t n, t.length < n → nbtTag t = nbtTagWithin n t := by
    intro t n hn
    rw [nbtTag_eq]
    exact nbtTagWithin_bound (Nat.lt_succ_self _) hn
  exact .of_bound local_nbtTagWithin hbound hbound

/-- A compound starts with its brace, or there is none. -/
theorem local_nbtCompound? : Again base SameStop nbtCompound? := by
  refine .peek_bind fun b b' hb => ?_
  rw [beq_some_of_getD_eq hb (by decide)]
  exact .ite (local_nbtCompound.weaken.map _) (.pure rfl)

/-- Keys of paths are quoted or runs of bytes. -/
theorem local_nbtPathKey : Again base SameStop nbtPathKey := by
  refine .peek_bind fun b b' hb => ?_
  rw [any_eq_of_getD_eq rfl hb]
  refine .ite local_quotedString.weaken (.bind (local_spanOf rfl) fun key => ?_)
  exact .check (.fail _) fun _ => .pure rfl

/-- What stands between the brackets of a path, if anything does. -/
def nbtSubscript : Scan NbtPathNode := do
  match ← nbtCompound? with
  | some filter => return .elements (some filter)
  | none => return .element (← integer32)

theorem local_nbtSubscript : Again base SameStop nbtSubscript := by
  refine .bind local_nbtCompound? fun filter => ?_
  cases filter with
  | none => exact (local_integer _ _ _).map _
  | some filter => exact .pure rfl

/-- The bracket behind a subscript. -/
def nbtSubscriptEnd (node : NbtPathNode) : Scan NbtPathNode := do
  if (← get).isEmpty then fail .unclosedIndex
  require ']' (.missingByte ']')
  return node

theorem nbtSubscriptEnd_cons (node : NbtPathNode) (b : UInt8) (u : Text) :
    nbtSubscriptEnd node (b :: u) =
      (do require 0x5d (.missingByte 0x5d); return node : Scan NbtPathNode) (b :: u) := rfl

/-- Nothing but the bracket is taken. -/
theorem eq_cons_of_nbtSubscriptEnd {node node' : NbtPathNode}
    (h : nbtSubscriptEnd node t = .ok (node', rest)) : t = 0x5d :: rest ∧ node = node' := by
  cases t with
  | nil => cases h
  | cons b u =>
    rw [nbtSubscriptEnd_cons] at h
    obtain ⟨_, mid, hrequire, hpure⟩ := of_bind_eq_ok h
    cases hpure
    exact ⟨eq_cons_of_require hrequire, rfl⟩

theorem local_nbtSubscriptEnd (node : NbtPathNode) : Again base AnyRest (nbtSubscriptEnd node) := by
  intro t ht
  refine ⟨fun node' rest hok => ?_, fun failure herror => ?_⟩
  · obtain ⟨rfl, rfl⟩ := eq_cons_of_nbtSubscriptEnd hok
    exact ⟨[0x5d], rfl, fun rest' _ => ⟨node, rfl, rfl⟩⟩
  · cases t with
    | nil =>
      cases herror
      exact ht
    | cons b u =>
      rw [nbtSubscriptEnd_cons] at herror
      exact ((local_require _ _).map _ _ ht).error failure herror

/-- Behind blanks, too, the bracket is taken. -/
theorem takes_nbtSubscriptEnd (node : NbtPathNode) :
    Takes (do skipBlanks; nbtSubscriptEnd node) := by
  refine .of_next (fun _ => local_skipBlanks.stays) fun _ t node' rest h => ?_
  rw [(eq_cons_of_nbtSubscriptEnd h).1]
  exact Nat.lt_succ_self _

/-- Brackets of a path hold nothing, or a subscript. -/
theorem nbtPathIndex_eq : nbtPathIndex = (do
    skipBlanks
    if ← accept ']' then return .elements none
    let node ← nbtSubscript
    skipBlanks
    nbtSubscriptEnd node) := by
  refine congrArg (skipBlanks >>= ·) (funext fun _ => congrArg (accept ']' >>= ·) ?_)
  funext closed
  rw [nbtSubscript, bind_assoc]
  refine congrArg (ite _ _) (congrArg (nbtCompound? >>= ·) (funext fun filter => ?_))
  cases filter with
  | none => exact (bind_assoc ..).symm
  | some filter => rfl

/-- The bracket that closes a subscript is taken, so nothing depends on what follows it. -/
theorem local_nbtPathIndex : Again base AnyRest nbtPathIndex := by
  have htakes : Takes (do let node ← nbtSubscript; skipBlanks; nbtSubscriptEnd node) :=
    .of_next (fun _ => local_nbtSubscript.stays) takes_nbtSubscriptEnd
  rw [nbtPathIndex_eq]
  refine .bind_takes local_skipBlanks (fun _ => .accept_bind 0x5d (.pure rfl) ?_ htakes)
    fun _ => .accept_bind (fun t node rest h => ?_) htakes
  · refine .bind_takes local_nbtSubscript (fun node => ?_) takes_nbtSubscriptEnd
    refine .bind_takes local_skipBlanks (fun _ => local_nbtSubscriptEnd node)
      fun _ t node' rest h => ?_
    rw [(eq_cons_of_nbtSubscriptEnd h).1]
    exact Nat.lt_succ_self _
  · cases h
    exact Nat.le_refl _

/-- A path ends before a blank outside of its brackets. -/
theorem local_nbtPathNodes (n : Nat) (state : NbtPathState) :
    Again base SameStop (nbtPathNodes n state) := by
  induction n generalizing state with
  | zero => exact .fail _
  | succ n ih =>
    refine .peek_bind fun b b' hb => ?_
    -- The end of the text and a blank both end a path.
    rw [filter_of_getD_eq hb]
    split
    · exact .fail _
    · exact .fail _
    · exact .pure rfl
    · refine .ite ?_ (.ite ?_ ?_)
      · refine .bind (local_accept (by decide)) fun dot => .ite (ih _) ?_
        refine .bind (local_accept (by decide)) fun bracket => .ite ?_ (.fail _)
        exact .bind local_nbtPathIndex fun node => (ih _).map _
      · exact .bind local_nbtCompound fun filter => (ih _).map _
      · refine .bind local_nbtPathKey fun key => .bind local_nbtCompound? fun filter => ?_
        exact (ih _).map _

theorem nbtPath_eq (t : Text) : nbtPath t = nbtPathNodes (t.length + 1) .start t := by
  rw [nbtPath, get_bind_eq]

/-- Compounds take at least their brace. -/
theorem takes_nbtCompound : Takes nbtCompound := by
  have htakes : ∀ n, Takes (nbtCompoundOf (nbtTagWithin n)) := by
    intro n
    refine (takes_require _ _).bind fun _ base => ?_
    exact (local_bracketed_eq (.inr rfl) (fun _ => local_nbtEntry (local_nbtTagWithin n)) _ _).stays
  intro t entries rest h
  rw [nbtCompound_eq] at h
  exact htakes t.length t entries rest h

/-- A run of bytes that is not empty. -/
theorem length_lt_of_spanOf {p : UInt8 → Bool} {run : Text} (h : spanOf p t = .ok (run, rest))
    (hrun : run.isEmpty = false) : rest.length < t.length := by
  rw [(spanOf_eq_ok_iff.mp h).1, List.length_append]
  have hpos : 0 < run.length := List.length_pos_of_ne_nil (by simpa using hrun)
  omega

/-- Keys of paths are not empty. -/
theorem takes_nbtPathKey : Takes nbtPathKey := by
  refine .of_next (fun _ => local_peek?.stays) fun b => ?_
  dsimp only
  split
  · exact takes_quotedString
  · intro t key rest h
    obtain ⟨key', mid, hspan, h⟩ := of_bind_eq_ok h
    cases hempty : key'.isEmpty with
    | true =>
      rw [hempty] at h
      cases h
    | false =>
      rw [hempty] at h
      cases h
      exact length_lt_of_spanOf hspan hempty

/-- Each node of a path takes a byte. -/
theorem nbtPathNodes_bound {n m : Nat} {state : NbtPathState} (hn : t.length < n)
    (hm : t.length < m) : nbtPathNodes n state t = nbtPathNodes m state t := by
  refine loop_bound (fun n m state t ih => ?_) hn hm
  -- After something was read that takes a byte, the rest of the path is shorter.
  have hrest : ∀ {rest : Text} {node : NbtPathNode}, rest.length < t.length →
      (nbtPathNodes n .node >>= fun nodes => pure (node :: nodes) : Scan (List NbtPathNode)) rest =
        (nbtPathNodes m .node >>= fun nodes => pure (node :: nodes)) rest :=
    fun hlt => bind_eq_of_eq (ih _ _ hlt) _
  rw [nbtPathNodes, nbtPathNodes]
  refine bind_congr local_peek?.stays rfl fun b t₁ hpeek ht₁ => ?_
  have hle := ht₁.length_le
  cases Option.filter (· != Text.blank) b with
  | none => cases state <;> rfl
  | some b =>
    dsimp only
    split
    · refine bind_congr (local_accept (by decide)).stays rfl fun dot t₂ hdot ht₂ => ?_
      have hle₂ := ht₂.length_le
      cases dot with
      | true =>
        rw [if_pos rfl, if_pos rfl]
        rw [eq_cons_of_accept hdot, List.length_cons] at hle
        exact ih _ _ (by omega)
      | false =>
        rw [if_neg Bool.false_ne_true, if_neg Bool.false_ne_true]
        refine bind_congr (local_accept (by decide)).stays rfl fun bracket t₃ hbracket _ => ?_
        cases bracket with
        | false => rw [if_neg Bool.false_ne_true, if_neg Bool.false_ne_true]
        | true =>
          rw [if_pos rfl, if_pos rfl]
          rw [eq_cons_of_accept hbracket, List.length_cons] at hle₂
          refine bind_congr local_nbtPathIndex.stays rfl fun node t₄ _ ht₄ => hrest ?_
          have hle₄ := ht₄.length_le
          omega
    split
    · refine bind_congr local_nbtCompound.stays rfl fun filter t₂ hfilter _ => hrest ?_
      have hlt := takes_nbtCompound _ _ _ hfilter
      omega
    · refine bind_congr local_nbtPathKey.stays rfl fun key t₂ hkey _ => ?_
      refine bind_congr local_nbtCompound?.stays rfl fun filter t₃ _ ht₃ => hrest ?_
      have hlt := takes_nbtPathKey _ _ _ hkey
      have hle₃ := ht₃.length_le
      omega

/-- The bound of the reader of paths is the length of the text, and any larger one does. -/
theorem local_nbtPath : Again base SameStop nbtPath := by
  have hbound : ∀ t n, t.length < n → nbtPath t = nbtPathNodes n .start t := by
    intro t n hn
    rw [nbtPath_eq]
    exact nbtPathNodes_bound (Nat.lt_succ_self _) hn
  exact .of_bound (fun n => local_nbtPathNodes n .start) hbound hbound

/-! ### Selectors and entities -/

/-- Rests whose lengths differ as two lengths do. -/
def Shifted (total total' : Nat) (u u' : Text) : Prop := u.length + total' = u'.length + total

instance (total total' : Nat) : Behind (Shifted total total') (Shifted total total') where
  append {u u'} h front := by
    have hlength : u.length + total' = u'.length + total := h
    show (front ++ u).length + total' = (front ++ u').length + total
    simp only [List.length_append]
    omega

/-- Options are found again at the same distance from the start. -/
theorem local_selectorOptions (total total' : Nat) :
    Local base (Shifted total total') Eq (selectorOptions total) (selectorOptions total') := by
  have hoption : ∀ base, Local base (Separating (Shifted total total')) Eq (selectorOption total)
      (selectorOption total') := by
    refine fun base => local_selectorOption_of fun t t' ht key negated value => ?_
    have hlength : t.length + total' = t'.length + total := ht
    have hoffset : total - t.length = total' - t'.length := by omega
    rw [hoffset]
  rw [← List.forall₂_eq_eq_eq]
  exact local_bracketed_of (.inl rfl) (fun _ => rfl) (stays_selectorOption total') hoption

/-- The positions of the options count from the start of the selector. -/
theorem local_selector : Again base SameStop selector := by
  intro t ht
  constructor
  · intro s rest hok
    obtain ⟨b, type, u, rfl, hletter, hcase⟩ := selector_eq_ok_iff.mp hok
    rcases hcase with ⟨v, options, rfl, rfl, hoptions⟩ | ⟨hhead, rfl, rfl⟩
    · -- The length of the new text counts what the options take, so that is found first, at any
      -- length.
      obtain ⟨front, rfl, -⟩ := (local_selectorOptions _ 0).found hoptions
      refine ⟨0x40 :: b :: 0x5b :: front, rfl, fun rest' _ => ⟨_, rfl, selector_eq_ok_iff.mpr ?_⟩⟩
      refine ⟨b, type, _, rfl, hletter, .inl ⟨front ++ rest', options, rfl, rfl, ?_⟩⟩
      obtain ⟨front', hfront', hlocal⟩ :=
        (local_selectorOptions _ (0x40 :: b :: 0x5b :: front ++ rest').length).found hoptions
      obtain rfl : front = front' := List.append_cancel_right hfront'
      have hshifted : Shifted (0x40 :: b :: 0x5b :: (front ++ rest)).length
          (0x40 :: b :: 0x5b :: front ++ rest').length rest rest' := by
        show rest.length + _ = rest'.length + _
        simp only [List.length_cons, List.length_append]
        omega
      obtain ⟨_, rfl, hoptions'⟩ := hlocal rest' hshifted
      exact hoptions'
    · -- Without options, only an opening bracket must not follow.
      refine ⟨[0x40, b], rfl, fun rest' hrest' => ⟨_, rfl, selector_eq_ok_iff.mpr ?_⟩⟩
      refine ⟨b, type, rest', rfl, hletter, .inr ⟨fun hopen => hhead ?_, rfl, rfl⟩⟩
      exact (SameStop.head?_eq_some_iff hrest' (by decide)).mpr hopen
  · intro failure herror
    rw [selector, get_bind_eq] at herror
    split at herror
    next b u =>
      have hletter : b :: u <:+ base := (List.suffix_cons _ _).trans ht
      cases htype : SelectorType.ofLetter? b with
      | none =>
        rw [htype] at herror
        cases herror
        exact hletter
      | some type =>
        rw [htype] at herror
        dsimp only at herror
        rw [set_bind_eq] at herror
        have hoptions : ∀ total, Again base NoRest (selectorOptions total) :=
          fun total => (local_selectorOptions total total).weaken
        refine (Local.stays (C := NoRest) (R := Eq) (.bind (local_accept (by decide)) fun opened =>
          .ite ((hoptions _).map _) (.pure rfl)) u ((List.suffix_cons _ _).trans hletter)).error
          failure herror
    next =>
      cases herror
      exact ht

/-- Entities are selectors, ids or names. -/
theorem local_entity (single playersOnly : Bool) :
    Again base SameStop (entity single playersOnly) := by
  refine .get_bind fun start hstart _ => .peek_bind fun b b' hb => ?_
  rw [beq_some_of_getD_eq hb (by decide)]
  refine .ite ?_ ?_
  · refine .bind local_selector fun s => .check (.failAt _ hstart) fun _ => ?_
    exact .check (.failAt _ hstart) fun _ => .pure rfl
  · exact .bind (local_spanOf rfl) fun text => .check (.fail _) fun _ => .pure rfl

/-- Score holders are selectors, all of them or names. -/
theorem local_scoreHolder (single : Bool) : Again base SameStop (scoreHolder single) := by
  refine .get_bind fun start hstart _ => .peek_bind fun b b' hb => ?_
  rw [beq_some_of_getD_eq hb (by decide)]
  refine .ite ?_ ?_
  · exact .bind local_selector fun s => .check (.failAt _ hstart) fun _ => .pure rfl
  · exact .bind (local_spanOf rfl) fun text => .check (.fail _) fun _ => .pure rfl

/-! ### Blocks, items and particles -/

/-- Properties fail in one way or another, depending on the rest, but they fail. -/
theorem local_blockProperty : Again base SameSeparator blockProperty := by
  refine .bind local_phrase? fun key => ?_
  cases key with
  | none =>
    -- Which error it is depends on the rest, but it is an error.
    refine .get_bind fun v _ v' w hw => ?_
    dsimp only
    split <;> exact .of_error rfl hw
  | some key =>
    refine .bind local_skipBlanks fun _ => .bind (local_require _ _) fun _ => ?_
    refine .bind local_skipBlanks fun _ => .bind local_phrase? fun value => ?_
    cases value with
    | none => exact .fail _
    | some value => exact .pure rfl

theorem local_blockProperties? : Again base SameStop blockProperties? := by
  refine .bind (local_accept (by decide)) fun opened => .ite ?_ (.pure rfl)
  exact (local_bracketed_eq (.inl rfl) (fun _ => local_blockProperty) _ _).weaken.map _

/-- A block is a name, possibly with properties and data. -/
theorem local_block (allowTag : Bool) : Again base SameStop (block allowTag) := by
  refine .peek_bind fun b b' hb => ?_
  rw [beq_some_of_getD_eq hb (by decide)]
  refine .check (.fail _) fun _ => .bind local_resourceRef fun name => ?_
  exact .bind local_blockProperties? fun properties => local_nbtCompound?.map _

section

variable {opener b : UInt8} {n m : Nat} {depth : Int}

/-- Brackets in strings do not count. -/
theorem balanced_quote (hb : isQuote b = true) (u : Text) :
    balanced opener (n + 1) depth (b :: u) =
      (quotedBody b >>= fun _ => balanced opener n depth) u := by
  have hquoted : quotedString (b :: u) = quotedBody b u := if_pos hb
  show (if _ then _ else _ : Scan Unit) (b :: u) = _
  rw [if_pos hb]
  show (quotedString (b :: u) >>= _) = (quotedBody b u >>= _)
  rw [hquoted]

/-- Each other byte may open or close brackets. -/
theorem balanced_byte (hb : isQuote b = false) (u : Text) :
    balanced opener (n + 1) depth (b :: u) =
      (if depth + depthChange b == 0 && depthChange b == -1 then pure ()
        else balanced opener n (depth + depthChange b) : Scan Unit) u := by
  show (if _ then _ else _ : Scan Unit) (b :: u) = _
  rw [if_neg (Bool.eq_false_iff.mp hb)]
  rfl

/-- Brackets end with the one that closes the first. -/
theorem local_balanced (opener : UInt8) (n : Nat) (depth : Int) :
    Again base AnyRest (balanced opener n depth) := by
  induction n generalizing depth with
  | zero => exact .fail _
  | succ n ih =>
    intro t ht
    cases t with
    | nil => exact .of_error rfl ht
    | cons b u =>
      -- Either way the first byte is taken, and what follows it does not depend on the rest.
      obtain ⟨inner, hlocal, hstep⟩ : ∃ inner : Scan Unit, Again base AnyRest inner ∧
          ∀ v, balanced opener (n + 1) depth (b :: v) = inner v := by
        cases hquote : isQuote b with
        | true => exact ⟨_, .bind (local_quotedBody b) fun _ => ih depth, balanced_quote hquote⟩
        | false => exact ⟨_, .ite (.pure rfl) (ih _), balanced_byte hquote⟩
      have heq : ∀ v, balanced opener (n + 1) depth ([b] ++ v) =
          (inner v).map fun r => (r.1, r.2) := by
        intro v
        rw [List.singleton_append, hstep]
        cases inner v <;> rfl
      exact LocalAt.behind id (hlocal u ((List.suffix_cons b u).trans ht)) (heq u) heq

/-- Each turn takes a byte or a string. -/
theorem balanced_bound (hn : t.length < n) (hm : t.length < m) :
    balanced opener n depth t = balanced opener m depth t := by
  refine loop_bound (fun n m depth t ih => ?_) hn hm
  cases t with
  | nil => rfl
  | cons b u =>
    cases hquote : isQuote b with
    | true =>
      rw [balanced_quote hquote, balanced_quote hquote]
      refine bind_congr (local_quotedBody b).stays rfl fun s rest _ hrest => ih _ _ ?_
      exact Nat.lt_succ_of_le hrest.length_le
    | false =>
      rw [balanced_byte hquote, balanced_byte hquote]
      split
      · rfl
      · exact ih _ _ (Nat.lt_succ_self _)

end

/-- Components of items end with their bracket. -/
theorem local_itemComponents : Again base SameStop itemComponents := by
  -- The bound is the length of the text, rest and all; any larger one gives the same.
  let components (n : Nat) : Scan Text := do return (← taken (balanced '[' n 0)).2
  have hcomponents : Again base SameStop (do components ((← get).length + 1)) := by
    have hbound : ∀ t n, t.length < n →
        (do components ((← get).length + 1) : Scan Text) t = components n t := by
      intro t n hn
      have htaken : taken (balanced '[' (t.length + 1) 0) t = taken (balanced '[' n 0) t := by
        rw [taken, taken, balanced_bound (Nat.lt_succ_self _) hn]
      rw [get_bind_eq]
      exact bind_eq_of_eq htaken _
    refine .of_bound (fun n => ?_) hbound hbound
    exact (local_taken (local_balanced _ n 0)).weaken.map _
  refine .peek_bind fun b b' hb => ?_
  rw [beq_some_of_getD_eq hb (by decide)]
  exact .ite hcomponents (.pure rfl)

/-- An item is a name or a mark, possibly with components and data. -/
theorem local_item (allowTag : Bool) : Again base SameStop (item allowTag) := by
  refine .peek_bind fun b b' hb => ?_
  rw [beq_some_of_getD_eq hb (by decide)]
  refine .check (.fail _) fun _ => .ite_bind (local_accept (by decide)) (.pure rfl) fun any => ?_
  refine .ite_bind (.pure rfl) (local_resourceRef.map _) fun name => ?_
  exact .bind local_itemComponents fun components => local_nbtCompound?.map _

theorem local_particle : Again base SameStop particle :=
  .bind local_resource fun _ => local_nbtCompound?.map _

/-! ### Components and other texts that may go on -/

/-- JSON is read within the text. -/
theorem jsonComponent?_suffix {v : Json} (h : jsonComponent? t = some (v, rest)) : rest <:+ t := by
  unfold jsonComponent? at h
  split at h
  · cases h
    exact List.nil_suffix
  · next v' b rest' hread =>
    split at h
    · cases h
      exact Json.leaves_readValue _ _ _ _ hread
    · cases h
  · cases h

/-- A component is a value of JSON or a tag, whichever can be read. -/
theorem local_componentValue : Again base NoRest componentValue := by
  intro t ht
  cases hjson : jsonComponent? t with
  | some found =>
    exact .of_ok (by rw [componentValue, hjson]) (jsonComponent?_suffix hjson)
  | none =>
    have htag := (local_nbtTag : Again base SameStop nbtTag) t ht
    cases hnbt : nbtTag t with
    | ok r => exact .of_ok (by rw [componentValue, hjson, hnbt]) (htag.suffix hnbt)
    | error failure =>
      have heq : componentValue t = .error ⟨componentCause t failure.cause, failure.rest⟩ := by
        rw [componentValue, hjson, hnbt]
      exact .of_error heq (htag.error failure hnbt)

theorem local_component : Again base NoRest component := by
  refine .bind local_peek? fun b => ?_
  cases b with
  | none => exact .fail _
  | some b => exact .check (.fail _) fun _ => (local_taken local_componentValue).map _

theorem local_greedy : Again base NoRest greedy := fun _ _ => .of_ok rfl List.nil_suffix

/-! ### Kinds of arguments -/

/-- Does the kind take everything that is left? -/
def Kind.isGreedy : Kind → Bool
  | .message => true
  | .string type => type == "greedy"
  | _ => false

/-- Strings that do not take everything are phrases or words. -/
theorem local_stringScan {type : Text} (htype : (type == "greedy") = false) :
    Again base SameStop (stringScan type) := by
  have hscan : stringScan type = (do
      if type == "phrase" then return .string (← phraseOf .string)
      else return .string (← wordOf .word)) := by
    simp [stringScan, htype]
  rw [hscan]
  exact .ite ((local_phraseOf _).map _) ((local_wordOf _).map _)

/-- Every kind of argument is found again where something else follows, components apart. -/
theorem Kind.local_scan (hgreedy : kind.isGreedy = false) (hcomponent : kind ≠ .component) :
    Again base SameDots kind.scan := by
  -- Only ranges look further than the next byte.
  have hstop : ∀ {α : Type} {scan : Scan α} (f : α → Value), Again base SameStop scan →
      Again base SameDots (do return f (← scan)) :=
    fun _ h => (h.map _).weaken
  cases kind with
  | bool => exact hstop _ local_boolean
  | integer bounds => exact hstop _ (local_integer _ _ _)
  | long bounds => exact hstop _ (local_integer _ _ _)
  | float bounds => exact hstop _ (local_decimal _ _ _)
  | double bounds => exact hstop _ (local_decimal _ _ _)
  | string type => exact (local_stringScan hgreedy).weaken
  | word => exact hstop _ (local_wordOf _)
  | objective => exact hstop _ (local_wordOf _)
  | criterion => exact hstop _ (local_chunkOf _)
  | operation => exact hstop _ local_operation
  | swizzle => exact hstop _ local_swizzle
  | anchor => exact hstop _ local_anchor
  | message => cases hgreedy
  | angle => exact hstop _ local_angle
  | range decimals => exact (local_range _).map _
  | coordinates shape => exact hstop _ (local_coordinates _)
  | time least => exact hstop _ (local_time _)
  | resource => exact hstop _ local_resource
  | resourceOrTag => exact hstop _ local_resourceRef
  | function => exact hstop _ local_resourceRef
  | entity single playersOnly => exact hstop _ (local_entity _ _)
  | scoreHolder single => exact hstop _ (local_scoreHolder _)
  | uuid => exact hstop _ local_uuid
  | nbtCompound => exact hstop _ local_nbtCompound.weaken
  | nbtTag => exact hstop _ local_nbtTag
  | nbtPath => exact hstop _ local_nbtPath
  | component => exact absurd rfl hcomponent
  | block allowTag => exact hstop _ (local_block _)
  | item allowTag => exact hstop _ (local_item _)
  | particle => exact hstop _ local_particle
  | unknown id => exact hstop _ (local_chunkOf _)

/-- Every kind of argument is read within the input. -/
theorem Kind.stays_scan (kind : Kind) : StaysIn base kind.scan := by
  by_cases hcomponent : kind = .component
  · subst hcomponent
    exact (local_component.map Value.component).stays
  cases hgreedy : kind.isGreedy with
  | false => exact (Kind.local_scan hgreedy hcomponent).stays
  | true =>
    have hraw : StaysIn base (do return Value.raw (← greedy)) := (local_greedy.map _).stays
    cases kind with
    | message => exact hraw
    | string type =>
      obtain rfl : type = "greedy" := eq_of_beq hgreedy
      exact hraw
    | _ => cases hgreedy

/-- The length of an argument is at most that of the input, and the reader stood behind it. -/
theorem Kind.parse_ok {value : Value} {length : Nat} (h : kind.parse input = .ok (value, length)) :
    length ≤ input.length ∧ kind.scan input = .ok (value, input.drop length) := by
  unfold Kind.parse at h
  cases hscan : kind.scan input with
  | error failure =>
    rw [hscan] at h
    cases h
  | ok r =>
    obtain ⟨value', rest⟩ := r
    rw [hscan] at h
    cases h
    have hrest : rest <:+ input :=
      (kind.stays_scan input (List.suffix_refl input)).ok _ _ hscan
    refine ⟨Nat.sub_le .., ?_⟩
    rw [← List.suffix_iff_eq_drop.mp hrest]

/-- An argument is read if its reader stops at its end. -/
theorem Kind.parse_eq_ok_iff {value : Value} {length : Nat} :
    kind.parse input = .ok (value, length) ↔
      length ≤ input.length ∧ kind.scan input = .ok (value, input.drop length) := by
  refine ⟨Kind.parse_ok, fun ⟨hle, hscan⟩ => ?_⟩
  rw [Kind.parse, hscan]
  simp [Nat.sub_sub_self hle]

/-- The position of a failure is within the input or at its end, and the reader stood there. -/
theorem Kind.parse_error {e : ParseError} (h : kind.parse input = .error e) :
    e.offset ≤ input.length ∧ kind.scan input = .error ⟨e.cause, input.drop e.offset⟩ := by
  unfold Kind.parse at h
  cases hscan : kind.scan input with
  | ok r =>
    rw [hscan] at h
    cases h
  | error failure =>
    rw [hscan] at h
    cases h
    have hrest : failure.rest <:+ input :=
      (kind.stays_scan input (List.suffix_refl input)).error _ hscan
    refine ⟨Nat.sub_le .., ?_⟩
    rw [← List.suffix_iff_eq_drop.mp hrest]

/-- A text at which an argument ends: nothing is left, or a blank follows. -/
def Ends (rest : Text) : Prop := rest.head?.getD Text.blank = Text.blank

/-- No range goes on where arguments end. -/
theorem Ends.sameDots {u u' : Text} (h : Ends u) (h' : Ends u') : SameDots u u' := by
  have hnot : ∀ {v : Text}, Ends v → ¬ Dotted v := by
    intro v hv hdotted
    rw [Ends, hdotted.1] at hv
    cases hv
  exact ⟨h.trans h'.symm, iff_of_false (hnot h) (hnot h')⟩

/-- An argument that ends is read in the same way where something else follows, if that ends it,
    too. -/
theorem Kind.parse_append (hgreedy : kind.isGreedy = false) (hcomponent : kind ≠ .component)
    {v : Value} {n : Nat} (h : kind.parse input = .ok (v, n)) (hend : Ends (input.drop n))
    (hrest : Ends rest) : kind.parse (input.take n ++ rest) = .ok (v, n) := by
  obtain ⟨hle, hscan⟩ := Kind.parse_ok h
  obtain ⟨front, hfront, hlocal⟩ := (Kind.local_scan hgreedy hcomponent).found hscan
  obtain rfl : input.take n = front := by
    have hsplit : input.take n ++ input.drop n = front ++ input.drop n :=
      (List.take_append_drop n input).trans hfront
    exact List.append_cancel_right hsplit
  obtain ⟨_, rfl, hagain⟩ := hlocal rest (hend.sameDots hrest)
  refine Kind.parse_eq_ok_iff.mpr ⟨by simp [hle], ?_⟩
  rw [hagain, List.drop_left' (by simp [hle])]

/-- Where the kind of an id comes from. -/
theorem Kind.ofId_cases (id : Text) (ps : Properties) :
    Kind.ofId id ps ∈ [.word, .resource, .unknown id] ∨ (id, Kind.ofId id ps) ∈ plainKinds ∨
      ∃ make, (id, make) ∈ propertyKinds ∧ Kind.ofId id ps = make ps := by
  have hmem : ∀ {β : Type} {entries : List (Text × β)} {x}, entries.lookup id = some x →
      (id, x) ∈ entries := by
    intro β entries x h
    obtain ⟨before, after, rfl, -⟩ := List.lookup_eq_some_iff.mp h
    simp
  unfold Kind.ofId
  split
  · simp
  split
  · simp
  split
  next h => exact .inr (.inl (hmem h))
  next h => exact .inr (.inr ⟨_, hmem h, rfl⟩)
  next => simp

/-- Only the ids of components have their kind. -/
theorem Kind.ofId_ne_component {id : Text} (hcomponent : id ≠ "minecraft:component")
    (hstyle : id ≠ "minecraft:style") (ps : Properties) : Kind.ofId id ps ≠ .component := by
  have hplain : ∀ e ∈ plainKinds, e.2 = .component → e.1 = "minecraft:component" ∨
      e.1 = "minecraft:style" := by
    decide +kernel
  have hproperty : ∀ e ∈ propertyKinds, e.2 ps ≠ .component := by simp [propertyKinds]
  intro hkind
  rcases Kind.ofId_cases id ps with hother | hmem | ⟨make, hmem, hmake⟩
  · simp [hkind] at hother
  · rcases hplain _ hmem hkind with h | h
    · exact hcomponent h
    · exact hstyle h
  · exact hproperty _ hmem (hmake.symm.trans hkind)

/-- Only messages and greedy strings take everything. -/
theorem Kind.of_isGreedy_ofId {id : Text} {ps : Properties}
    (h : (Kind.ofId id ps).isGreedy = true) :
    id = "minecraft:message" ∨ id = "brigadier:string" ∧ ps.text "type" = "greedy" := by
  have hplain : ∀ e ∈ plainKinds, e.2.isGreedy = true → e.1 = "minecraft:message" := by
    decide +kernel
  have hproperty : ∀ e ∈ propertyKinds, (e.2 ps).isGreedy = true →
      e.1 = "brigadier:string" ∧ ps.text "type" = "greedy" := by
    simp [propertyKinds, Kind.isGreedy]
  rcases Kind.ofId_cases id ps with hother | hmem | ⟨make, hmem, hmake⟩
  · have hnot : ∀ kind ∈ [Kind.word, .resource, .unknown id], kind.isGreedy = false := by
      simp [Kind.isGreedy]
    cases h.symm.trans (hnot _ hother)
  · exact .inl (hplain _ hmem h)
  · rw [hmake] at h
    exact .inr (hproperty _ hmem h)

/-- A kind that takes everything leaves nothing. -/
theorem Kind.parse_greedy (h : kind.isGreedy = true) (input : Text) :
    kind.parse input = .ok (.raw input, input.length) := by
  cases kind with
  | message => rfl
  | string type =>
    obtain rfl : type = "greedy" := eq_of_beq h
    rfl
  | _ => cases h

end Argument

/-- The value and the length of an argument depend on its own text alone. -/
theorem parse_independent_of_rest {id : Text}
    (hcomponent : id ≠ "minecraft:component") (hstyle : id ≠ "minecraft:style")
    (ps : Argument.Properties) {input : Text} {v : Argument.Value} {n : Nat}
    (h : (Argument.Kind.ofId id ps).parse input = .ok (v, n))
    (hend : n = input.length ∨ (input.drop n).head? = some Text.blank) :
    (Argument.Kind.ofId id ps).parse (input.take n) = .ok (v, n) ∧
      (¬ (id = "minecraft:message" ∨ id = "brigadier:string" ∧ ps.text "type" = "greedy") →
        ∀ t, (Argument.Kind.ofId id ps).parse (input.take n ++ Text.blank :: t) = .ok (v, n)) := by
  have hkind := Argument.Kind.ofId_ne_component hcomponent hstyle ps
  have hends : Argument.Ends (input.drop n) := by
    rcases hend with rfl | hblank
    · rw [List.drop_length]
      rfl
    · rw [Argument.Ends, hblank]
      rfl
  cases hgreedy : (Argument.Kind.ofId id ps).isGreedy with
  | true =>
    refine ⟨?_, fun hnot => absurd (Argument.Kind.of_isGreedy_ofId hgreedy) hnot⟩
    rw [Argument.Kind.parse_greedy hgreedy] at h ⊢
    cases h
    simp
  | false =>
    have hagain : ∀ rest, Argument.Ends rest →
        (Argument.Kind.ofId id ps).parse (input.take n ++ rest) = .ok (v, n) :=
      fun _ hrest => Argument.Kind.parse_append hgreedy hkind h hends hrest
    refine ⟨?_, fun _ t => hagain _ rfl⟩
    simpa using hagain [] rfl

/-- A selector with blanks and quotes in its options, before the coordinates of a teleport. -/
theorem parse_independent_of_rest_selector :
    ∃ v, (Argument.Kind.ofId "minecraft:entity" []).parse
        "@e[ nbt=\x7ba:\"x ]\"\x7d, tag=a] ~ ~ ~" = .ok (v, 25) ∧
      (Argument.Kind.ofId "minecraft:entity" []).parse "@e[ nbt=\x7ba:\"x ]\"\x7d, tag=a]" =
        .ok (v, 25) ∧
      (Argument.Kind.ofId "minecraft:entity" []).parse
        "@e[ nbt=\x7ba:\"x ]\"\x7d, tag=a] .. [" = .ok (v, 25) := by
  refine ⟨_, rfl, ?_⟩
  have hparse : (Argument.Kind.ofId "minecraft:entity" []).parse
      "@e[ nbt=\x7ba:\"x ]\"\x7d, tag=a] ~ ~ ~" = .ok (_, 25) := rfl
  obtain ⟨hsame, hother⟩ := parse_independent_of_rest (by decide) (by decide) [] hparse (by decide)
  exact ⟨hsame, hother (by decide) ".. ["⟩

end DatapackDebug
