import DatapackDebug.Proofs.Continuations

namespace DatapackDebug

/-!
# Pieces tile their function

The pieces of a function lie one after the other between its entry and its return, and every line of
the function is found once when they are read in order: most lines stand in a piece, and a line that
calls a function or is a breakpoint ends one.

* `Partition.sourceLines` — the lines that a piece stands for;
* `flatMap_sourceLines_pieces`, `flatMap_sourceLines_segments` — reading pieces is reading segments,
  and the segments of a line are read as the line;
* `NumberedFrom.pairwise_boundaries` — entry, cuts and return increase;
* `TilesLines` — what it means that pieces tile a function;
* `split_tiles` — the pieces of a function do.
-/

variable {l : SourceLine} {ls : List SourceLine} {bs : Breakpoints}

/-! ### Reading a function back from its pieces -/

/-- The line that ends a piece without being in it.  A call tells its line, and a breakpoint of the
    source is the one in the line where the piece stops. -/
def Terminator.ownLine? (source : List SourceLine) (stop : Position) :
    Terminator → Option SourceLine
  | .call number text c => some ⟨number, text, .call c⟩
  | .static => source.find? fun l => l.number == stop.line && l.line == .breakpoint
  | _ => none

/-- The lines of a function that a piece stands for: its own, and the one that ends it. -/
def Partition.sourceLines (source : List SourceLine) (p : Partition) : List SourceLine :=
  p.lines ++ (p.terminator.ownLine? source p.stop).toList

/-- The line that a segment stands for. -/
def Segment.sourceLines (source : List SourceLine) : Segment → List SourceLine
  | .line l => [l]
  | .cut stop terminator => (terminator.ownLine? source stop).toList

/-- Pieces are read as the segments that they are made of. -/
theorem flatMap_sourceLines_pieces (source : List SourceLine) (last : Nat) (start : Position)
    (pending : List SourceLine) (ss : List Segment) :
    (pieces last start pending ss).flatMap (Partition.sourceLines source)
      = pending ++ ss.flatMap (Segment.sourceLines source) := by
  induction ss generalizing start pending with
  | nil => simp [Partition.sourceLines, Terminator.ownLine?]
  | cons s ss ih =>
    cases s with
    | line l => rw [pieces, ih, List.flatMap_cons, List.append_assoc, Segment.sourceLines]
    | cut stop terminator =>
      rw [pieces, List.flatMap_cons, ih, List.flatMap_cons, List.nil_append, ← List.append_assoc]
      rfl

/-- The cut of a breakpoint that is set stands for no line. -/
theorem flatMap_sourceLines_breakpointCut (source : List SourceLine) (bs : Breakpoints)
    (p : Position) :
    ((breakpointCut bs p).map fun c => Segment.cut c.1 c.2).flatMap (Segment.sourceLines source) =
      [] := by
  rw [List.flatMap_map, List.flatMap_eq_nil_iff]
  intro c hc
  obtain ⟨-, b, -, hb⟩ : c.1 = p ∧ ∃ b, bs.at? p = some b ∧ b.terminator? p.place = some c.2 :=
    mem_breakpointCut_iff.mp hc
  have hnone : c.2.ownLine? source c.1 = none := by
    unfold Breakpoint.terminator? at hb
    split at hb <;> simp at hb <;> rw [← hb] <;> rfl
  simp [Segment.sourceLines, hnone]

/-- The segments of a line are read as the line, if breakpoints of the source are found by their
    numbers. -/
theorem flatMap_sourceLines_segments {source : List SourceLine} (bs : Breakpoints)
    (hfind : l.line = .breakpoint →
      source.find? (fun l' => l'.number == l.number && l'.line == .breakpoint) = some l) :
    (l.segments bs).flatMap (Segment.sourceLines source) = [l] := by
  have hcut := flatMap_sourceLines_breakpointCut source bs
  cases hl : l.line with
  | breakpoint =>
    simp only [SourceLine.segments, cuts, hl]
    show (source.find? fun l' => l'.number == l.number && l'.line == .breakpoint).toList ++ [] = [l]
    rw [hfind hl]
    rfl
  | call call =>
    have hown : Segment.sourceLines source
        (.cut ⟨l.number, .function⟩ (.call l.number l.text call)) = [l] := by
      rw [Segment.sourceLines, Terminator.ownLine?, ← hl]
      rfl
    simp only [SourceLine.segments, cuts, hl, List.map_append, List.flatMap_append, hcut,
      List.map_cons, List.map_nil, List.flatMap_cons, List.flatMap_nil, hown]
    rfl
  | _ =>
    simp only [SourceLine.segments, cuts, hl, List.flatMap_append, hcut]
    rfl

/-- Lines of a numbered list that have the same number are the same. -/
theorem NumberedFrom.eq_of_number_eq {k : Nat} (h : NumberedFrom k ls) {l' : SourceLine}
    (hl : l ∈ ls) (hl' : l' ∈ ls) (hnumber : l.number = l'.number) : l = l' := by
  obtain ⟨i, hi⟩ := List.mem_iff_getElem?.mp hl
  obtain ⟨j, hj⟩ := List.mem_iff_getElem?.mp hl'
  have hli := h.number_of_getElem? hi
  have hlj := h.number_of_getElem? hj
  have hij : i = j := by omega
  rw [hij] at hi
  exact Option.some.inj (hi.symm.trans hj)

/-- A breakpoint of the source is found by its number. -/
theorem NumberedFrom.find?_breakpoint {k : Nat} {source : List SourceLine}
    (h : NumberedFrom k source) (hl : l ∈ source) (hline : l.line = .breakpoint) :
    source.find? (fun l' => l'.number == l.number && l'.line == .breakpoint) = some l := by
  cases hfind : source.find? fun l' => l'.number == l.number && l'.line == .breakpoint with
  | none =>
    have hnot := List.find?_eq_none.mp hfind l hl
    simp [hline] at hnot
  | some l' =>
    have hnumber : l'.number = l.number := by
      have hfound := List.find?_some hfind
      simp only [Bool.and_eq_true, beq_iff_eq] at hfound
      exact hfound.1
    rw [h.eq_of_number_eq (List.mem_of_find?_eq_some hfind) hl hnumber]

/-! ### The order of the boundaries -/

/-- The cuts of a line are in the line, after an entry and before a return. -/
theorem position_of_mem_cuts {c : Cut} (hc : c ∈ (cuts bs l).1) :
    c.1.line = l.number ∧ 0 < c.1.place.rank ∧ c.1.place.rank < 4 := by
  have hmem := (map_fst_cuts_sublist bs l).subset (List.mem_map_of_mem hc)
  simp only [List.mem_cons, List.not_mem_nil, or_false] at hmem
  rcases hmem with h | h | h <;> rw [h] <;> simp [Place.rank]

/-- The positions where the segments of numbered lines are cut. -/
theorem NumberedFrom.mem_positions (h : NumberedFrom 1 ls) {p : Position}
    (hp : p ∈ (ls.flatMap (SourceLine.segments bs)).filterMap Segment.position?) :
    1 ≤ p.line ∧ p.line ≤ ls.length ∧ 0 < p.place.rank ∧ p.place.rank < 4 := by
  rw [List.filterMap_flatMap, List.mem_flatMap] at hp
  obtain ⟨l, hl, hp⟩ := hp
  rw [filterMap_position?_segments, List.mem_map] at hp
  obtain ⟨c, hc, rfl⟩ := hp
  obtain ⟨hline, hrank⟩ := position_of_mem_cuts hc
  obtain ⟨i, hi⟩ := List.mem_iff_getElem?.mp hl
  have hnumber := h.number_of_getElem? hi
  have hlt : i < ls.length := (List.getElem?_eq_some_iff.mp hi).1
  exact ⟨by omega, by omega, hrank⟩

/-- The entry of a function, its cuts and its return increase. -/
theorem NumberedFrom.pairwise_boundaries (bs : Breakpoints) (h : NumberedFrom 1 ls) :
    (⟨1, .entry⟩ :: ((ls.flatMap (SourceLine.segments bs)).filterMap Segment.position? ++
      [⟨max 1 ls.length, .return⟩])).Pairwise fun p q : Position => p.compare q = .lt := by
  have hmem : ∀ p ∈ (ls.flatMap (SourceLine.segments bs)).filterMap Segment.position?,
      1 ≤ p.line ∧ p.line ≤ ls.length ∧ 0 < p.place.rank ∧ p.place.rank < 4 :=
    fun p hp => h.mem_positions hp
  rw [List.pairwise_cons, List.pairwise_append]
  refine ⟨?_, (NumberedFrom.pairwise_positions bs h).1, List.pairwise_singleton .., ?_⟩
  · intro p hp
    apply Position.compare_eq_lt
    rcases List.mem_append.mp hp with hp | hp
    · obtain ⟨hone, -, hrank, -⟩ := hmem p hp
      show 1 < p.line ∨ 1 = p.line ∧ 0 < p.place.rank
      omega
    · rw [List.mem_singleton.mp hp]
      show 1 < max 1 ls.length ∨ 1 = max 1 ls.length ∧ 0 < 4
      omega
  · intro p hp q hq
    rw [List.mem_singleton.mp hq]
    apply Position.compare_eq_lt
    obtain ⟨-, hlast, -, hrank⟩ := hmem p hp
    show p.line < max 1 ls.length ∨ p.line = max 1 ls.length ∧ p.place.rank < 4
    omega

/-- Where the boundaries of segments increase, so do the two ends of each piece. -/
theorem compare_of_mem_pieces {last : Nat} {start : Position} {pending : List SourceLine}
    {ss : List Segment}
    (h : (start :: (ss.filterMap Segment.position? ++ [⟨last, .return⟩])).Pairwise
      fun p q : Position => p.compare q = .lt)
    {part : Partition} (hpart : part ∈ pieces last start pending ss) :
    part.start.compare part.stop = .lt := by
  induction ss generalizing start pending with
  | nil =>
    rw [List.mem_singleton.mp hpart]
    exact List.rel_of_pairwise_cons h (by simp)
  | cons s ss ih =>
    cases s with
    | line l => exact ih h hpart
    | cut stop terminator =>
      rw [List.filterMap_cons] at h
      rcases List.mem_cons.mp hpart with rfl | hpart
      · exact List.rel_of_pairwise_cons h (by simp)
      · exact ih (List.Pairwise.of_cons h) hpart

/-! ### The return -/

/-- No cut of a line is the return. -/
theorem terminator_ne_return_of_mem_cuts {c : Cut} (hc : c ∈ (cuts bs l).1) : c.2 ≠ .return := by
  have hbreakpoint : ∀ p, c ∈ breakpointCut bs p → c.2 ≠ .return := by
    intro p hp hreturn
    obtain ⟨-, b, -, hb⟩ : c.1 = p ∧ ∃ b, bs.at? p = some b ∧ b.terminator? p.place = some c.2 :=
      mem_breakpointCut_iff.mp hp
    have hresumable := Breakpoint.isResumable_of_terminator? hb
    rw [hreturn] at hresumable
    exact absurd hresumable (by decide)
  cases hl : l.line with
  | breakpoint =>
    simp only [cuts, hl, List.mem_singleton] at hc
    rw [hc]
    exact Terminator.noConfusion
  | call call =>
    simp only [cuts, hl, List.mem_append, List.mem_singleton] at hc
    rcases hc with (hc | hc) | hc
    · exact hbreakpoint _ hc
    · rw [hc]
      exact Terminator.noConfusion
    · exact hbreakpoint _ hc
  | _ => exact hbreakpoint ⟨l.number, .breakpoint⟩ (by simpa only [cuts, hl] using hc)

/-- Only the last of some pieces ends with the return, in the last line. -/
theorem exists_pieces_eq_concat (last : Nat) (start : Position) (pending : List SourceLine)
    {ss : List Segment} (hss : ∀ stop, .cut stop .return ∉ ss) :
    ∃ front final, pieces last start pending ss = front ++ [final] ∧
      final.stop = ⟨last, .return⟩ ∧ final.terminator = .return ∧
      ∀ part ∈ front, part.terminator ≠ .return := by
  induction ss generalizing start pending with
  | nil => exact ⟨[], _, rfl, rfl, rfl, by simp⟩
  | cons s ss ih =>
    have hrest : ∀ stop, .cut stop .return ∉ ss := fun stop h => hss stop (List.mem_cons_of_mem _ h)
    cases s with
    | line l => exact ih start (pending ++ [l]) hrest
    | cut stop terminator =>
      obtain ⟨front, final, hpieces, hstop, hreturn, hfront⟩ := ih stop [] hrest
      refine ⟨⟨start, stop, pending, terminator⟩ :: front, final, ?_, hstop, hreturn, ?_⟩
      · rw [pieces, hpieces, List.cons_append]
      · intro part hpart
        rcases List.mem_cons.mp hpart with rfl | hpart
        · rintro rfl
          exact hss stop (List.mem_cons_self ..)
        · exact hfront part hpart

/-- Only the last piece of a function ends with the return, in its last line. -/
theorem exists_split_eq_concat (lines : List SourceLine) (bs : Breakpoints) :
    ∃ front final, split lines bs = front ++ [final] ∧ final.stop = ⟨max 1 lines.length, .return⟩ ∧
      final.terminator = .return ∧ ∀ part ∈ front, part.terminator ≠ .return := by
  have hcuts : ∀ stop, .cut stop .return ∉ lines.flatMap (SourceLine.segments bs) := by
    intro stop hmem
    obtain ⟨l, -, hcut⟩ := (Function.cut_mem_segments_iff (f := ⟨⟨[], []⟩, [], lines⟩)).mp hmem
    exact terminator_ne_return_of_mem_cuts hcut rfl
  rw [split, splitFrom_eq_pieces]
  exact exists_pieces_eq_concat _ _ [] hcuts

/-! ### Tilings -/

/-- Pieces tile a function that has these lines. -/
structure TilesLines (lines : List SourceLine) (parts : List Partition) : Prop where
  /-- there is a first piece, and it starts at the entry -/
  first : parts.head?.map (·.start) = some ⟨1, .entry⟩
  /-- each piece stops where the next one starts -/
  adjacent : ∀ x ∈ followed parts, x.1.stop = x.2.start
  /-- each piece starts before it stops -/
  increasing : ∀ part ∈ parts, part.start.lt part.stop = true
  /-- no two pieces start at the same position -/
  distinct : (parts.map (·.start)).Nodup
  /-- the last piece stops at the end of the last line -/
  last : parts.getLast?.map (·.stop) = some ⟨max 1 lines.length, .return⟩
  /-- the last piece ends with the return, and no other one does -/
  returns : ∀ i part, parts[i]? = some part → (part.terminator = .return ↔ i + 1 = parts.length)
  /-- read in order, the pieces give every line once -/
  source : parts.flatMap (Partition.sourceLines lines) = lines

/-- Breakpoints and calls cut a function into pieces that tile it, wherever the breakpoints are
    set. -/
theorem split_tiles {lines : List SourceLine} (hlines : NumberedFrom 1 lines) (bs : Breakpoints) :
    TilesLines lines (split lines bs) := by
  have hsplit : split lines bs =
      pieces (max 1 lines.length) ⟨1, .entry⟩ [] (lines.flatMap (SourceLine.segments bs)) :=
    splitFrom_eq_pieces ..
  obtain ⟨part, parts, hcons, hstart⟩ :=
    exists_pieces_eq_cons (max 1 lines.length) ⟨1, .entry⟩ []
      (lines.flatMap (SourceLine.segments bs))
  obtain ⟨front, final, hconcat, hstop, hreturn, hfront⟩ := exists_split_eq_concat lines bs
  rw [hsplit] at hconcat
  rw [hsplit]
  constructor
  case first => rw [hcons, List.head?_cons, Option.map_some, hstart]
  case adjacent => exact fun x hx => stop_of_mem_followed_pieces hx
  case increasing =>
    intro part hpart
    have hlt := compare_of_mem_pieces (hlines.pairwise_boundaries bs) hpart
    rw [Position.lt, hlt]
    rfl
  case distinct =>
    have hnodup := Function.Numbered.nodup_starts (f := ⟨⟨[], []⟩, [], lines⟩) hlines bs
    rwa [hsplit] at hnodup
  case last => rw [hconcat, List.getLast?_concat, Option.map_some, hstop]
  case returns =>
    intro i part hpart
    rw [hconcat] at hpart ⊢
    rw [List.length_append, List.length_singleton]
    rcases Nat.lt_trichotomy i front.length with hlt | heq | hgt
    · rw [List.getElem?_append_left hlt] at hpart
      have hne := hfront part (List.mem_of_getElem? hpart)
      exact ⟨fun h => absurd h hne, fun h => absurd h (by omega)⟩
    · rw [heq, List.getElem?_concat_length] at hpart
      rw [← Option.some.inj hpart]
      exact ⟨fun _ => by omega, fun _ => hreturn⟩
    · rw [List.getElem?_eq_none (by rw [List.length_append, List.length_singleton]; omega)] at hpart
      cases hpart
  case source =>
    rw [flatMap_sourceLines_pieces, List.nil_append, List.flatMap_assoc]
    have hline : ∀ l ∈ lines, (l.segments bs).flatMap (Segment.sourceLines lines) = [l] :=
      fun l hl =>
      flatMap_sourceLines_segments bs fun hbreakpoint => hlines.find?_breakpoint hl hbreakpoint
    rw [List.flatMap_congr hline, List.flatMap_singleton']

/-- A function whose second line calls another one, and whose last line calls it again. -/
def callingLines : List SourceLine :=
  let call : FunctionCall := ⟨⟨"test", "other"⟩, none, 0, {}⟩
  [⟨1, "say 1", .other {} none⟩, ⟨2, "function test:other", .call call⟩,
    ⟨3, "# breakpoint", .breakpoint⟩, ⟨4, "function test:other", .call call⟩]

/-- Breakpoints around both calls, one where the source has one, and two without effect. -/
def callingBreakpoints : Breakpoints :=
  [(⟨1, .breakpoint⟩, ⟨.invalid, []⟩), (⟨1, .afterFunction⟩, ⟨.normal, []⟩),
    (⟨2, .breakpoint⟩, ⟨.normal, []⟩),
    (⟨2, .afterFunction⟩, ⟨.step, "if score current -ns-_depth matches ..1"⟩),
    (⟨3, .breakpoint⟩, ⟨.normal, []⟩), (⟨4, .afterFunction⟩, ⟨.continue, []⟩)]

/-- The second line ends three pieces, two of which have no lines, and the last line ends two. -/
theorem callingLines_tiled :
    NumberedFrom 1 callingLines ∧ TilesLines callingLines (split callingLines callingBreakpoints) ∧
    (split callingLines callingBreakpoints).map
      (fun part => (part.start, part.lines.map (·.number))) =
      [(⟨1, .entry⟩, [1]), (⟨2, .breakpoint⟩, []), (⟨2, .function⟩, []), (⟨2, .afterFunction⟩, []),
        (⟨3, .breakpoint⟩, []), (⟨4, .function⟩, []), (⟨4, .afterFunction⟩, [])] := by
  have hlines : NumberedFrom 1 callingLines := ⟨rfl, rfl, rfl, rfl, trivial⟩
  exact ⟨hlines, split_tiles hlines callingBreakpoints, by decide⟩

end DatapackDebug
