import DatapackDebug.Proofs.Lookup

namespace DatapackDebug

/-!
# The pieces of a function as segments of its lines

The cuts of all lines, and the lines between them, are one sequence.  Pieces are what lies between
two cuts of it, so that everything about pieces is said about the sequence.

* `Segment`, `Function.segments` — lines and cuts in the order of execution;
* `split_eq_pieces` — the pieces of a function are those of its segments;
* `Function.Numbered` — the lines are numbered from one on;
* `Function.Numbered.nodup_starts` — then no two pieces start at the same position;
* `Function.Rest` — what follows a position where a piece starts;
* `Function.mem_resumeTargets_iff`, `Function.cut_mem_segments_iff` — where a program can be taken
  up again.
-/

variable {q : Position} {t : Terminator} {l : SourceLine} {bs : Breakpoints} {f : Function}

/-! ### Segments -/

/-- A line of a function, or a cut between lines. -/
inductive Segment where
  | line (l : SourceLine)
  | cut (stop : Position) (terminator : Terminator)
deriving DecidableEq, Repr

/-- The cuts of a line, and the line itself if it belongs to a piece. -/
def SourceLine.segments (bs : Breakpoints) (l : SourceLine) : List Segment :=
  (cuts bs l).1.map (fun c => .cut c.1 c.2) ++ if (cuts bs l).2 then [.line l] else []

/-- The lines and cuts of a function. -/
def Function.segments (bs : Breakpoints) (f : Function) : List Segment :=
  f.lines.flatMap (SourceLine.segments bs)

/-- The number of the line in which a function ends. -/
def Function.lastLine (f : Function) : Nat := max 1 f.lines.length

/-- The position of a cut. -/
@[simp] def Segment.position? : Segment → Option Position
  | .line _ => none
  | .cut p _ => some p

/-- The first piece of some segments, where `pending` are its lines before them. -/
@[simp] def firstPiece (last : Nat) (start : Position) (pending : List SourceLine) :
    List Segment → Partition
  | [] => ⟨start, ⟨last, .return⟩, pending, .return⟩
  | .line l :: ss => firstPiece last start (pending ++ [l]) ss
  | .cut stop terminator :: _ => ⟨start, stop, pending, terminator⟩

/-- The pieces of some segments, where `pending` are the lines of the first before them. -/
@[simp] def pieces (last : Nat) (start : Position) (pending : List SourceLine) :
    List Segment → List Partition
  | [] => [⟨start, ⟨last, .return⟩, pending, .return⟩]
  | .line l :: ss => pieces last start (pending ++ [l]) ss
  | .cut stop terminator :: ss => ⟨start, stop, pending, terminator⟩ :: pieces last stop [] ss

variable (last : Nat) (start : Position) (pending : List SourceLine)

/-- The pieces that the cuts of a line end come before those of what follows. -/
theorem pieces_cuts (cs : List Cut) (ss : List Segment) :
    pieces last start pending (cs.map (fun c => .cut c.1 c.2) ++ ss)
      = (cutPieces start pending cs).1 ++
        pieces last (cutPieces start pending cs).2.1 (cutPieces start pending cs).2.2 ss := by
  induction cs generalizing start pending with
  | nil => rfl
  | cons c cs ih => simp [cutPieces, ih]

/-- The pieces of the rest of a function are those of its segments. -/
theorem splitFrom_eq_pieces (bs : Breakpoints) (last : Nat) (start : Position)
    (pending ls : List SourceLine) :
    splitFrom bs last start pending ls
      = pieces last start pending (ls.flatMap (SourceLine.segments bs)) := by
  induction ls generalizing start pending with
  | nil => rfl
  | cons l ls ih =>
    rw [List.flatMap_cons, SourceLine.segments, List.append_assoc, pieces_cuts]
    simp only [splitFrom, ih]
    cases (cuts bs l).2 <;> rfl

/-- The pieces of a function are those of its segments. -/
theorem split_eq_pieces (f : Function) (bs : Breakpoints) :
    split f.lines bs = pieces f.lastLine ⟨1, .entry⟩ [] (f.segments bs) :=
  splitFrom_eq_pieces ..

/-- A piece starts at the beginning and at every cut. -/
theorem map_start_pieces (ss : List Segment) :
    (pieces last start pending ss).map (·.start) = start :: ss.filterMap Segment.position? := by
  induction ss generalizing start pending with
  | nil => rfl
  | cons s ss ih => cases s <;> simp [ih, List.filterMap_cons]

/-- The first piece is the first of the pieces. -/
theorem firstPiece_mem_pieces (ss : List Segment) :
    firstPiece last start pending ss ∈ pieces last start pending ss := by
  induction ss generalizing start pending with
  | nil => simp
  | cons s ss ih => cases s <;> simp [ih]

/-- The pieces after a cut are pieces of the whole. -/
theorem pieces_subset_of_cut {last : Nat} {start stop : Position} {pending : List SourceLine}
    {before after : List Segment} {terminator : Terminator} :
    pieces last stop [] after ⊆ pieces last start pending
      (before ++ .cut stop terminator :: after) := by
  induction before generalizing start pending with
  | nil => exact fun part h => List.mem_cons_of_mem _ h
  | cons s before ih =>
    cases s with
    | line l => exact ih
    | cut p t => exact fun part h => List.mem_cons_of_mem _ (ih h)

/-- The pieces end at the cuts, each with the terminator of its cut. -/
theorem mem_pieces_terminator {last : Nat} {start : Position} {pending : List SourceLine}
    {ss : List Segment} (ht : t ≠ .return) :
    (∃ part ∈ pieces last start pending ss, part.stop = q ∧ part.terminator = t) ↔
      .cut q t ∈ ss := by
  induction ss generalizing start pending with
  | nil => simp [Ne.symm ht]
  | cons s ss ih =>
    cases s with
    | line l => simpa using ih
    | cut p t' =>
      simp only [pieces, List.mem_cons, exists_eq_or_imp, ih, Segment.cut.injEq]
      rw [eq_comm (a := p), eq_comm (a := t')]

/-! ### Numbered lines -/

/-- Lines that are numbered from `k` on. -/
def NumberedFrom (k : Nat) : List SourceLine → Prop
  | [] => True
  | l :: ls => l.number = k ∧ NumberedFrom (k + 1) ls

/-- The lines of a function are numbered from one on. -/
def Function.Numbered (f : Function) : Prop := NumberedFrom 1 f.lines

/-- The number of a line of a numbered list, by its place. -/
theorem NumberedFrom.number_of_getElem? {k i : Nat} {ls : List SourceLine} (h : NumberedFrom k ls)
    (hl : ls[i]? = some l) : l.number = k + i := by
  induction ls generalizing k i with
  | nil => simp at hl
  | cons l₀ ls ih =>
    cases i with
    | zero => simp_all [NumberedFrom]
    | succ i =>
      have := ih h.2 hl
      omega

/-- The cut that a breakpoint makes. -/
theorem mem_breakpointCut_iff {p : Position} :
    (q, t) ∈ breakpointCut bs p ↔
      q = p ∧ ∃ b, bs.at? p = some b ∧ b.terminator? p.place = some t := by
  unfold breakpointCut Breakpoints.terminatorAt?
  cases hb : bs.at? p with
  | none => simp
  | some b => cases ht : b.terminator? p.place <;> simp [ht, eq_comm]

/-- A breakpoint that has an effect ends a piece. -/
theorem Breakpoint.exists_terminator? {b : Breakpoint} (h : b.type ≠ .invalid) (place : Place) :
    ∃ t, b.terminator? place = some t := by
  unfold Breakpoint.terminator?
  cases htype : b.type <;> simp_all

/-- A breakpoint makes a cut at which execution can be taken up again. -/
theorem Breakpoint.isResumable_of_terminator? {b : Breakpoint} {place : Place}
    (h : b.terminator? place = some t) : t.isResumable = true := by
  unfold Breakpoint.terminator? at h
  split at h <;> simp at h <;> subst h <;> rfl

/-- The cut of a call is where the call returns to. -/
theorem of_call_mem_cuts {line : Nat} {text : Text} {call : FunctionCall}
    (h : (q, .call line text call) ∈ (cuts bs l).1) :
    q = ⟨l.number, .function⟩ ∧ line = l.number ∧ text = l.text ∧ l.line = .call call := by
  have hnot : ∀ p, (q, .call line text call) ∉ breakpointCut bs p := fun p hmem => by
    obtain ⟨-, b, -, hb⟩ := mem_breakpointCut_iff.mp hmem
    exact absurd (Breakpoint.isResumable_of_terminator? hb) (by simp [Terminator.isResumable])
  cases hl : l.line with
  | call call' =>
    simp only [cuts, hl, List.mem_append, hnot, List.mem_singleton, Prod.mk.injEq,
      Terminator.call.injEq, false_or, or_false] at h
    obtain ⟨rfl, rfl, rfl, rfl⟩ := h
    simp
  | breakpoint => simp [cuts, hl] at h
  | _ => exact absurd (by simpa [cuts, hl] using h) (hnot _)

/-- The other cuts are before a line or after a call. -/
theorem place_of_mem_cuts (h : (q, t) ∈ (cuts bs l).1) (ht : t.isResumable = true) :
    q.place ≠ .function := by
  have hplace : ∀ p, (q, t) ∈ breakpointCut bs p → p.place ≠ .function → q.place ≠ .function :=
    fun p hmem hp => (mem_breakpointCut_iff.mp hmem).1 ▸ hp
  cases hl : l.line with
  | call call =>
    simp only [cuts, hl, List.mem_append, List.mem_singleton, Prod.mk.injEq] at h
    rcases h with (h | ⟨-, rfl⟩) | h
    · exact hplace _ h (by simp)
    · simp [Terminator.isResumable] at ht
    · exact hplace _ h (by simp)
  | breakpoint =>
    simp only [cuts, hl, List.mem_singleton, Prod.mk.injEq] at h
    simp [h.1]
  | _ => exact hplace _ (by simpa [cuts, hl] using h) (by simp)

/-- A breakpoint makes at most one cut, at its position. -/
theorem map_fst_breakpointCut_sublist (bs : Breakpoints) (p : Position) :
    ((breakpointCut bs p).map (·.1)).Sublist [p] := by
  unfold breakpointCut
  cases bs.terminatorAt? p <;> simp

/-- The positions of the cuts of a line, in order. -/
theorem map_fst_cuts_sublist (bs : Breakpoints) (l : SourceLine) :
    ((cuts bs l).1.map (·.1)).Sublist
      [⟨l.number, .breakpoint⟩, ⟨l.number, .function⟩, ⟨l.number, .afterFunction⟩] := by
  have hbefore := map_fst_breakpointCut_sublist bs ⟨l.number, .breakpoint⟩
  have hafter := map_fst_breakpointCut_sublist bs ⟨l.number, .afterFunction⟩
  cases hl : l.line with
  | breakpoint => simp [cuts, hl]
  | call call =>
    simp only [cuts, hl, List.map_append, List.append_assoc]
    exact hbefore.append ((List.Sublist.refl [_]).append hafter)
  | _ =>
    simp only [cuts, hl]
    exact hbefore.trans (List.sublist_append_left [_] _)

/-- The positions of the cuts among the segments of a line. -/
theorem filterMap_position?_segments (bs : Breakpoints) (l : SourceLine) :
    (l.segments bs).filterMap Segment.position? = (cuts bs l).1.map (·.1) := by
  rw [SourceLine.segments, List.filterMap_append, List.filterMap_map]
  have hline : (if (cuts bs l).2 then [Segment.line l] else []).filterMap Segment.position? =
      [] := by
    split <;> rfl
  rw [hline, List.append_nil]
  exact congrFun List.filterMap_eq_map _

/-- A position in an earlier line, or at an earlier place of the same line, comes before. -/
theorem Position.compare_eq_lt {p : Position}
    (h : p.line < q.line ∨ p.line = q.line ∧ p.place.rank < q.place.rank) : p.compare q = .lt := by
  rcases h with h | ⟨hline, h⟩
  · simp [Position.compare, Std.compare_eq_lt.mpr h]
  · simp [Position.compare, hline, Std.compare_eq_lt.mpr h]

/-- The cuts of numbered lines increase, and none is at an entry. -/
theorem NumberedFrom.pairwise_positions {k : Nat} {ls : List SourceLine} (bs : Breakpoints)
    (h : NumberedFrom k ls) :
    ((ls.flatMap (SourceLine.segments bs)).filterMap Segment.position?).Pairwise
        (fun p q => p.compare q = .lt) ∧
      ∀ p ∈ (ls.flatMap (SourceLine.segments bs)).filterMap Segment.position?,
        k ≤ p.line ∧ p.place ≠ .entry := by
  induction ls generalizing k with
  | nil => simp
  | cons l ls ih =>
    obtain ⟨hnumber, hrest⟩ := h
    obtain ⟨hpairwise, hmem⟩ := ih hrest
    -- Cuts of one line are ordered by their places, and those of later lines are at later lines.
    have hsub := map_fst_cuts_sublist bs l
    have hhere : ∀ p ∈ (cuts bs l).1.map (·.1), p.line = k ∧ p.place ≠ .entry := fun p hp => by
      have := hsub.subset hp
      simp only [List.mem_cons, List.not_mem_nil, or_false] at this
      rcases this with rfl | rfl | rfl <;> simp [hnumber]
    simp only [List.flatMap_cons, List.filterMap_append, filterMap_position?_segments,
      List.pairwise_append, List.mem_append]
    refine ⟨⟨?_, hpairwise, fun p hp q hq => ?_⟩, fun p hp => ?_⟩
    · refine List.Pairwise.sublist hsub ?_
      simp [Position.compare_eq_lt, Place.rank]
    · refine Position.compare_eq_lt (.inl ?_)
      have := (hhere p hp).1
      have := (hmem q hq).1
      omega
    · rcases hp with hp | hp
      · exact ⟨Nat.le_of_eq (hhere p hp).1.symm, (hhere p hp).2⟩
      · exact ⟨by have := (hmem p hp).1; omega, (hmem p hp).2⟩

/-- No two pieces of a function start at the same position. -/
theorem Function.Numbered.nodup_starts (hf : f.Numbered) (bs : Breakpoints) :
    ((split f.lines bs).map (·.start)).Nodup := by
  obtain ⟨hpairwise, hmem⟩ := NumberedFrom.pairwise_positions bs hf
  rw [split_eq_pieces, map_start_pieces, List.nodup_cons]
  refine ⟨fun h => (hmem _ h).2 rfl, hpairwise.imp fun {p q} hlt heq => ?_⟩
  simp [heq] at hlt

/-! ### Where execution goes on -/

/-- What is executed from a position on where a piece starts. -/
def Function.Rest (f : Function) (bs : Breakpoints) (q : Position) (rest : List Segment) : Prop :=
  (q = ⟨1, .entry⟩ ∧ rest = f.segments bs) ∨
    ∃ before terminator, f.segments bs = before ++ .cut q terminator :: rest

/-- A function is executed from its entry on. -/
theorem Function.rest_entry (f : Function) (bs : Breakpoints) :
    f.Rest bs ⟨1, .entry⟩ (f.segments bs) := .inl ⟨rfl, rfl⟩

/-- The piece that starts at a position is the first of what is executed from there on. -/
theorem Function.Rest.firstPiece_mem {rest : List Segment} (h : f.Rest bs q rest) :
    firstPiece f.lastLine q [] rest ∈ split f.lines bs := by
  rw [split_eq_pieces]
  rcases h with ⟨rfl, rfl⟩ | ⟨before, terminator, hsegments⟩
  · exact firstPiece_mem_pieces ..
  · rw [hsegments]
    exact pieces_subset_of_cut (firstPiece_mem_pieces ..)

/-- The first of some pieces starts where they start. -/
theorem firstPiece_start (ss : List Segment) :
    (firstPiece last start pending ss).start = start := by
  induction ss generalizing pending with
  | nil => rfl
  | cons s ss ih => cases s <;> simp [ih]

/-- A cut of a function is one of a line of it. -/
theorem Function.cut_mem_segments_iff :
    .cut q t ∈ f.segments bs ↔ ∃ l ∈ f.lines, (q, t) ∈ (cuts bs l).1 := by
  simp only [Function.segments, List.mem_flatMap, SourceLine.segments, List.mem_append,
    List.mem_map, Segment.cut.injEq, Prod.exists]
  refine exists_congr fun l => and_congr_right fun _ => ?_
  constructor
  · rintro (⟨q, t, h, rfl, rfl⟩ | h)
    · exact h
    · split at h <;> simp at h
  · exact fun h => .inl ⟨q, t, h, rfl, rfl⟩

/-- The cut of a call is where the call returns to. -/
theorem Function.of_call_mem_segments {line : Nat} {text : Text} {call : FunctionCall}
    (h : .cut q (.call line text call) ∈ f.segments bs) :
    q = Generate.callSite line ∧ ⟨line, call⟩ ∈ f.calls := by
  obtain ⟨l, hl, hcut⟩ := Function.cut_mem_segments_iff.mp h
  obtain ⟨rfl, rfl, -, hline⟩ := of_call_mem_cuts hcut
  exact ⟨rfl, List.mem_filterMap.mpr ⟨l, hl, by simp [hline]⟩⟩

/-- The cut of a step is made by a breakpoint of a step. -/
theorem Function.of_step_mem_segments {place : Place} {condition : Text}
    (h : .cut q (.step place condition) ∈ f.segments bs) :
    ∃ b, bs.at? q = some b ∧ b.type = .step ∧ b.condition = condition := by
  obtain ⟨l, -, hcut⟩ := Function.cut_mem_segments_iff.mp h
  have hbreakpoint : ∃ p, (q, .step place condition) ∈ breakpointCut bs p := by
    cases hl : l.line <;> simp [cuts, hl] at hcut
    case call => exact hcut.elim (⟨_, ·⟩) (⟨_, ·⟩)
    all_goals exact ⟨_, hcut⟩
  obtain ⟨p, hp⟩ := hbreakpoint
  obtain ⟨rfl, b, hb, hterminator⟩ := mem_breakpointCut_iff.mp hp
  refine ⟨b, hb, ?_⟩
  cases htype : b.type <;> simp_all [Breakpoint.terminator?]

/-- Execution is taken up again at the cuts where it may have been left. -/
theorem Function.mem_resumeTargets_iff :
    q ∈ resumeTargets (split f.lines bs) ↔
      ∃ t : Terminator, t.isResumable = true ∧ .cut q t ∈ f.segments bs := by
  simp only [resumeTargets, List.mem_mergeSort, List.mem_map, List.mem_filter, split_eq_pieces]
  constructor
  · rintro ⟨part, ⟨hmem, hresumable⟩, rfl⟩
    refine ⟨part.terminator, hresumable, (mem_pieces_terminator ?_).mp ⟨part, hmem, rfl, rfl⟩⟩
    intro h
    simp [h, Terminator.isResumable] at hresumable
  · rintro ⟨t, ht, hmem⟩
    have hne : t ≠ .return := by
      rintro rfl
      simp [Terminator.isResumable] at ht
    obtain ⟨part, hpart, hstop, rfl⟩ := (mem_pieces_terminator hne).mpr hmem
    exact ⟨part, ⟨hpart, ht⟩, hstop⟩

/-- The pieces after which execution can be taken up again end at cuts, in order. -/
theorem map_stop_resumable_sublist (ss : List Segment) :
    (((pieces last start pending ss).filter (·.terminator.isResumable)).map (·.stop)).Sublist
      (ss.filterMap Segment.position?) := by
  induction ss generalizing start pending with
  | nil => simp [Terminator.isResumable]
  | cons s ss ih =>
    cases s with
    | line l => simpa [List.filterMap_cons] using ih start (pending ++ [l])
    | cut p t =>
      simp only [pieces, List.filterMap_cons, Segment.position?, List.filter_cons]
      split
      · exact (ih p []).cons_cons p
      · exact (ih p []).cons p

/-- No position is listed twice among those where execution is taken up again. -/
theorem Function.Numbered.nodup_resumeTargets (hf : f.Numbered) (bs : Breakpoints) :
    (resumeTargets (split f.lines bs)).Nodup := by
  obtain ⟨hpairwise, -⟩ := NumberedFrom.pairwise_positions bs hf
  rw [resumeTargets, (List.mergeSort_perm _ _).nodup_iff, split_eq_pieces]
  refine List.Pairwise.sublist (map_stop_resumable_sublist ..)
    (hpairwise.imp fun {p q} hlt heq => ?_)
  simp [heq] at hlt

end DatapackDebug
