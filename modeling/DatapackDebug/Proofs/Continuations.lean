import DatapackDebug.Proofs.CommandTexts
import DatapackDebug.Proofs.Units

namespace DatapackDebug

/-!
# Where the units of a function go on

The units of a function enter pieces of it by the positions where these start.  Wherever a unit goes
on after a piece, the piece that it enters is the one that follows.

* `followed` — the pieces of a function, each with the one that follows it;
* `Function.map_followed` — a piece follows at every cut;
* `Function.Numbered.resumeTargets_eq` — execution is taken up again at the pieces that follow a cut
  where it can be left;
* `Generate.entered` — the pieces of a function that some commands enter;
* `Function.Continued` — what each unit of a function enters.
-/

/-! ### Pieces that follow one another -/

/-- The pieces of a function, each with the one that follows it. -/
def followed (parts : List Partition) : List (Partition × Partition) := parts.zip parts.tail

/-- The cut of a segment. -/
@[simp] def Segment.cut? : Segment → Option Cut
  | .line _ => none
  | .cut p t => some (p, t)

/-- The cuts of a function in order. -/
def Function.allCuts (bs : Breakpoints) (f : Function) : List Cut :=
  f.lines.flatMap fun l => (cuts bs l).1

theorem Function.filterMap_cut?_segments (bs : Breakpoints) (f : Function) :
    (f.segments bs).filterMap Segment.cut? = f.allCuts bs := by
  have hline : ∀ l : SourceLine, (l.segments bs).filterMap Segment.cut? = (cuts bs l).1 := by
    intro l
    have hkept : (if (cuts bs l).2 then [Segment.line l] else []).filterMap Segment.cut? = [] := by
      split <;> rfl
    rw [SourceLine.segments, List.filterMap_append, hkept, List.filterMap_map]
    simp [Function.comp_def]
  rw [Function.segments, List.filterMap_flatMap]
  simp only [hline, Function.allCuts]

section

variable (last : Nat) (start : Position) (pending : List SourceLine)

/-- Pieces start where they start, and are followed by those of the next cut. -/
theorem exists_pieces_eq_cons (ss : List Segment) :
    ∃ part parts, pieces last start pending ss = part :: parts ∧ part.start = start := by
  induction ss generalizing pending with
  | nil => exact ⟨_, _, rfl, rfl⟩
  | cons s ss ih =>
    cases s with
    | line l => exact ih (pending ++ [l])
    | cut p t => exact ⟨_, _, rfl, rfl⟩

theorem map_followed_pieces (ss : List Segment) :
    (followed (pieces last start pending ss)).map (fun x => (x.2.start, x.1.terminator)) =
      ss.filterMap Segment.cut? := by
  induction ss generalizing start pending with
  | nil => rfl
  | cons s ss ih =>
    cases s with
    | line l => exact ih start (pending ++ [l])
    | cut p t =>
      obtain ⟨part, parts, hparts, hstart⟩ := exists_pieces_eq_cons last p [] ss
      have hrest := ih p []
      rw [hparts] at hrest
      simp only [pieces, hparts, followed, List.tail_cons, List.zip_cons_cons, List.map_cons,
        List.filterMap_cons, Segment.cut?, hstart]
      exact congrArg _ hrest

/-- A piece follows at every cut of a function. -/
theorem Function.map_followed (f : Function) (bs : Breakpoints) :
    (followed (split f.lines bs)).map (fun x => (x.2.start, x.1.terminator)) = f.allCuts bs := by
  rw [split_eq_pieces, map_followed_pieces, filterMap_cut?_segments]

/-- A piece ends where the one that follows it starts. -/
theorem stop_of_mem_followed_pieces {last : Nat} {start : Position} {pending : List SourceLine}
    {ss : List Segment} {x : Partition × Partition}
    (hx : x ∈ followed (pieces last start pending ss)) : x.1.stop = x.2.start := by
  induction ss generalizing start pending with
  | nil => simp [followed] at hx
  | cons s ss ih =>
    cases s with
    | line l => exact ih hx
    | cut p t =>
      obtain ⟨part, parts, hparts, hstart⟩ := exists_pieces_eq_cons last p [] ss
      simp only [pieces, hparts, followed, List.tail_cons, List.zip_cons_cons, List.mem_cons] at hx
      rcases hx with rfl | hx
      · exact hstart.symm
      · exact ih (by rw [hparts]; exact hx)

/-- The last piece ends with the return. -/
theorem terminator_getLast_pieces {last : Nat} {start : Position} {pending : List SourceLine}
    {ss : List Segment} {part : Partition}
    (h : (pieces last start pending ss).getLast? = some part) : part.terminator = .return := by
  induction ss generalizing start pending with
  | nil =>
    cases h
    rfl
  | cons s ss ih =>
    cases s with
    | line l => exact ih h
    | cut p t =>
      obtain ⟨part', parts, hparts, -⟩ := exists_pieces_eq_cons last p [] ss
      rw [pieces, hparts, List.getLast?_cons_cons, ← hparts] at h
      exact ih h

/-! ### Calls and places to resume -/

/-- The cuts of a line at which it calls a function. -/
def Terminator.isCall : Terminator → Bool
  | .call .. => true
  | _ => false

/-- Does a piece itself go on with the one that follows? -/
@[simp] def Terminator.goesOn : Terminator → Bool
  | .step .. | .continue _ | .call .. => true
  | .static | .breakpoint _ | .return => false

theorem filter_isCall_breakpointCut (bs : Breakpoints) (p : Position) :
    (breakpointCut bs p).filter (·.2.isCall) = [] := by
  refine List.filter_eq_nil_iff.mpr fun c hc => ?_
  obtain ⟨-, b, -, hb⟩ : c.1 = p ∧ ∃ b, bs.at? p = some b ∧ b.terminator? p.place = some c.2 :=
    mem_breakpointCut_iff.mp hc
  have := Breakpoint.isResumable_of_terminator? hb
  cases hterminator : c.2 <;> simp_all [Terminator.isCall, Terminator.isResumable]

/-- A function returns from its calls to the pieces that follow them. -/
theorem Function.map_callSite_calls (f : Function) (bs : Breakpoints) :
    f.calls.map (fun site => Generate.callSite site.line) =
      ((f.allCuts bs).filter (·.2.isCall)).map (·.1) := by
  unfold Function.calls Function.allCuts
  induction f.lines with
  | nil => rfl
  | cons l ls ih =>
    rw [List.filterMap_cons, List.flatMap_cons, List.filter_append, List.map_append, ← ih]
    cases hl : l.line with
    | call call =>
      have hcuts : ((cuts bs l).1.filter (·.2.isCall)).map (·.1) =
          [Generate.callSite l.number] := by
        simp only [cuts, hl, List.filter_append, filter_isCall_breakpointCut, List.nil_append,
          List.append_nil]
        rfl
      rw [hcuts]
      rfl
    | breakpoint =>
      simp only [cuts, hl]
      rfl
    | _ =>
      simp only [cuts, hl, filter_isCall_breakpointCut]
      rfl

/-- The pieces after which execution can be taken up again end at the cuts where it can be left. -/
theorem map_stop_resumable_pieces (ss : List Segment) :
    ((pieces last start pending ss).filter (·.terminator.isResumable)).map (·.stop) =
      ((ss.filterMap Segment.cut?).filter (·.2.isResumable)).map (·.1) := by
  induction ss generalizing start pending with
  | nil => simp [Terminator.isResumable]
  | cons s ss ih =>
    cases s with
    | line l => exact ih start (pending ++ [l])
    | cut p t =>
      simp only [pieces, List.filterMap_cons, Segment.cut?, List.filter_cons]
      split <;> simp [ih]

end

/-- Execution is taken up again at the cuts where it can be left, in their order. -/
theorem Function.Numbered.resumeTargets_eq {f : Function} (hf : f.Numbered) (bs : Breakpoints) :
    resumeTargets (split f.lines bs) = ((f.allCuts bs).filter (·.2.isResumable)).map (·.1) := by
  obtain ⟨hpairwise, -⟩ := NumberedFrom.pairwise_positions bs hf
  have hsorted := List.Pairwise.sublist
    (map_stop_resumable_sublist f.lastLine ⟨1, .entry⟩ [] (f.segments bs)) hpairwise
  rw [resumeTargets, split_eq_pieces, List.mergeSort_of_pairwise, map_stop_resumable_pieces,
    filterMap_cut?_segments]
  exact hsorted.imp fun {p q} hlt => by simp [Position.le, hlt]

/-! ### What units enter -/

namespace Generate

/-- The generated functions that some commands enter or schedule. -/
def targets (lines : List Instruction) : List UnitName := lines.flatMap Instruction.targets

@[simp] theorem targets_nil : targets [] = [] := rfl

@[simp] theorem targets_cons (i : Instruction) (lines : List Instruction) :
    targets (i :: lines) = i.targets ++ targets lines := rfl

@[simp] theorem targets_append (lines lines' : List Instruction) :
    targets (lines ++ lines') = targets lines ++ targets lines' := List.flatMap_append

theorem targets_flatMap {α : Type} (as : List α) (lines : α → List Instruction) :
    targets (as.flatMap lines) = as.flatMap fun a => targets (lines a) := List.flatMap_assoc

/-- Commands that each enter one function. -/
theorem targets_map {α : Type} {command : α → Instruction} {entered : α → UnitName}
    (h : ∀ a, (command a).targets = [entered a]) (as : List α) :
    targets (as.map command) = as.map entered := by
  induction as with
  | nil => rfl
  | cons a as ih => simp [h, ih]

/-- Commands none of which enters a function. -/
theorem targets_eq_nil {lines : List Instruction} (h : ∀ i ∈ lines, i.targets = []) :
    targets lines = [] :=
  List.flatMap_eq_nil_iff.mpr h

theorem targets_eachLine (condition : LineCondition) (lines : List Instruction) :
    targets (lines.map (.eachLine condition)) = targets lines := by
  induction lines with
  | nil => rfl
  | cons i lines ih =>
    rw [List.map_cons, targets_cons, targets_cons, ih]
    rfl

theorem targets_guarded (p : Pack) (f : ResourceName) (lines : List Instruction) :
    targets (guarded p f lines) = .onExit :: targets lines := by
  simp only [guarded, targets_append, targets_cons, targets_nil, targets_eachLine]
  rfl

variable (p : Pack) (f : ResourceName) (fn : Function)

theorem targets_start : targets (start p f) = [.onExit, .of f (.piece ⟨1, .entry⟩)] := by
  rw [start, targets_guarded]
  rfl

theorem targets_scheduled :
    targets (scheduled p f) = [.onExit, .of f .scheduled, .of f .start] := by
  rw [scheduled, targets_guarded]
  rfl

theorem targets_validate : targets (validate p fn) = [] := by
  refine targets_eq_nil fun i hi => ?_
  simp only [validate, List.mem_append, List.mem_map, List.mem_singleton] at hi
  rcases hi with ⟨l, -, rfl⟩ | rfl <;> rfl

theorem targets_return : targets (return_ p f) =
    .onExit :: (p.callers f).flatMap fun caller =>
      [.of caller .returnSelf, .of caller .returnSelf] := by
  rw [return_, targets_append, targets_flatMap]
  rfl

theorem targets_returnSelf :
    targets (returnSelf fn) = fn.calls.map fun site => .of fn.name (.piece (callSite site.line)) :=
  targets_map (fun _ => rfl) _

theorem targets_mapIdx {α : Type} {command : Nat → α → Instruction} {entered : α → UnitName}
    (h : ∀ i a, (command i a).targets = [entered a]) (as : List α) :
    targets (as.mapIdx command) = as.map entered := by
  induction as generalizing command with
  | nil => rfl
  | cons a as ih =>
    rw [List.mapIdx_cons, targets_cons, h, List.map_cons, ih fun i a => h (i + 1) a]
    rfl

theorem targets_resume (parts : List Partition) :
    targets (resume fn parts) = (resumeTargets parts).map fun q => .of fn.name (.piece q) := by
  have hfind : targets ((resumeTargets parts).mapIdx fun i q =>
      .execute [.ifEntity (clouds [.breakpoint, .position fn.name q])]
        (.setScore .resumePosition i)) = [] :=
    targets_eq_nil fun i hi => by
      obtain ⟨k, hk, rfl⟩ := List.mem_mapIdx.mp hi
      rfl
  have hrun : targets ((resumeTargets parts).mapIdx fun i q =>
      .execute [.ifScore .resumePosition (.exactly i)] (.function (.of fn.name (.piece q)))) =
        (resumeTargets parts).map fun q =>
          .of fn.name (.piece q) := targets_mapIdx (fun _ _ => rfl) _
  simp only [resume, targets_append, hfind, hrun]
  rfl

theorem targets_stop (c : PackConfig) (q : Position) : targets (stop c fn q) = [.suspend] := rfl

/-- What a piece enters at its end. -/
def endTargets (p : Pack) (f : Function) (part : Partition) : List UnitName :=
  match part.terminator with
  | .static | .breakpoint _ => [.suspend]
  | .step .. => [.suspend, .of f.name (.piece part.stop)]
  | .continue _ => [.of f.name (.piece part.stop)]
  | .call line _ call =>
    (if p.contains call.name then [.of call.name .start] else []) ++
      [.of f.name (.piece (callSite line))]
  | .return => [.of f.name .return]

theorem targets_callInside (line : Nat) (text : Text) (call : FunctionCall) :
    targets (callInside p fn line text call) =
      [.of call.name .start, .of fn.name (.piece (callSite line))] := by
  unfold callInside anchorOfCall
  split <;> rfl

theorem targets_ending (part : Partition) : targets (ending p fn part) = endTargets p fn part := by
  cases hterminator : part.terminator with
  | static | breakpoint | «continue» | «return» =>
    simp only [ending, endTargets, hterminator]
    rfl
  | step place condition =>
    simp only [ending, endTargets, hterminator, targets_append, targets_eachLine, targets_stop]
    rfl
  | call line text call =>
    simp only [ending, endTargets, hterminator]
    split
    · exact targets_callInside ..
    · rfl

theorem targets_piece (part : Partition) : targets (piece p fn part) = endTargets p fn part := by
  have hfront : targets
      (if part.start.place = .function then afterCall fn.name part.start.line else []) = [] := by
    split <;> rfl
  have hlines : targets ((part.lines.filter (·.line.isCommand)).map fun l =>
      .source (l.edited p.ns p.functions)) = [] :=
    targets_eq_nil fun i hi => by
      obtain ⟨l, -, rfl⟩ := List.mem_map.mp hi
      rfl
  rw [piece, targets_append, targets_append, hfront, hlines, targets_ending]
  rfl

/-- The pieces of a function that some commands enter. -/
def entered (f : ResourceName) (lines : List Instruction) : List Position :=
  (targets lines).filterMap fun u =>
    match u with
    | .of g (.piece q) => if g = f then some q else none
    | _ => none

/-- Commands that enter pieces of a function enter these. -/
theorem entered_of_targets {f : ResourceName} {lines : List Instruction} {qs : List Position}
    (h : targets lines = qs.map fun q => .of f (.piece q)) : entered f lines = qs := by
  simp [entered, h]

end Generate

/-- Where the units of a function go on: it starts with its first piece; a piece that goes on enters
    the one that follows, and the last returns; it is resumed, and returned to, at the pieces that
    follow those where it can be left and those that call. -/
structure Function.Continued (p : Pack) (f : Function) (parts : List Partition) : Prop where
  start : Generate.entered f.name (Generate.start p f.name) = (parts.head?.map (·.start)).toList
  piece : ∀ x ∈ followed parts, Generate.entered f.name (Generate.piece p f x.1) =
    if x.1.terminator.goesOn then [x.2.start] else []
  last : ∀ part, parts.getLast? = some part →
    Generate.targets (Generate.piece p f part) = [.of f.name .return]
  resume : Generate.entered f.name (Generate.resume f parts) =
    ((followed parts).filter (·.1.terminator.isResumable)).map (·.2.start)
  returnSelf : Generate.entered f.name (Generate.returnSelf f) =
    ((followed parts).filter (·.1.terminator.isCall)).map (·.2.start)

/-- The pieces that follow cuts of a kind start at these cuts. -/
theorem Function.map_start_filter_followed (f : Function) (bs : Breakpoints)
    (kind : Terminator → Bool) :
    ((followed (split f.lines bs)).filter (kind ·.1.terminator)).map (·.2.start) =
      ((f.allCuts bs).filter (kind ·.2)).map (·.1) := by
  rw [← f.map_followed bs, List.filter_map, List.map_map]
  rfl

/-- The units of a function with numbered lines go on where they should. -/
theorem Function.Numbered.continued (p : Pack) {f : Function} (hf : f.Numbered) (bs : Breakpoints) :
    f.Continued p (split f.lines bs) where
  start := by
    obtain ⟨part, parts, hparts, hstart⟩ :=
      exists_pieces_eq_cons f.lastLine ⟨1, .entry⟩ [] (f.segments bs)
    rw [split_eq_pieces, hparts, Generate.entered, Generate.targets_start]
    simp [hstart]
  piece x hx := by
    have hstop : x.1.stop = x.2.start := stop_of_mem_followed_pieces (split_eq_pieces f bs ▸ hx)
    have hcut : (x.2.start, x.1.terminator) ∈ f.allCuts bs :=
      f.map_followed bs ▸ List.mem_map.mpr ⟨x, hx, rfl⟩
    rw [Generate.entered, Generate.targets_piece, Generate.endTargets]
    cases hterminator : x.1.terminator with
    | static | breakpoint | «return» => simp
    | step | «continue» => simp [hstop]
    | call line text call =>
      -- The cut of a call is where the call returns to.
      rw [hterminator] at hcut
      obtain ⟨l, hl, hcut⟩ := List.mem_flatMap.mp hcut
      obtain ⟨hstart, rfl, -⟩ := of_call_mem_cuts hcut
      have hsite : Generate.callSite l.number = x.2.start := hstart.symm
      by_cases hcontains : p.contains call.name <;> simp [hcontains, hsite]
  last part hpart := by
    have hterminator := terminator_getLast_pieces (split_eq_pieces f bs ▸ hpart)
    simp [Generate.targets_piece, Generate.endTargets, hterminator]
  resume := by
    rw [Generate.entered_of_targets (Generate.targets_resume f _), hf.resumeTargets_eq,
      f.map_start_filter_followed]
  returnSelf := by
    have htargets : Generate.targets (Generate.returnSelf f) =
        (f.calls.map fun site => Generate.callSite site.line).map fun q =>
          .of f.name (.piece q) := by
      rw [Generate.targets_returnSelf, List.map_map]
      rfl
    rw [Generate.entered_of_targets htargets, f.map_callSite_calls bs, f.map_start_filter_followed]

end DatapackDebug
