import DatapackDebug.Proofs.Deployment
import DatapackDebug.Proofs.Resumable
import DatapackDebug.Proofs.SplitBoundaries

namespace DatapackDebug

/-!
# Steps stop before every command

While a step is made, a function is cut before each of its commands and after each of its calls.  So
its pieces hold one command at most, and the program can stop wherever the step may end.

* `Partition.commands`, `flatMap_commands_split` — the commands that a piece executes; those of all
  pieces are the commands of the function;
* `StepsThrough` — what it means that pieces stop the program before every command;
* `Session.has_effectiveBreakpoints_of_step` — a step sets a breakpoint at each of its positions;
* `BreakpointMap.OfClient`, `Session.Run.genuine` — breakpoints of clients have no condition, and
  sessions have no others;
* `allLead_pieces`, `exists_followed_of_cuts` — what cuts before commands do to pieces;
* `step_stops_before_commands` — so the pieces of a session that makes a step are such.
-/

variable {b : Breakpoint} {t : Terminator} {p : Position} {l : SourceLine}

/-! ### Commands of pieces -/

/-- Is the line executed? -/
def SourceLine.isCommand (l : SourceLine) : Bool := l.line.isCommand

/-- The line of the call that ends a piece. -/
def Terminator.callLine? : Terminator → Option SourceLine
  | .call number text c => some ⟨number, text, .call c⟩
  | .static | .breakpoint _ | .step .. | .continue _ | .return => none

/-- The commands that a piece executes: those among its lines, and the call that ends it. -/
def Partition.commands (p : Partition) : List SourceLine :=
  p.lines.filter SourceLine.isCommand ++ p.terminator.callLine?.toList

/-- The command of a segment. -/
def Segment.commands : Segment → List SourceLine
  | .line l => [l].filter SourceLine.isCommand
  | .cut _ terminator => terminator.callLine?.toList

/-- A breakpoint that is set ends the piece. -/
def Terminator.isSet : Terminator → Bool
  | .breakpoint _ | .step .. | .continue _ => true
  | .static | .call .. | .return => false

theorem Breakpoint.isSet_of_terminator? {place : Place} (h : b.terminator? place = some t) :
    t.isSet = true := by
  cases Breakpoint.asks_iff.mpr h <;> rfl

theorem Terminator.callLine?_of_isSet (ht : t.isSet = true) : t.callLine? = none := by
  cases t with
  | call => cases ht
  | _ => rfl

/-- The only line with a command that ends a piece is a call. -/
theorem Terminator.callLine?_eq_filter (t : Terminator) (stop : Position) :
    t.callLine?.toList = (t.ownLine? [] stop).toList.filter SourceLine.isCommand := by
  cases t <;> rfl

theorem Partition.commands_eq_filter (part : Partition) :
    part.commands = (part.sourceLines []).filter SourceLine.isCommand := by
  rw [Partition.commands, Partition.sourceLines, List.filter_append, Terminator.callLine?_eq_filter]

theorem Segment.commands_eq_filter (s : Segment) :
    s.commands = (s.sourceLines []).filter SourceLine.isCommand := by
  cases s with
  | line => rfl
  | cut stop t => exact t.callLine?_eq_filter stop

/-- The segments of a line execute the line, if it is a command. -/
theorem flatMap_commands_segments (bs : Breakpoints) (l : SourceLine) :
    (l.segments bs).flatMap Segment.commands = [l].filter SourceLine.isCommand := by
  rw [funext Segment.commands_eq_filter, ← List.filter_flatMap]
  by_cases hl : l.line = .breakpoint
  · simp [SourceLine.segments, cuts, hl, Segment.sourceLines, Terminator.ownLine?,
      SourceLine.isCommand, Line.isCommand]
  · rw [flatMap_sourceLines_segments bs fun h => absurd h hl]

/-- The pieces of a function execute its commands, each once and in order. -/
theorem flatMap_commands_split (lines : List SourceLine) (bs : Breakpoints) :
    (split lines bs).flatMap Partition.commands = lines.filter SourceLine.isCommand := by
  rw [funext Partition.commands_eq_filter, ← List.filter_flatMap, split, splitFrom_eq_pieces,
    flatMap_sourceLines_pieces, List.nil_append, List.filter_flatMap,
    ← funext Segment.commands_eq_filter, List.flatMap_assoc]
  simp only [flatMap_commands_segments]
  induction lines with
  | nil => rfl
  | cons l ls ih => rw [List.flatMap_cons, ih, ← List.filter_append, List.singleton_append]

/-! ### Pieces that stop before every command -/

/-- The pieces of a function stop the program before each of its commands, where a step goes on to a
    depth and the client has set breakpoints in the function. -/
structure StepsThrough (lines : List SourceLine) (depth : Int) (client : Breakpoints)
    (parts : List Partition) : Prop where
  /-- the pieces execute the commands of the function -/
  commands : parts.flatMap Partition.commands = lines.filter SourceLine.isCommand
  /-- no piece executes two commands -/
  single : ∀ part ∈ parts, part.commands.length ≤ 1
  /-- the piece that executes a command starts right before it, where a breakpoint is set -/
  before : ∀ part ∈ parts, ∀ l ∈ part.commands, part.start = ⟨l.number, .breakpoint⟩ ∧
    ∃ previous, (previous, part) ∈ followed parts ∧ previous.stop = part.start ∧
      previous.terminator.isSet = true
  /-- right after a call a breakpoint is set -/
  after : ∀ l ∈ lines, ∀ call, l.line = .call call → ∃ part next, (part, next) ∈ followed parts ∧
    part.terminator = .call l.number l.text call ∧ next.lines = [] ∧
      next.stop = ⟨l.number, .afterFunction⟩ ∧ next.terminator.isSet = true
  /-- the breakpoints of the step have the condition of its depth -/
  condition : ∀ part ∈ parts, ∀ place c, part.terminator = .step place c →
    c = Session.stepCondition depth
  /-- those of the client have none, and stop the program as breakpoints of the source do -/
  unconditional : ∀ l ∈ lines, ∀ b, client.at? ⟨l.number, .breakpoint⟩ = some b → b.type = .normal →
    ∀ t, (∃ part ∈ parts, part.stop = ⟨l.number, .breakpoint⟩ ∧ part.terminator = t) ↔
      t = if l.line = .breakpoint then .static else .breakpoint .breakpoint

/-! ### Breakpoints of clients -/

/-- A set that a client can make: its breakpoints have no condition, and may be invalid. -/
def BreakpointMap.OfClient (m : BreakpointMap) : Prop :=
  ∀ f p b, (m.of f).at? p = some b → b = ⟨.normal, []⟩ ∨ b = ⟨.invalid, []⟩

/-- The functions of a session were read from sources, and its breakpoints set by its client. -/
structure Session.Genuine (s : Session) : Prop where
  functions : s.functions.WellFormed
  breakpoints : s.breakpoints.OfClient

theorem BreakpointMap.OfClient.set {m : BreakpointMap} (hm : m.OfClient) (f : ResourceName)
    (requested : List RequestedBreakpoint) :
    (m.set f (requested.foldl RequestedBreakpoint.addTo [])).OfClient := by
  intro g p b hb
  rw [of_set] at hb
  split at hb
  · rcases RequestedBreakpoint.at?_foldl_addTo hb with hnone | ⟨r, -, rfl⟩
    · cases hnone
    · cases r.isVerified
      · exact .inr rfl
      · exact .inl rfl
  · exact hm g p b hb

namespace Session

variable {V : ResourceName → Prop} {s s' : Session} {h : SessionM.History}

theorem Step.genuine (hstep : Step V s h s') (hs : s.Genuine) : s'.Genuine := by
  refine ⟨hstep.wellFormed_functions hs.functions, ?_⟩
  cases hstep with
  | other _ hcarries => exact hcarries.breakpoints ▸ hs.breakpoints
  | breakpoints => exact hs.breakpoints.set _ _
  | reload _ hreloads => cases hreloads <;> exact hs.breakpoints
  | generate hgenerates => cases hgenerates <;> exact hs.breakpoints
  | installed _ _ hgenerates => cases hgenerates; exact hs.breakpoints
  | command | accepted | unread | read | removed => exact hs.breakpoints

/-- Sessions stay so, whatever happens to them. -/
theorem Run.genuine {log : List (Operation × SessionM.History)} (hrun : Run s log s')
    (hs : s.Genuine) : s'.Genuine :=
  hrun.invariant hs (fun _ _ _ hstep => hstep.genuine) fun _ hs => ⟨hs.functions, hs.breakpoints⟩

end Session

/-! ### Breakpoints of steps -/

/-- What is added at some time stays. -/
theorem BreakpointMap.has_foldl {α : Type} {P : ResourceName → Position → Breakpoint → Prop}
    {g : BreakpointMap → α → BreakpointMap} {xs : List α} {x : α} {f : ResourceName}
    (hg : ∀ m, ∀ y ∈ xs, Extends P m (g m y)) (hx : x ∈ xs) (hhas : ∀ m, (g m x).has f p = true)
    (m : BreakpointMap) : (xs.foldl g m).has f p = true := by
  obtain ⟨before, after, rfl⟩ := List.append_of_mem hx
  rw [List.foldl_append, List.foldl_cons]
  refine (Extends.foldl (fun m y hy => hg m y ?_) _).has (hhas _)
  exact List.mem_append_right _ (List.mem_cons_of_mem _ hy)

namespace Session

variable {s : Session} {depth : Int} {name : ResourceName} {f : Function}

variable (hdepth : s.stepDepth = some depth)

include hdepth

/-- A step sets a breakpoint at each of its positions where there is none. -/
theorem has_effectiveBreakpoints_of_step (hf : (name, f) ∈ s.functions) (hl : l ∈ f.lines)
    (hp : p ∈ stepPositions l) : s.effectiveBreakpoints.has name p = true := by
  have hadd : ∀ (m : BreakpointMap) (g : ResourceName) (q : Position),
      m.Extends (fun _ _ _ => True) (addMissing m g q ⟨.step, stepCondition depth⟩) :=
    fun m g q => .addMissing trivial m
  refine (s.extends_withStop _).has ?_
  simp only [withStep, hdepth]
  refine BreakpointMap.has_foldl (fun m e _ => .foldl (fun m q _ => hadd m e.1 q) m) hf
    (fun m => ?_) _
  refine BreakpointMap.has_foldl (fun m q _ => hadd m name q) (List.mem_flatMap.mpr ⟨l, hl, hp⟩)
    (fun m => ?_) _
  exact BreakpointMap.has_addMissing m name p (by simp)

/-- So it cuts the function there. -/
theorem exists_breakpointCut_of_step (hf : (name, f) ∈ s.functions) (hl : l ∈ f.lines)
    (hp : p ∈ stepPositions l) :
    ∃ t, t.isSet = true ∧ breakpointCut (s.effectiveBreakpoints.of name) p = [(p, t)] := by
  obtain ⟨b, hb, htype⟩ := BreakpointMap.has_iff.mp
    (has_effectiveBreakpoints_of_step hdepth hf hl hp)
  obtain ⟨t, ht⟩ := Breakpoint.exists_terminator? htype p.place
  refine ⟨t, Breakpoint.isSet_of_terminator? ht, ?_⟩
  rw [breakpointCut, Breakpoints.terminatorAt?, hb, Option.bind_some, ht]
  rfl

/-- Among breakpoints of a client only those of the step have a condition. -/
theorem condition_of_step (hclient : s.breakpoints.OfClient)
    (hb : (s.effectiveBreakpoints.of name).at? p = some b) (htype : b.type = .step) :
    b.condition = stepCondition depth := by
  rcases s.extends_effectiveBreakpoints.at? name p with hkept | ⟨-, b', hb', hadds⟩
  · rw [hkept] at hb
    rcases hclient name p b hb with rfl | rfl <;> cases htype
  · obtain rfl : b' = b := Option.some.inj (hb'.symm.trans hb)
    cases hadds with
    | step hdepth' _ heq =>
      cases hdepth.symm.trans hdepth'
      rw [heq]
    | stop _ _ _ heq =>
      rw [heq] at htype
      cases htype

end Session

/-! ### Pieces -/

/-- At most one command, and the position right before it. -/
def Position.Leads (start : Position) (commands : List SourceLine) : Prop :=
  commands.length ≤ 1 ∧ ∀ l ∈ commands, start = ⟨l.number, .breakpoint⟩

theorem Position.leads_nil (start : Position) : start.Leads [] := ⟨by simp, by simp⟩

theorem Position.leads_singleton (l : SourceLine) : Position.Leads ⟨l.number, .breakpoint⟩ [l] :=
  ⟨by simp, by simp⟩

theorem Position.leads_filter_singleton (l : SourceLine) :
    Position.Leads ⟨l.number, .breakpoint⟩ ([l].filter SourceLine.isCommand) := by
  by_cases hcommand : l.isCommand = true
  · rw [List.filter_cons_of_pos hcommand]
    exact Position.leads_singleton l
  · rw [List.filter_cons_of_neg hcommand]
    exact Position.leads_nil _

/-- Breakpoints are set before every command, and after every call. -/
def Breakpoints.Cover (bs : Breakpoints) (lines : List SourceLine) : Prop :=
  ∀ l ∈ lines, ∀ p ∈ Session.stepPositions l, ∃ t, t.isSet = true ∧ breakpointCut bs p = [(p, t)]

section Pieces

variable {bs : Breakpoints} {lines : List SourceLine}

/-- There is at most one cut at a position. -/
theorem breakpointCut_cases (bs : Breakpoints) (p : Position) :
    breakpointCut bs p = [] ∨ ∃ t, t.callLine? = none ∧ breakpointCut bs p = [(p, t)] := by
  rw [breakpointCut]
  cases hcut : bs.terminatorAt? p with
  | none => exact .inl rfl
  | some t =>
    obtain ⟨b, -, hb⟩ := Option.bind_eq_some_iff.mp hcut
    exact .inr ⟨t, Terminator.callLine?_of_isSet (Breakpoint.isSet_of_terminator? hb), rfl⟩

/-- The segments of a line that is neither a breakpoint nor a call. -/
theorem SourceLine.segments_of_kept (hstatic : l.line ≠ .breakpoint)
    (hcall : ∀ call, l.line ≠ .call call) :
    l.segments bs =
      (breakpointCut bs ⟨l.number, .breakpoint⟩).map (fun c => .cut c.1 c.2) ++ [.line l] := by
  cases hline : l.line with
  | breakpoint => exact absurd hline hstatic
  | call call => exact absurd hline (hcall call)
  | _ =>
    simp only [SourceLine.segments, cuts, hline]
    rfl

theorem breakpointCut_subset_cuts (hstatic : l.line ≠ .breakpoint) :
    breakpointCut bs ⟨l.number, .breakpoint⟩ ⊆ (cuts bs l).1 := by
  intro c hc
  cases hline : l.line with
  | breakpoint => exact absurd hline hstatic
  | call call =>
    simp only [cuts, hline]
    exact List.mem_append_left _ (List.mem_append_left _ hc)
  | _ => simpa only [cuts, hline] using hc

/-- A command is preceded by a cut. -/
theorem Breakpoints.Cover.cut_before (hbs : bs.Cover lines) (hl : l ∈ lines)
    (hcommand : l.isCommand = true) :
    ∃ t, t.isSet = true ∧
      breakpointCut bs ⟨l.number, .breakpoint⟩ = [(⟨l.number, .breakpoint⟩, t)] := by
  refine hbs l hl _ ?_
  cases hline : l.line with
  | call | schedule | other => simp [Session.stepPositions, hline]
  | _ => simp [hline, SourceLine.isCommand, Line.isCommand] at hcommand

/-- The segments of a call. -/
theorem Breakpoints.Cover.segments_call (hbs : bs.Cover lines) (hl : l ∈ lines)
    {call : FunctionCall} (hcall : l.line = .call call) :
    ∃ t t', t.isSet = true ∧ t'.isSet = true ∧ l.segments bs =
      [.cut ⟨l.number, .breakpoint⟩ t, .cut ⟨l.number, .function⟩ (.call l.number l.text call),
        .cut ⟨l.number, .afterFunction⟩ t'] := by
  obtain ⟨t, ht, hbefore⟩ := hbs.cut_before hl (by rw [SourceLine.isCommand, hcall]; rfl)
  obtain ⟨t', ht', hafter⟩ :=
    hbs l hl ⟨l.number, .afterFunction⟩ (by simp [Session.stepPositions, hcall])
  refine ⟨t, t', ht, ht', ?_⟩
  simp only [SourceLine.segments, cuts, hcall, hbefore, hafter]
  rfl

/-- Each piece has one command at most, and starts right before it. -/
def AllLead (parts : List Partition) : Prop := ∀ part ∈ parts, part.start.Leads part.commands

/-- A cut without a call ends a piece with the commands so far. -/
theorem allLead_cut {last : Nat} {start stop : Position} {pending : List SourceLine}
    {ss : List Segment} (hpending : start.Leads (pending.filter SourceLine.isCommand))
    (ht : t.callLine? = none) (hrest : AllLead (pieces last stop [] ss)) :
    AllLead (pieces last start pending (.cut stop t :: ss)) := by
  refine List.forall_mem_cons.mpr ⟨?_, hrest⟩
  simpa [Partition.commands, ht] using hpending

/-- Where breakpoints are set before every command, all pieces are such. -/
theorem allLead_pieces {last : Nat} {start : Position} {pending : List SourceLine}
    (hbs : bs.Cover lines) (hpending : start.Leads (pending.filter SourceLine.isCommand)) :
    AllLead (pieces last start pending (lines.flatMap (SourceLine.segments bs))) := by
  -- The invariant is about the piece that is being made: its start leads its commands so far.
  induction lines generalizing start pending with
  | nil =>
    refine List.forall_mem_singleton.mpr ?_
    simpa [Partition.commands, Terminator.callLine?] using hpending
  | cons l ls ih =>
    have hrest : bs.Cover ls := fun l' hl' => hbs l' (List.mem_cons_of_mem _ hl')
    rw [List.flatMap_cons]
    by_cases hcall : ∃ call, l.line = .call call
    · obtain ⟨call, hcall⟩ := hcall
      obtain ⟨t, t', ht, ht', hsegments⟩ := hbs.segments_call List.mem_cons_self hcall
      rw [hsegments]
      refine allLead_cut hpending (Terminator.callLine?_of_isSet ht)
        (List.forall_mem_cons.mpr ⟨?_, ?_⟩)
      · have hown : Partition.commands ⟨⟨l.number, .breakpoint⟩, ⟨l.number, .function⟩, [],
            .call l.number l.text call⟩ = [l] := by
          rw [Partition.commands, Terminator.callLine?, ← hcall]
          rfl
        exact hown ▸ Position.leads_singleton l
      · exact allLead_cut (Position.leads_nil _) (Terminator.callLine?_of_isSet ht')
          (ih hrest (Position.leads_nil _))
    by_cases hstatic : l.line = .breakpoint
    · have hsegments : l.segments bs = [.cut ⟨l.number, .breakpoint⟩ .static] := by
        simp [SourceLine.segments, cuts, hstatic]
      rw [hsegments]
      exact allLead_cut hpending rfl (ih hrest (Position.leads_nil _))
    rw [SourceLine.segments_of_kept hstatic (not_exists.mp hcall)]
    rcases breakpointCut_cases bs ⟨l.number, .breakpoint⟩ with hnone | ⟨t, ht, hcut⟩
    · -- Without a cut before it the line is no command.
      have hquiet : l.isCommand ≠ true := by
        intro hcommand
        obtain ⟨t, -, hcut⟩ := hbs.cut_before List.mem_cons_self hcommand
        rw [hnone] at hcut
        cases hcut
      rw [hnone]
      refine ih hrest ?_
      rwa [List.filter_append, List.filter_cons_of_neg hquiet, List.filter_nil, List.append_nil]
    · rw [hcut]
      exact allLead_cut hpending ht (ih hrest (Position.leads_filter_singleton l))

/-- Between two cuts that follow one another there is a piece without lines. -/
theorem exists_followed_of_cuts (last : Nat) (start : Position) (pending : List SourceLine)
    (before after : List Segment) (p q : Position) (t t' : Terminator) :
    ∃ part, part.terminator = t ∧ (part, ⟨p, q, [], t'⟩) ∈
      followed (pieces last start pending (before ++ .cut p t :: .cut q t' :: after)) := by
  induction before generalizing start pending with
  | nil => exact ⟨⟨start, p, pending, t⟩, rfl, List.mem_cons_self⟩
  | cons s before ih =>
    cases s with
    | line l => exact ih start (pending ++ [l])
    | cut r t₀ =>
      obtain ⟨part, hpart, hmem⟩ := ih r []
      refine ⟨part, hpart, ?_⟩
      obtain ⟨part', parts, hparts, -⟩ :=
        exists_pieces_eq_cons last r [] (before ++ .cut p t :: .cut q t' :: after)
      rw [hparts] at hmem
      rw [List.cons_append, pieces, hparts]
      exact List.mem_cons_of_mem _ hmem

end Pieces

/-! ### The pieces of a function while a step is made -/

section Function

variable {f : Function} {bs : Breakpoints}

/-- Where a function is cut, a piece is followed by one that starts there. -/
theorem Function.Numbered.exists_followed (hf : f.Numbered) {part : Partition}
    (hpart : part ∈ split f.lines bs) (hcut : (part.start, t) ∈ f.allCuts bs) :
    ∃ previous, (previous, part) ∈ followed (split f.lines bs) ∧ previous.stop = part.start ∧
      previous.terminator = t := by
  rw [← f.map_followed bs, List.mem_map] at hcut
  obtain ⟨⟨previous, next⟩, hmem, heq⟩ := hcut
  obtain ⟨hstart, rfl⟩ := Prod.mk.inj heq
  have hnext : next ∈ split f.lines bs := List.mem_of_mem_tail (List.of_mem_zip hmem).2
  obtain rfl : next = part := List.inj_on_of_nodup_map (hf.nodup_starts bs) hnext hpart hstart
  refine ⟨previous, hmem, ?_, rfl⟩
  rw [split_eq_pieces] at hmem
  exact stop_of_mem_followed_pieces hmem

theorem Function.allLead_split (hbs : bs.Cover f.lines) : AllLead (split f.lines bs) := by
  rw [split_eq_pieces]
  exact allLead_pieces hbs (Position.leads_nil _)

/-- A piece with a command starts right before it, where a breakpoint ends another one. -/
theorem Function.Numbered.exists_before_command (hf : f.Numbered) (hbs : bs.Cover f.lines)
    {part : Partition} (hpart : part ∈ split f.lines bs) (hl : l ∈ part.commands) :
    part.start = ⟨l.number, .breakpoint⟩ ∧
      ∃ previous, (previous, part) ∈ followed (split f.lines bs) ∧ previous.stop = part.start ∧
        previous.terminator.isSet = true := by
  have hstart := (f.allLead_split hbs part hpart).2 l hl
  have hmem : l ∈ f.lines.filter SourceLine.isCommand := by
    rw [← flatMap_commands_split f.lines bs]
    exact List.mem_flatMap.mpr ⟨part, hpart, hl⟩
  obtain ⟨hline, hcommand⟩ := List.mem_filter.mp hmem
  have hstatic : l.line ≠ .breakpoint := by
    intro h
    rw [SourceLine.isCommand, h] at hcommand
    cases hcommand
  obtain ⟨t, ht, hcut⟩ := hbs.cut_before hline hcommand
  have hall : (part.start, t) ∈ f.allCuts bs := by
    refine List.mem_flatMap.mpr ⟨l, hline, breakpointCut_subset_cuts hstatic ?_⟩
    rw [hcut, hstart]
    exact List.mem_singleton_self _
  obtain ⟨previous, hfollowed, hstop, rfl⟩ := hf.exists_followed hpart hall
  exact ⟨hstart, previous, hfollowed, hstop, ht⟩

/-- A call is followed by a piece without lines, which a breakpoint ends. -/
theorem Function.exists_followed_call (hbs : bs.Cover f.lines) (hl : l ∈ f.lines)
    {call : FunctionCall} (hcall : l.line = .call call) :
    ∃ part next, (part, next) ∈ followed (split f.lines bs) ∧
      part.terminator = .call l.number l.text call ∧ next.lines = [] ∧
        next.stop = ⟨l.number, .afterFunction⟩ ∧ next.terminator.isSet = true := by
  obtain ⟨t, t', -, ht', hsegments⟩ := hbs.segments_call hl hcall
  obtain ⟨before, after, hlines⟩ := List.append_of_mem hl
  have hall : f.segments bs =
      (before.flatMap (SourceLine.segments bs) ++ [.cut ⟨l.number, .breakpoint⟩ t]) ++
      .cut ⟨l.number, .function⟩ (.call l.number l.text call) ::
        .cut ⟨l.number, .afterFunction⟩ t' ::
        after.flatMap (SourceLine.segments bs) := by
    rw [Function.segments, hlines, List.flatMap_append, List.flatMap_cons, hsegments]
    simp
  obtain ⟨part, hpart, hmem⟩ := exists_followed_of_cuts f.lastLine ⟨1, .entry⟩ [] _ _ _ _ _ _
  rw [← hall, ← split_eq_pieces] at hmem
  exact ⟨part, _, hmem, hpart, rfl, rfl, ht'⟩

/-- A breakpoint of the client stops the program before its line. -/
theorem NumberedFrom.ends_at_normal {lines : List SourceLine} (hlines : NumberedFrom 1 lines)
    (hl : l ∈ lines) (hb : bs.at? ⟨l.number, .breakpoint⟩ = some b) (htype : b.type = .normal)
    (t : Terminator) :
    (∃ part ∈ split lines bs, part.stop = ⟨l.number, .breakpoint⟩ ∧ part.terminator = t) ↔
      t = if l.line = .breakpoint then .static else .breakpoint .breakpoint := by
  obtain ⟨i, hi⟩ := List.mem_iff_getElem?.mp hl
  have hnumber : l.number = i + 1 := by rw [hlines.number_of_getElem? hi, Nat.add_comm]
  rw [hnumber] at hb ⊢
  obtain ⟨type, condition⟩ := b
  obtain rfl : type = .normal := htype
  rw [hlines.ends_iff_boundary]
  constructor
  · intro h
    generalize hq : Position.mk (i + 1) .breakpoint = q at h
    cases h with
    | static hl' hstatic =>
      obtain rfl := Nat.succ.inj (Position.mk.inj hq).1
      cases hi.symm.trans hl'
      rw [if_pos hstatic]
    | before hl' hstatic hb' hasks =>
      obtain rfl := Nat.succ.inj (Position.mk.inj hq).1
      cases hi.symm.trans hl'
      cases hb.symm.trans hb'
      rw [if_neg hstatic]
      cases hasks
      rfl
    | call | after | «return» => exact absurd (Position.mk.inj hq).2 (by simp)
  · rintro rfl
    split
    · exact .static hi ‹_›
    · exact .before hi ‹_› hb .normal

end Function

/-- While a step is made, the program can stop before each command of each function and after each
    call: the pieces of the function hold one command at most.  The step stops where the depth
    allows it, and the breakpoints of the client stop the program as ever. -/
theorem step_stops_before_commands {s : Session} (hs : s.Genuine) {depth : Int}
    (hdepth : s.stepDepth = some depth) {name : ResourceName} {f : Function}
    (hf : s.function? name = some f) :
    StepsThrough f.lines depth (s.breakpoints.of name)
      (split f.lines (s.effectiveBreakpoints.of name)) := by
  have hmem : (name, f) ∈ s.functions := SortedAssoc.mem_of_find? hf
  have hnumbered : f.Numbered := hs.functions.numbered _ hmem
  have hcover : (s.effectiveBreakpoints.of name).Cover f.lines := fun l hl p hp =>
    Session.exists_breakpointCut_of_step hdepth hmem hl hp
  refine ⟨flatMap_commands_split .., fun part hpart => (f.allLead_split hcover part hpart).1,
    fun part hpart l hl => hnumbered.exists_before_command hcover hpart hl,
    fun l hl call hcall => f.exists_followed_call hcover hl hcall, fun part hpart _ c hc => ?_,
    fun l hl b hb htype t => ?_⟩
  · have hcut := (mem_pieces_terminator (by simp)).mp ⟨part, split_eq_pieces f _ ▸ hpart, rfl, hc⟩
    obtain ⟨b, hb, htype, rfl⟩ := Function.of_step_mem_segments hcut
    exact Session.condition_of_step hdepth hs.breakpoints hb htype
  · have hhas : s.breakpoints.has name ⟨l.number, .breakpoint⟩ = true :=
      BreakpointMap.has_iff.mpr ⟨b, hb, by simp [htype]⟩
    rw [← s.extends_effectiveBreakpoints.at?_of_has hhas] at hb
    exact NumberedFrom.ends_at_normal hnumbered hl hb htype t

/-- A function with calls and commands, one of which cannot be read. -/
def steppedLines : List SourceLine :=
  let call : FunctionCall := ⟨⟨"t", "g"⟩, none, 0, {}⟩
  [⟨1, "say 1", .other {} none⟩, ⟨2, "function t:g", .call call⟩, ⟨3, "# text", .comment⟩,
    ⟨4, "give", .other {} (some ⟨⟨.unknownOrIncomplete, 4⟩, "give"⟩)⟩,
    ⟨5, "# breakpoint", .breakpoint⟩, ⟨6, "function t:g", .call call⟩]

/-- The program has stopped before the first call. -/
def steppedSession : Session where
  grammar := ⟨#[]⟩
  status := .stopped
  launch := some ⟨"p", ⟨"t", "f"⟩, "o", {}⟩
  functions := [(⟨"t", "f"⟩, ⟨⟨"t", "f"⟩, [], steppedLines⟩)]
  stop := some
    { function := ⟨"t", "f"⟩, position := ⟨2, .breakpoint⟩, reason := .step
      frames := some [⟨1, ⟨"t", "f"⟩, [], 2, 1⟩] }

/-- Then the client sets breakpoints at the last three lines, one of them without effect, and asks
    for a step into the call, but the server cannot be reached. -/
def steppedPlay : List (Operation × SessionM.History) × Session :=
  let host : SessionM.SteadyHost :=
    { tree := SessionM.sampleTree "say a", failure := some .cancelled }
  steppedSession.play [(sampleBreakpoints [4, 5, 6], host), (.resume (some .into), host)]

/-- The piece with the line that cannot be read starts at the breakpoint of the step, and the one
    with the last call at that of the client. -/
theorem steppedPlay_stops :
    StepsThrough steppedLines 2 (steppedPlay.2.breakpoints.of ⟨"t", "f"⟩)
      (split steppedLines (steppedPlay.2.effectiveBreakpoints.of ⟨"t", "f"⟩)) ∧
    (split steppedLines (steppedPlay.2.effectiveBreakpoints.of ⟨"t", "f"⟩)).map
        (fun part => (part.commands.map (·.number), part.stop, part.terminator.isSet)) =
      [([], ⟨1, .breakpoint⟩, true), ([1], ⟨2, .breakpoint⟩, true), ([2], ⟨2, .function⟩, false),
        ([], ⟨2, .afterFunction⟩, true), ([], ⟨4, .breakpoint⟩, true),
        ([4], ⟨5, .breakpoint⟩, false), ([], ⟨6, .breakpoint⟩, true), ([6], ⟨6, .function⟩, false),
        ([], ⟨6, .afterFunction⟩, true), ([], ⟨6, .return⟩, false)] := by
  have hs : steppedSession.Genuine :=
    ⟨⟨List.pairwise_singleton _ _, by decide,
      List.forall_mem_singleton.mpr ⟨rfl, rfl, rfl, rfl, rfl, rfl, trivial⟩⟩,
        fun _ _ _ h => by cases h⟩
  have hdepth : steppedPlay.2.stepDepth = some 2 := by decide +kernel
  have hf : steppedPlay.2.function? ⟨"t", "f"⟩ = some ⟨⟨"t", "f"⟩, [], steppedLines⟩ := by
    decide +kernel
  exact ⟨step_stops_before_commands ((Session.run_play ..).genuine hs) hdepth hf, by decide +kernel⟩

end DatapackDebug
