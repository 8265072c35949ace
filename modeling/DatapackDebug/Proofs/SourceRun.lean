import DatapackDebug.Proofs.Units
import DatapackDebug.Session.Pack

namespace DatapackDebug

/-!
# Direct execution of the source

What a program does that is executed line by line, without being generated into pieces.

* `stepBound?_stepCondition`, `depthBound?_expandCondition` — the condition of a step compares the
  depth with a bound, in the source and in the generated datapack;
* `Breakpoint.stops`, `stopEvents` — does the program stop at a position?
* `SourceRun` — the lines of a function run to their end, with the commands and stops on the way;
* `Remaining` — the same over the segments of all functions on a stack of calls, in numbered steps;
* `SourceRun.remaining` — a run of lines is one of segments.
-/

/-! ### Stops -/

/-- The greatest depth at which a step stops, as its condition tells. -/
def stepBound? (condition : Text) : Option Int := depthBound? "-ns-" condition

/-- The bound of a test of the depth is read back. -/
theorem depthBound?_depthTest (ns : Text) (n : Int) :
    depthBound? ns (depthTest ns ++ Text.ofInt n) = some n := by
  simp [depthBound?, Text.dropStart?_append, Text.toInt?_ofInt]

section

variable {pairs : List (Text × Text)}
  (hpairs : ∀ e ∈ pairs, ∃ b key, e.1 = 0x2d :: b :: key ∧ Text.isDigit b = false)

include hpairs

/-- Where no key begins, nothing is substituted. -/
theorem Text.substitute_go_append {s : Text} (hs : 0x2d ∉ s) (n : Nat) (t : Text) :
    Text.substitute.go pairs (s.length + n) (s ++ t) = s ++ Text.substitute.go pairs n t := by
  induction s with
  | nil => simp
  | cons b s ih =>
    simp only [List.mem_cons, not_or] at hs
    have hnone : Text.substituteOne? pairs (b :: (s ++ t)) = none := by
      refine List.findSome?_eq_none_iff.mpr fun e he => ?_
      obtain ⟨b', key, hkey, -⟩ := hpairs e he
      simp [Text.dropStart?, hkey, hs.1]
    rw [List.length_cons, Nat.add_right_comm, List.cons_append, Text.substitute.go, hnone]
    simp [ih hs.2]

/-- In a number nothing is substituted: no key goes on with a digit after a minus. -/
theorem Text.substitute_go_ofInt (i : Int) (n : Nat) :
    Text.substitute.go pairs ((Text.ofInt i).length + n) (Text.ofInt i) = Text.ofInt i := by
  have hnat : ∀ m, Text.substitute.go pairs ((Text.ofNat m).length + n) (Text.ofNat m) =
      Text.ofNat m := by
    intro m
    have hdigits : 0x2d ∉ Text.ofNat m := fun hm =>
      absurd (Text.isDigit_of_mem_ofNat hm) (by decide)
    have hnil : Text.substitute.go pairs n [] = [] := by cases n <;> rfl
    simpa [hnil] using Text.substitute_go_append hpairs hdigits n []
  cases i with
  | ofNat m => exact hnat m
  | negSucc m =>
    have hnone : Text.substituteOne? pairs (0x2d :: Text.ofNat (m + 1)) = none := by
      refine List.findSome?_eq_none_iff.mpr fun e he => ?_
      obtain ⟨b, key, hkey, hb⟩ := hpairs e he
      cases hm : Text.ofNat (m + 1) with
      | nil => simp [hkey, Text.dropStart?]
      | cons d ds =>
        have hd : Text.isDigit d = true := Text.isDigit_of_mem_ofNat (hm ▸ List.mem_cons_self)
        have hne : b ≠ d := by
          rintro rfl
          simp [hb] at hd
        simp [hkey, Text.dropStart?, hne]
    rw [Text.ofInt, List.length_cons, Nat.add_right_comm, Text.substitute.go, hnone]
    simp [hnat]

end

/-- A key is replaced by its value. -/
theorem Text.substitute_go_key {pairs : List (Text × Text)} {key value t : Text} (hkey : key ≠ [])
    (hone : Text.substituteOne? pairs (key ++ t) = some (value, t)) (n : Nat) :
    Text.substitute.go pairs (n + 1) (key ++ t) = value ++ Text.substitute.go pairs n t := by
  obtain ⟨b, key, rfl⟩ := List.exists_cons_of_ne_nil hkey
  rw [List.cons_append] at hone ⊢
  rw [Text.substitute.go, hone]

/-- The mark of the namespace is the only one in the condition of a step. -/
theorem expandCondition_stepCondition (c : PackConfig) (n : Int) :
    Generate.expandCondition c (Session.stepCondition n) = depthTest c.ns ++ Text.ofInt n := by
  rw [Generate.expandCondition, Text.substitute]
  generalize hpairs : ([("-ns-", c.ns), ("-log_pos-", c.logPosition.text),
      ("-log_xz-", Text.ofInt c.logPosition.x ++ " " ++ Text.ofInt c.logPosition.z)] :
        List (Text × Text)) = pairs
  have hkeys : ∀ e ∈ pairs, ∃ b key, e.1 = 0x2d :: b :: key ∧ Text.isDigit b = false := by
    rw [← hpairs]
    simp only [List.mem_cons, List.not_mem_nil, or_false]
    rintro e (rfl | rfl | rfl)
    · exact ⟨0x6e, [0x73, 0x2d], show Text.ofString "-ns-" = _ by decide, by decide⟩
    · exact ⟨0x6c, [0x6f, 0x67, 0x5f, 0x70, 0x6f, 0x73, 0x2d],
        show Text.ofString "-log_pos-" = _ by decide, by decide⟩
    · exact ⟨0x6c, [0x6f, 0x67, 0x5f, 0x78, 0x7a, 0x2d],
        show Text.ofString "-log_xz-" = _ by decide, by decide⟩
  have hcondition : Session.stepCondition n = Text.ofString "if score current " ++
      (Text.ofString "-ns-" ++ (Text.ofString "_depth matches .." ++ Text.ofInt n)) := by
    simp only [Session.stepCondition, ← List.append_assoc]
    exact congrArg (· ++ Text.ofInt n) (by decide)
  have hlength : (Session.stepCondition n).length = (Text.ofString "if score current ").length +
      ((Text.ofString "_depth matches ..").length + ((Text.ofInt n).length + 3) + 1) := by
    rw [hcondition]
    simp only [List.length_append, show (Text.ofString "-ns-").length = 4 by decide]
    omega
  have hns : Text.substituteOne? pairs (Text.ofString "-ns-" ++
      (Text.ofString "_depth matches .." ++ Text.ofInt n)) =
        some (c.ns, Text.ofString "_depth matches .." ++ Text.ofInt n) := by
    simp [← hpairs, Text.substituteOne?, Text.dropStart?_append]
  rw [hlength, hcondition, Text.substitute_go_append hkeys (by decide),
    Text.substitute_go_key (by decide) hns, Text.substitute_go_append hkeys (by decide),
    Text.substitute_go_ofInt hkeys]
  have hfront : Text.ofString "if score current " =
      Text.ofString "if score " ++ (Text.ofString "current" ++ Text.ofString " ") := by decide
  have hback : Text.ofString "_depth matches .." =
      Text.ofString "_depth" ++ Text.ofString " matches .." := by decide
  simp [depthTest, Score.depth, Score.text, Holder.text, Objective.text, hfront, hback]

/-- The condition of a step tells the greatest depth at which it stops. -/
theorem stepBound?_stepCondition (n : Int) : stepBound? (Session.stepCondition n) = some n :=
  depthBound?_depthTest "-ns-" n

/-- So does the condition in a generated datapack. -/
theorem depthBound?_expandCondition (c : PackConfig) (n : Int) :
    depthBound? c.ns (Generate.expandCondition c (Session.stepCondition n)) = some n := by
  rw [expandCondition_stepCondition, depthBound?_depthTest]

/-- Does a breakpoint stop the program at a depth of calls? -/
def Breakpoint.stops (depth : Nat) (b : Breakpoint) : Bool :=
  match b.type with
  | .normal => true
  | .invalid | .continue => false
  | .step => (stepBound? b.condition).any fun n => decide ((depth : Int) ≤ n)

/-- The stop at a position of a function, as the log tells it. -/
def stopEvent (ns : Text) (f : ResourceName) (q : Position) : Event :=
  .report ((Tag.position f q).text ns)

/-- What happens at a position: the program stops if a breakpoint there stops it. -/
def stopEvents (ns : Text) (bs : BreakpointMap) (f : ResourceName) (depth : Nat) (q : Position) :
    List Event :=
  if ((bs.of f).at? q).any (·.stops depth) then [stopEvent ns f q] else []

/-! ### Runs of lines -/

/-- The lines of a function run to their end at a depth of calls.  `x` executes all commands; a call
    of a function of the datapack runs its lines, one level deeper. -/
inductive SourceRun (p : Pack) (bs : BreakpointMap) (x : Executor) :
    Function → Nat → List SourceLine → List Event → Prop where
  | done {f depth} : SourceRun p bs x f depth [] []
  | breakpoint {f depth l ls t} : l.line = .breakpoint →
      SourceRun p bs x f depth ls t →
      SourceRun p bs x f depth (l :: ls) (stopEvent p.ns f.name ⟨l.number, .breakpoint⟩ :: t)
  | inside {f depth l ls call g t₁ t₂} : l.line = .call call → p.function? call.name = some g →
      SourceRun p bs x g (depth + 1) g.lines t₁ →
      SourceRun p bs x f depth ls t₂ →
      SourceRun p bs x f depth (l :: ls)
        (stopEvents p.ns bs f.name depth ⟨l.number, .breakpoint⟩ ++ t₁ ++
          stopEvents p.ns bs f.name depth ⟨l.number, .afterFunction⟩ ++ t₂)
  | outside {f depth l ls call t} : l.line = .call call → p.function? call.name = none →
      SourceRun p bs x f depth ls t →
      SourceRun p bs x f depth (l :: ls)
        (stopEvents p.ns bs f.name depth ⟨l.number, .breakpoint⟩ ++
          .command x (l.edited p.ns p.functions) ::
          stopEvents p.ns bs f.name depth ⟨l.number, .afterFunction⟩ ++ t)
  | command {f depth l ls t} : l.line.isCommand = true → (∀ call, l.line ≠ .call call) →
      SourceRun p bs x f depth ls t →
      SourceRun p bs x f depth (l :: ls)
        (stopEvents p.ns bs f.name depth ⟨l.number, .breakpoint⟩ ++
          .command x (l.edited p.ns p.functions) :: t)
  | skipped {f depth l ls t} : l.line.isCommand = false → l.line ≠ .breakpoint →
      SourceRun p bs x f depth ls t →
      SourceRun p bs x f depth (l :: ls)
        (stopEvents p.ns bs f.name depth ⟨l.number, .breakpoint⟩ ++ t)

/-! ### Runs of segments -/

/-- Does the program stop at a cut? -/
@[simp] def Terminator.stops (depth : Nat) : Terminator → Bool
  | .static | .breakpoint _ => true
  | .step _ condition => (stepBound? condition).any fun n => decide ((depth : Int) ≤ n)
  | _ => false

/-- The functions that are being executed, the innermost first, and what is left of each. -/
abbrev Stack := List (Function × List Segment)

/-- What happens until all functions of a stack have returned, in a number of steps.  A step is a
    line, a cut, a call or a return. -/
inductive Remaining (p : Pack) (bs : BreakpointMap) (x : Executor) :
    Nat → Stack → List Event → Prop where
  | ended : Remaining p bs x 0 [] []
  | return {n f stack t} : Remaining p bs x n stack t →
      Remaining p bs x (n + 1) ((f, []) :: stack) t
  | command {n f l ss stack t} : l.line.isCommand = true → Remaining p bs x n ((f, ss) :: stack) t →
      Remaining p bs x (n + 1) ((f, .line l :: ss) :: stack)
        (.command x (l.edited p.ns p.functions) :: t)
  | skipped {n f l ss stack t} : l.line.isCommand = false →
      Remaining p bs x n ((f, ss) :: stack) t →
      Remaining p bs x (n + 1) ((f, .line l :: ss) :: stack) t
  | stop {n f q terminator ss stack t} : terminator.stops (stack.length + 1) = true →
      Remaining p bs x n ((f, ss) :: stack) t →
      Remaining p bs x (n + 1) ((f, .cut q terminator :: ss) :: stack)
        (stopEvent p.ns f.name q :: t)
  | pass {n f q terminator ss stack t} : terminator.isResumable = true →
      terminator.stops (stack.length + 1) = false → Remaining p bs x n ((f, ss) :: stack) t →
      Remaining p bs x (n + 1) ((f, .cut q terminator :: ss) :: stack) t
  | inside {n f q line text call g ss stack t} : p.function? call.name = some g →
      Remaining p bs x n ((g, g.segments (bs.of g.name)) :: (f, ss) :: stack) t →
      Remaining p bs x (n + 1) ((f, .cut q (.call line text call) :: ss) :: stack) t
  | outside {n f q line text call ss stack t} : p.function? call.name = none →
      Remaining p bs x n ((f, ss) :: stack) t →
      Remaining p bs x (n + 1) ((f, .cut q (.call line text call) :: ss) :: stack)
        (.command x (Edit.apply text (hideEdits p.ns text call.mentions.selectors)) :: t)

section

variable {p : Pack} {bs : BreakpointMap} {x : Executor}

/-- The cut of a breakpoint, if there is one, is where the program stops or passes. -/
theorem Remaining.breakpointCut {f : Function} {q : Position} {ss : List Segment} {stack : Stack}
    {t : List Event} {n : Nat} (h : Remaining p bs x n ((f, ss) :: stack) t) :
    ∃ n, Remaining p bs x n
      ((f, (DatapackDebug.breakpointCut (bs.of f.name) q).map
        (fun c => .cut c.1 c.2) ++ ss) :: stack)
      (stopEvents p.ns bs f.name (stack.length + 1) q ++ t) := by
  unfold DatapackDebug.breakpointCut Breakpoints.terminatorAt? stopEvents
  cases hb : (bs.of f.name).at? q with
  | none => exact ⟨n, by simpa using h⟩
  | some b =>
    cases htype : b.type with
    | normal =>
      exact ⟨n + 1, by simpa [Breakpoint.terminator?, htype, Breakpoint.stops] using .stop rfl h⟩
    | invalid => exact ⟨n, by simpa [Breakpoint.terminator?, htype, Breakpoint.stops] using h⟩
    | «continue» =>
      exact ⟨n + 1, by
        simpa [Breakpoint.terminator?, htype, Breakpoint.stops] using .pass rfl rfl h⟩
    | step =>
      refine ⟨n + 1, ?_⟩
      cases hstop : b.stops (stack.length + 1) with
      | true =>
        have hcut : (Terminator.step q.place b.condition).stops (stack.length + 1) = true := by
          simpa [Breakpoint.stops, htype] using hstop
        simpa [Breakpoint.terminator?, htype, hstop] using .stop hcut h
      | false =>
        have hcut : (Terminator.step q.place b.condition).stops (stack.length + 1) = false := by
          simpa [Breakpoint.stops, htype] using hstop
        simpa [Breakpoint.terminator?, htype, hstop] using .pass rfl hcut h

/-- A run of lines is one of their segments, and goes on with what follows them. -/
theorem SourceRun.remaining {f : Function} {depth : Nat} {ls : List SourceLine} {t : List Event}
    (h : SourceRun p bs x f depth ls t) {ss : List Segment} {stack : Stack}
    (hdepth : depth = stack.length + 1) {t' : List Event} {n : Nat}
    (hrest : Remaining p bs x n ((f, ss) :: stack) t') :
    ∃ n, Remaining p bs x n
      ((f, ls.flatMap (SourceLine.segments (bs.of f.name)) ++ ss) :: stack) (t ++ t') := by
  induction h generalizing ss stack t' n with
  | done => exact ⟨n, hrest⟩
  | breakpoint hl _ ih =>
    obtain ⟨n, hn⟩ := ih hdepth hrest
    exact ⟨n + 1, by simpa [SourceLine.segments, cuts, hl] using .stop rfl hn⟩
  | @inside f depth l ls call g t₁ t₂ hl hg _ _ ihcallee ih =>
    obtain ⟨n, hn⟩ := ih hdepth hrest
    obtain ⟨n, hn⟩ := hn.breakpointCut (q := ⟨l.number, .afterFunction⟩)
    -- The callee runs on top of what the caller has left after the call.
    obtain ⟨n, hn⟩ := ihcallee (by simp [hdepth]) (.return hn)
    have hcall : Remaining p bs x _
        ((f, .cut ⟨l.number, .function⟩ (.call l.number l.text call) :: _)
        :: stack) _ := .inside hg (by simpa [Function.segments] using hn)
    obtain ⟨n, hn⟩ := hcall.breakpointCut (q := ⟨l.number, .breakpoint⟩)
    exact ⟨n, by simpa [SourceLine.segments, cuts, hl, hdepth] using hn⟩
  | @outside f depth l ls call t hl hg _ ih =>
    obtain ⟨n, hn⟩ := ih hdepth hrest
    obtain ⟨n, hn⟩ := hn.breakpointCut (q := ⟨l.number, .afterFunction⟩)
    have hcall : Remaining p bs x _
        ((f, .cut ⟨l.number, .function⟩ (.call l.number l.text call) :: _)
        :: stack) _ := .outside hg hn
    obtain ⟨n, hn⟩ := hcall.breakpointCut (q := ⟨l.number, .breakpoint⟩)
    exact ⟨n, by simpa [SourceLine.segments, SourceLine.edited, cuts, hl, hdepth] using hn⟩
  | @command f depth l ls t hcommand hcall _ ih =>
    obtain ⟨n, hn⟩ := ih hdepth hrest
    obtain ⟨n, hn⟩ := (Remaining.command hcommand hn).breakpointCut (q := ⟨l.number, .breakpoint⟩)
    refine ⟨n, ?_⟩
    cases hl : l.line with
    | call call => exact absurd hl (hcall call)
    | schedule | other => simpa [SourceLine.segments, cuts, hl, hdepth] using hn
    | _ => simp [hl, Line.isCommand] at hcommand
  | @skipped f depth l ls t hcommand hbreakpoint _ ih =>
    obtain ⟨n, hn⟩ := ih hdepth hrest
    obtain ⟨n, hn⟩ := (Remaining.skipped hcommand hn).breakpointCut (q := ⟨l.number, .breakpoint⟩)
    refine ⟨n, ?_⟩
    cases hl : l.line with
    | breakpoint => exact absurd hl hbreakpoint
    | empty | comment => simpa [SourceLine.segments, cuts, hl, hdepth] using hn
    | _ => simp [hl, Line.isCommand] at hcommand

end

end DatapackDebug
