import DatapackDebug.Generate.Edit
import DatapackDebug.Generate.Instruction
import DatapackDebug.Partition.Basic

namespace DatapackDebug

/-!
# The generated parts of a function

Each function becomes

* `start` — push a frame and enter the first piece;
* `scheduled` — the same from the schedule, where a stopped program makes it wait;
* `validate` — every command under a condition that never holds, so that the server refuses the
  unit if it cannot read one of them;
* `return` and `return_self` — pop a frame, and go on in a caller that was stopped meanwhile;
* `resume` — go on where the marker of the stop says;
* one unit for each piece, named for the position where it starts.

A function that was not validated ends the program with a message.
-/

/-- What the units of all functions are generated from. -/
structure Pack where
  config : PackConfig
  functions : Functions
deriving Repr

namespace Pack

/-- The namespace of the debugger. -/
def ns (p : Pack) : Text := p.config.ns

/-- The names of the functions in order. -/
def names (p : Pack) : List ResourceName := p.functions.map (·.1)

/-- Is the function in the datapack? -/
def contains (p : Pack) (f : ResourceName) : Bool :=
  (SortedAssoc.find? ResourceName.compare f p.functions).isSome

/-- The number of a function: its place in the order of names, from one on. -/
def id (p : Pack) (f : ResourceName) : Nat := p.names.idxOf f + 1

/-- Who holds the scores of a function. -/
def holder (p : Pack) (f : ResourceName) : Text := scoreHolder p.ns f (p.id f)

/-- The functions that call a function, in order. -/
def callers (p : Pack) (f : ResourceName) : List ResourceName :=
  (p.functions.filter fun (_, g) => g.calls.any (·.call.name == f)).map (·.1)

end Pack

namespace Generate

/-! ### Conditions and targets -/

/-- The invisible entities with all of some tags. -/
def clouds (tags : List Tag) : Target := .select { tags }

/-- One of the invisible entities with a tag. -/
def oneCloud (tag : Tag) : Target := .select { tags := [tag], one := true }

/-- Unless the program is stopped. -/
def unlessStopped : Modifier := .unlessScore .stopped (.exactly 1)

/-- As the frame of the current call. -/
def asFrame : List Modifier := [.as (clouds [.functionCall]), .ifAtDepth]

/-- The scores of entities. -/
def scoreOf (t : Target) (o : Objective) : Score := ⟨.entities t, o⟩

/-! ### Units -/

/-- The lines of a unit that may only run if the function was validated. -/
def guarded (p : Pack) (f : ResourceName) (lines : List Instruction) : List Instruction :=
  let valid := Score.valid (p.holder f)
  [.execute [.unlessScore valid (.exactly 1)] (.tellInvalid f),
    .execute [.unlessScore valid (.exactly 1)] (.function .onExit)] ++
    lines.map (.eachLine ⟨[.ifScore valid (.exactly 1)], true⟩)

/-- Push a frame with the anchor of the call, and enter the function. -/
def start (p : Pack) (f : ResourceName) : List Instruction :=
  let fresh := clouds [.new]
  guarded p f <| List.map (Instruction.under unlessStopped)
    [.addScore .depth 1,
      .summon [.own, .functionCall, .new, .function f],
      .moveHere fresh,
      .copyScore (scoreOf fresh .depth) .depth,
      .copyScore (scoreOf fresh .anchor) .anchor,
      .nameFrame (oneCloud .new) f 1 1,
      .removeTag fresh .new,
      .function (.of f (.piece ⟨1, .entry⟩))]

/-- Enter the function from the schedule, or wait while the program is stopped. -/
def scheduled (p : Pack) (f : ResourceName) : List Instruction :=
  guarded p f
    [.execute [.ifScore .stopped (.exactly 1)] (.schedule (.of f .scheduled)),
      .execute [unlessStopped] (.setScore .anchor 0),
      .execute [unlessStopped] (.function (.of f .start))]

/-- Every command of the function, none of which is executed, and the mark that the server could
    read them. -/
def validate (p : Pack) (f : Function) : List Instruction :=
  let valid := Score.valid (p.holder f.name)
  (f.lines.filter (·.line.isCommand)).map
    (fun l => .execute [.ifScore valid (.exactly 2)] (.source l.text)) ++ [.setScore valid 1]

/-- Go on in a caller that was stopped, with the anchor of its frame. -/
def returnCase (caller : ResourceName) (a : Argument.Anchor) (r : ScoreRange) : Instruction :=
  .execute
    [.ifEntity (.select { tags := [.returnTarget, .function caller], anchor := some r }),
      .at (oneCloud .returnTarget), .rotatedAs (oneCloud .returnTarget), .anchored a]
    (.function (.of caller .returnSelf))

/-- Pop a frame.  If it was there at a stop, its caller is no longer being executed, and the frame
    of the caller is where to go on. -/
def return_ (p : Pack) (f : ResourceName) : List Instruction :=
  [.setScore .returningSuspended 0,
    .execute [.as (clouds [.functionCall, .suspended]), .ifAtDepth]
      (.setScore .returningSuspended 1),
    .execute asFrame (.kill .self),
    .removeScore .depth 1,
    .execute [.ifScore .depth (.atMost 0)] (.function .onExit),
    .execute (.ifScore .returningSuspended (.exactly 1) :: asFrame)
      (.addTag .self .returnTarget)] ++
    (p.callers f).flatMap fun caller =>
      [returnCase caller .eyes (.exactly 1), returnCase caller .feet (.atMost 0)]

/-- The position that a call in a line returns to. -/
def callSite (line : Nat) : Position := ⟨line, .function⟩

/-- Go on after the call that the frame of the function is tagged with. -/
def returnSelf (f : Function) : List Instruction :=
  f.calls.map fun site =>
    .execute [.ifEntity (clouds [.returnTarget, .position f.name (callSite site.line)])]
      (.function (.of f.name (.piece (callSite site.line))))

/-- Find the position of the marker, remove the marker, and go on at the position. -/
def resume (f : Function) (partitions : List Partition) : List Instruction :=
  let targets := resumeTargets partitions
  [.setScore .resumePosition (-1)] ++
    targets.mapIdx (fun i p =>
      .execute [.ifEntity (clouds [.breakpoint, .position f.name p])]
        (.setScore .resumePosition i)) ++
    [.kill (clouds [.breakpoint])] ++
    targets.mapIdx (fun i p =>
      .execute [.ifScore .resumePosition (.exactly i)] (.function (.of f.name (.piece p))))

/-! ### Pieces -/

/-- The column of the call in a line, from one on. -/
def callColumn? (f : Function) (line : Nat) : Option Nat :=
  (f.calls.find? (·.line == line)).map (·.call.column + 1)

/-- The column of a position, from one on: that of the call after a call, else the first. -/
def column (f : Function) (p : Position) : Nat :=
  match p.place with
  | .function | .afterFunction => (callColumn? f p.line).getD 1
  | _ => 1

/-- After a call has returned its call site is no longer marked. -/
def afterCall (f : ResourceName) (line : Nat) : List Instruction :=
  [.execute asFrame (.removeTag .self (.position f (callSite line))),
    .removeTag (clouds [.returnTarget]) .returnTarget]

/-- Stop at a position: freeze the frames, leave a marker, and tell the position in the log. -/
def stop (c : PackConfig) (f : Function) (p : Position) : List Instruction :=
  [.function .suspend,
    .summon [.own, .breakpoint, .new, .function f.name],
    .moveHere (clouds [.new]),
    .removeTag (clouds [.new]) .new,
    .execute asFrame (.nameFrame .self f.name p.line (column f p)),
    .clearLog,
    .logBlock .alone c.ns (.addTag (oneCloud .breakpoint) (.position f.name p))]

/-- The marks of a condition that stand for settings of the datapack. -/
def expandCondition (c : PackConfig) (condition : Text) : Text :=
  Text.substitute
    [("-ns-", c.ns), ("-log_pos-", c.logPosition.text),
      ("-log_xz-", Text.ofInt c.logPosition.x ++ " " ++ Text.ofInt c.logPosition.z)]
    condition

/-- The anchor of a call: what the command sets, else that of the frame. -/
def anchorOfCall : Option Argument.Anchor → Instruction
  | some .eyes => .setScore .anchor 1
  | some .feet => .setScore .anchor 0
  | none => .execute asFrame (.copyScore .anchor (scoreOf .self .anchor))

/-- Call a function of the datapack, and go on after it unless the program was stopped. -/
def callInside (p : Pack) (f : Function) (line : Nat) (text : Text) (call : FunctionCall) :
    List Instruction :=
  [.execute asFrame (.addTag .self (.position f.name (callSite line))),
    .execute asFrame (.nameFrame .self f.name line (call.column + 1)),
    anchorOfCall call.anchor,
    .behind (editedFront p.ns text call) (.function (.of call.name .start)),
    .execute [unlessStopped] (.function (.of f.name (.piece (callSite line))))]

/-- Call a function that is not in the datapack, and go on after it. -/
def callOutside (p : Pack) (f : Function) (line : Nat) (text : Text) (call : FunctionCall) :
    List Instruction :=
  [.source (Edit.apply text (hideEdits p.ns text call.mentions.selectors)),
    .function (.of f.name (.piece (callSite line)))]

/-- What a piece does at its end. -/
def ending (p : Pack) (f : Function) (part : Partition) : List Instruction :=
  let next : Instruction := .function (.of f.name (.piece part.stop))
  match part.terminator with
  | .static | .breakpoint _ => stop p.config f part.stop
  | .step _ condition =>
    let condition := expandCondition p.config condition
    (stop p.config f part.stop).map (.eachLine ⟨[.given condition], false⟩) ++
      [.execute [unlessStopped] next]
  | .continue _ => [next]
  | .call line text call =>
    if p.contains call.name then callInside p f line text call
    else callOutside p f line text call
  | .return => [.function (.of f.name .return)]

/-- The unit of a piece. -/
def piece (p : Pack) (f : Function) (part : Partition) : List Instruction :=
  (if part.start.place = .function then afterCall f.name part.start.line else []) ++
    (part.lines.filter (·.line.isCommand)).map (fun l => .source (l.edited p.ns p.functions)) ++
    ending p f part

/-- The units of a function. -/
def functionUnits (p : Pack) (f : Function) (bs : Breakpoints) :
    List (UnitName × List Instruction) :=
  let partitions := split f.lines bs
  [(.of f.name .start, start p f.name),
    (.of f.name .scheduled, scheduled p f.name),
    (.of f.name .validate, validate p f),
    (.of f.name .return, return_ p f.name),
    (.of f.name .returnSelf, returnSelf f),
    (.of f.name .resume, resume f partitions)] ++
    partitions.map fun part => (.of f.name (.piece part.start), piece p f part)

end Generate

end DatapackDebug
