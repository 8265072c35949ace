import DatapackDebug.Session.Pack

namespace DatapackDebug

/-!
# Asking the server

At a stop, the frames and the scores of the debugged program are known to the server only.

* `collect` — the outputs that answer a query;
* `SessionM.frames` — the frames, the innermost first;
* `SessionM.scores` — the scores of the executing entity;
* `SessionM.stackTrace`, `SessionM.scopes`, `SessionM.variablesAt` — the same for the client.
-/

/-- What blocks of the name `executor` have reported before a block of the name `last` does. -/
def collect (executor last : Text) : List LogEvent → Option (List Text)
  | [] => none
  | e :: es =>
    if e.executor == executor then (collect executor last es).map (e.output :: ·)
    else if e.executor == last then some []
    else collect executor last es

/-- The frame that an output tells of. -/
def Session.frame? (s : Session) (output : Text) : Option Frame := do
  let score ← Report.score? output
  let name ← Report.frameName? score.holder
  some
    { depth := score.value, function := name.function, path := s.pathOf name.function
      line := name.line, column := name.column }

/-- Frames, the deepest first. -/
def sortFrames (fs : List Frame) : List Frame := fs.mergeSort fun f g => f.depth ≥ g.depth

/-- The scores for objectives, read off the outputs in the same order. -/
def variablesOf (objectives outputs : List Text) : List Variable :=
  objectives.mapIdx fun i objective =>
    ⟨objective, ((outputs[i]?).bind Report.score?).map (·.value)⟩

/-- Where references to the scores of frames start. -/
def scopeBase : Int := 1002

/-- The reference to the scores of a frame. -/
def scopeReference (depth : Int) : Int := wrap64 (scopeBase + depth)

/-- The scores of a frame, for the client to ask for. -/
structure Scope where
  name : Text
  reference : Int
deriving DecidableEq, Repr

namespace SessionM

/-- Inject commands, and collect what blocks of the name `executor` report before `last` does. -/
def query (commands : List ServerCommand) (executor last : Text) : SessionM (List Text) := do
  match ← ask (.query commands last) with
  | .error e => connectionFailed e
  | .ok (events, ending) =>
    match collect executor last events, ending with
    | some outputs, _ => return outputs
    | none, .cancelled => throw .cancelled
    | none, .deadline => throw (.connection .deadline)
    | none, .closed => connectionFailed (.closed none)

/-- The commands that report the depth of each frame and then the depth of the stop. -/
def stackCommands (ns : Text) : List ServerCommand :=
  [⟨ns ++ "_stack", "execute as @e[type=area_effect_cloud,tag=" ++ ns ++
      "_function_call] run scoreboard players get @s " ++ ns ++ "_depth"⟩,
    ⟨ns ++ "_stack_end", "scoreboard players get current " ++ ns ++ "_depth"⟩]

/-- Change what is known of the stop. -/
def modifyStop (f : Stop → Stop) : SessionM Unit :=
  modify fun s => { s with stop := s.stop.map f }

/-- The frames at the stop, the innermost first. -/
def frames : SessionM (List Frame) := do
  match (← get).stop with
  | none => throw .notStopped
  | some stop =>
    match stop.frames with
    | some frames => return frames
    | none =>
      let ns := (← get).ns
      let outputs ← query (stackCommands ns) (ns ++ "_stack") (ns ++ "_stack_end")
      let frames := sortFrames (outputs.filterMap (← get).frame?)
      modifyStop fun stop => { stop with frames := some frames }
      return frames

/-- The scores of the executing entity for all objectives of the datapack. -/
def scores : SessionM (List Variable) := do
  match (← get).stop with
  | none => throw .notStopped
  | some stop =>
    match stop.scores with
    | some scores => return scores
    | none =>
      let ns := (← get).ns
      let outputs ← query [⟨ns, "function " ++ ns ++ ":log_scores"⟩] (ns ++ "_score")
        (ns ++ "_scores_end")
      let scores := variablesOf (← get).objectives outputs
      modifyStop fun stop => { stop with scores := some scores }
      return scores

/-- The frames of the stopped program. -/
def stackTrace : SessionM (List Frame) := do
  require [.stopped] .notStopped
  frames

/-- What the client can look at in a frame.  Only the innermost has scores, since only its entity is
    known. -/
def scopes (depth : Int) : SessionM (List Scope) := do
  match ← stackTrace with
  | f :: _ => return if f.depth == depth then [⟨"Scores", scopeReference depth⟩] else []
  | [] => return []

/-- The scores that a reference stands for. -/
def variablesAt (reference : Int) : SessionM (List Variable) := do
  require [.stopped] .notStopped
  unless reference ≥ scopeBase do throw .unknownReference
  match ← frames with
  | f :: _ => if f.depth == reference - scopeBase then scores else throw .unknownReference
  | [] => throw .unknownReference

end SessionM

end DatapackDebug
