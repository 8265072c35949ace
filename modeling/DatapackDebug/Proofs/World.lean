import DatapackDebug.Generate.Output

namespace DatapackDebug

/-!
# A world that executes generated datapacks

The part of a game server that the commands of a generated datapack act on, as a value.

* `World` — entities with tags and scores, the scores of variables, the command block at the
  position of the log, and what was recorded so far;
* `World.select` — the entities of a target;
* `Modifier.executors` — who executes a command behind a subcommand of `execute`;
* `Instruction.effect` — what one command does;
* `World.run` — what a generated function does, up to a depth of nested calls;
* `World.tick` — the command block at the position of the log is executed, after the function;
* `World.debug` — start a function, and take it up again after each stop.

Commands of the source are recorded with the entity that executes them, and change nothing that the
debugger uses.  Tags and the names of functions are compared as texts, as the server compares them.
-/

/-! ### Worlds -/

/-- An entity with its tags, and its scores for two objectives of the debugger. -/
structure Entity where
  id : Nat
  isCloud : Bool
  tags : List Text
  depth : Option Int := none
  anchor : Option Int := none
deriving DecidableEq, Repr

namespace Entity

/-- The score of an entity for an objective of the debugger. -/
def score (e : Entity) : Objective → Option Int
  | .depth => e.depth
  | .anchor => e.anchor
  | _ => none

/-- The entity with another score. -/
def setScore (o : Objective) (n : Int) (e : Entity) : Entity :=
  match o with
  | .depth => { e with depth := some n }
  | .anchor => { e with anchor := some n }
  | _ => e

/-- The entity with one tag more. -/
def addTag (t : Text) (e : Entity) : Entity :=
  if t ∈ e.tags then e else { e with tags := t :: e.tags }

/-- The entity without a tag. -/
def removeTag (t : Text) (e : Entity) : Entity :=
  { e with tags := e.tags.filter (· != t) }

end Entity

/-- Who executes a command: an entity, or none on behalf of the server. -/
abbrev Executor := Option Nat

/-- What can be observed of a run. -/
inductive Event where
  /-- a command of the source is executed -/
  | command (executor : Executor) (text : Text)
  /-- the log tells that a tag was added -/
  | report (tag : Text)
deriving DecidableEq, Repr

/-- The state of a world. -/
structure World where
  entities : List Entity
  /-- the number of the next entity that is summoned -/
  nextId : Nat
  /-- the scores of names that are not entities -/
  scores : Text → Objective → Option Int
  /-- the command of the block at the position of the log, until it is executed -/
  block : Option Instruction
  record : List Event

namespace World

/-- The world with the score of a name set. -/
def setVariable (w : World) (name : Text) (o : Objective) (n : Int) : World :=
  { w with scores := fun name' o' => if name' = name ∧ o' = o then some n else w.scores name' o' }

/-- The world with some entities changed. -/
def update (w : World) (ids : List Nat) (f : Entity → Entity) : World :=
  { w with entities := w.entities.map fun e => if e.id ∈ ids then f e else e }

/-- The world without some entities. -/
def remove (w : World) (ids : List Nat) : World :=
  { w with entities := w.entities.filter fun e => decide (e.id ∉ ids) }

/-- The world with a new invisible entity. -/
def summon (w : World) (tags : List Text) : World :=
  { w with
    entities := { id := w.nextId, isCloud := true, tags } :: w.entities
    nextId := w.nextId + 1 }

/-- The world after something was observed. -/
def note (w : World) (e : Event) : World := { w with record := w.record ++ [e] }

end World

/-! ### Targets and conditions -/

/-- Does a score lie in a range? -/
@[simp] def ScoreRange.accepts (n : Int) : ScoreRange → Bool
  | .exactly m => n == m
  | .atMost m => decide (n ≤ m)

/-- Is an entity among those of a selection? -/
def Selection.accepts (ns : Text) (s : Selection) (e : Entity) : Bool :=
  (!s.clouds || e.isCloud) && s.tags.all (fun tag => decide (tag.text ns ∈ e.tags)) &&
    match s.anchor with
    | none => true
    | some r => e.anchor.any fun n => r.accepts n

namespace World

/-- The entities of a target. -/
def select (ns : Text) (w : World) (x : Executor) : Target → List Entity
  | .self => w.entities.filter fun e => some e.id == x
  | .select s =>
    let found := w.entities.filter (s.accepts ns)
    if s.one then found.take 1 else found

/-- The value of a score. -/
def score (ns : Text) (w : World) (x : Executor) (s : Score) : Option Int :=
  match s.holder with
  | .variable name => w.scores name s.objective
  | .entities t => (w.select ns x t).head?.bind (·.score s.objective)

/-- The world with a score set. -/
def setScore (ns : Text) (w : World) (x : Executor) (s : Score) (n : Int) : World :=
  match s.holder with
  | .variable name => w.setVariable name s.objective n
  | .entities t => w.update ((w.select ns x t).map (·.id)) (Entity.setScore s.objective n)

/-- Does a score lie in a range?  One that is not set lies in none. -/
def scoreIn (ns : Text) (w : World) (x : Executor) (s : Score) (r : ScoreRange) : Bool :=
  (w.score ns x s).any fun n => r.accepts n

end World

/-- What stands in a condition before the greatest depth at which a step stops. -/
def depthTest (ns : Text) : Text := "if score " ++ Score.depth.text ns ++ " matches .."

/-- The greatest depth that a condition of a step accepts. -/
def depthBound? (ns : Text) (condition : Text) : Option Int :=
  (Text.dropStart? (depthTest ns) condition).bind Text.toInt?

/-- Who executes what follows a subcommand: nobody if it is a condition that does not hold. -/
def Modifier.executors (ns : Text) (w : World) (x : Executor) : Modifier → List Executor
  | .ifScore s r => if w.scoreIn ns x s r then [x] else []
  | .unlessScore s r => if w.scoreIn ns x s r then [] else [x]
  | .ifAtDepth =>
    match w.score ns x ⟨.entities .self, .depth⟩, w.score ns x .depth with
    | some m, some n => if m = n then [x] else []
    | _, _ => []
  | .ifEntity t => if (w.select ns x t).isEmpty then [] else [x]
  | .unlessEntity t => if (w.select ns x t).isEmpty then [x] else []
  | .as t => (w.select ns x t).map fun e => some e.id
  | .at t | .rotatedAs t => (w.select ns x t).map fun _ => x
  | .anchored _ | .atLog => [x]
  | .given condition =>
    match depthBound? ns condition with
    | some n => if w.scoreIn ns x .depth (.atMost n) then [x] else []
    | none => []

/-- Who executes what follows several subcommands. -/
def Modifier.executorsOf (ns : Text) (w : World) (x : Executor) (ms : List Modifier) :
    List Executor :=
  ms.foldl (fun xs m => xs.flatMap fun x => m.executors ns w x) [x]

/-! ### Commands -/

/-- A generated datapack as the server knows it: functions by their paths. -/
abbrev Units := List (UnitName × List Instruction)

/-- The commands of a function. -/
def Units.lines? (us : Units) (u : UnitName) : Option (List Instruction) :=
  (us.find? fun unit => unit.1.path == u.path).map (·.2)

/-- The effect of a command, where `call` is the effect of a function.  It is nothing where the
    function does not end within the bound of `call`. -/
@[simp] def Instruction.effect (c : PackConfig)
    (call : UnitName → Executor → World → Option World) :
    Instruction → Executor → World → Option World
  | .function u, x, w => call u x w
  | .setScore s n, x, w => some (w.setScore c.ns x s n)
  | .addScore s n, x, w => some (w.setScore c.ns x s ((w.score c.ns x s).getD 0 + n))
  | .removeScore s n, x, w => some (w.setScore c.ns x s ((w.score c.ns x s).getD 0 - n))
  | .copyScore s t, x, w => some (w.setScore c.ns x s ((w.score c.ns x t).getD 0))
  | .summon tags, _, w => some (w.summon (tags.map (·.text c.ns)))
  | .addTag t tag, x, w =>
    some (w.update ((w.select c.ns x t).map (·.id)) (Entity.addTag (tag.text c.ns)))
  | .removeTag t tag, x, w =>
    some (w.update ((w.select c.ns x t).map (·.id)) (Entity.removeTag (tag.text c.ns)))
  | .kill t, x, w => some (w.remove ((w.select c.ns x t).map (·.id)))
  | .clearLog, _, w | .clearColumn _, _, w => some { w with block := none }
  | .logBlock .alone _ i, _, w => some { w with block := some i }
  | .source text, x, w => some (w.note (.command x text))
  | .behind text i, x, w =>
    if text.isEmpty then i.effect c call x w else some (w.note (.command x (text ++ i.text c)))
  | .execute ms i, x, w =>
    (Modifier.executorsOf c.ns w x ms).foldlM (fun w x => i.effect c call x w) w
  | .eachLine condition i, x, w =>
    (Modifier.executorsOf c.ns w x condition.modifiers).foldlM (fun w x => i.effect c call x w) w
  -- These act on places, names and messages, or on what is set up before a run.
  | .schedule _, _, w | .showScore _, _, w | .addObjective _, _, w | .removeObjective _, _, w
  | .moveHere _, _, w | .nameFrame .., _, w | .loadLog, _, w | .unloadLog, _, w
  | .logBlock .., _, w | .tellInvalid _, _, w => some w

namespace World

/-- The effect of commands one after the other. -/
def perform (c : PackConfig) (call : UnitName → Executor → World → Option World)
    (lines : List Instruction) (x : Executor) (w : World) : Option World :=
  lines.foldlM (fun w i => i.effect c call x w) w

/-- The effect of a function, or nothing if its calls are nested deeper than the bound.  A function
    that does not exist has no effect. -/
def run (c : PackConfig) (us : Units) : Nat → UnitName → Executor → World → Option World
  | 0, _, _, _ => none
  | bound + 1, u, x, w =>
    match us.lines? u with
    | none => some w
    | some lines => perform c (run c us bound) lines x w

/-! ### Stopping and going on -/

/-- Is the program stopped? -/
def isStopped (w : World) : Bool := w.scores "break" .global == some 1

/-- The command block at the position of the log is executed.  If it tags an entity, the log
    tells. -/
def tick (c : PackConfig) (w : World) : World :=
  match w.block with
  | some (.addTag t tag) =>
    let ids := (w.select c.ns none t).map (·.id)
    let w := { w with block := none }.update ids (Entity.addTag (tag.text c.ns))
    if ids.isEmpty then w else w.note (.report (tag.text c.ns))
  | _ => { w with block := none }

/-- Take the program up again after each stop, as often as the bound allows. -/
def resumeAll (c : PackConfig) (us : Units) : Nat → World → Option World
  | 0, _ => none
  | bound + 1, w =>
    if w.isStopped then (run c us bound .resumeSelf none w).bind fun w =>
      resumeAll c us bound (w.tick c)
    else some w

/-- Start a function, and take it up again after each stop until it ends. -/
def debug (c : PackConfig) (us : Units) (bound : Nat) (f : ResourceName) (x : Executor)
    (w : World) : Option World :=
  (run c us bound (.of f .start) x w).bind fun w => resumeAll c us bound (w.tick c)

end World

end DatapackDebug
