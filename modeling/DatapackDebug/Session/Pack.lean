import DatapackDebug.Session.Basic

namespace DatapackDebug

/-!
# The datapack on the server

A session keeps the datapack on the server in step with the functions and the breakpoints.

* `Session.effectiveBreakpoints` — the breakpoints of the user, those of a step, and the place of a
  stop, where execution has to be taken up again;
* `SessionM.update` — generate the datapack anew where it has changed.
-/

namespace Session

/-- A function, if the datapack has it. -/
def function? (s : Session) (name : ResourceName) : Option Function :=
  SortedAssoc.find? ResourceName.compare name s.functions

/-- The file of a function, if it is known. -/
def pathOf (s : Session) (name : ResourceName) : Text := ((s.function? name).map (·.path)).getD []

/-- The number of a function, or 0 if the datapack does not have it. -/
def idOf (s : Session) (name : ResourceName) : Nat :=
  if (s.function? name).isSome then (s.functions.map (·.1)).idxOf name + 1 else 0

/-- Is the position a line that is itself a breakpoint? -/
def isStaticBreakpoint (s : Session) (name : ResourceName) (p : Position) : Bool :=
  p.place == .breakpoint && p.line ≥ 1 &&
    ((s.function? name).bind fun f => f.lines[p.line - 1]?).any fun l => l.line == .breakpoint

/-- The positions at which a step can stop in a line: before a command, and after a call. -/
def stepPositions (l : SourceLine) : List Position :=
  match l.line with
  | .call _ => [⟨l.number, .breakpoint⟩, ⟨l.number, .afterFunction⟩]
  | .schedule _ | .other _ _ => [⟨l.number, .breakpoint⟩]
  | .empty | .comment | .breakpoint => []

/-- The condition of a step. -/
def stepCondition (depth : Int) : Text :=
  "if score current -ns-_depth matches .." ++ Text.ofInt depth

/-- The set with a breakpoint where there is none that has an effect. -/
def addMissing (m : BreakpointMap) (f : ResourceName) (p : Position) (b : Breakpoint) :
    BreakpointMap :=
  if m.has f p then m else m.add f p b

/-- The set with the breakpoints of a step. -/
def withStep (s : Session) (m : BreakpointMap) : BreakpointMap :=
  match s.stepDepth with
  | none => m
  | some depth =>
    let b : Breakpoint := ⟨.step, stepCondition depth⟩
    s.functions.foldl (fun m (name, f) =>
      (f.lines.flatMap stepPositions).foldl (fun m p => addMissing m name p b) m) m

/-- The set with the place of the stop, unless the program stops there anyway. -/
def withStop (s : Session) (m : BreakpointMap) : BreakpointMap :=
  match s.stop with
  | none => m
  | some stop =>
    if s.isStaticBreakpoint stop.function stop.position then m
    else addMissing m stop.function stop.position ⟨.continue, []⟩

/-- The breakpoints that the datapack is generated with. -/
def effectiveBreakpoints (s : Session) : BreakpointMap := s.withStop (s.withStep s.breakpoints)

end Session

namespace SessionM

/-- Read the functions of the datapack. -/
def loadFunctions : SessionM Unit := do
  let l ← launch
  let tree ← ask (.findTree (Path.clean l.datapack))
  let cancelled ← isCancelled
  match Datapack.load (← get).grammar l.datapack tree cancelled with
  | .error e => throw (.datapack e)
  | .ok functions => modify fun s => { s with functions }

/-- Read the functions again if a source has changed.  The change is forgotten even if that
    fails. -/
def reloadModified : SessionM Unit := do
  if (← get).sourceModified then
    modify fun s => { s with sourceModified := false }
    loadFunctions
    modify fun s => { s with stale := true }

/-- Generate the datapack with some breakpoints. -/
def generate (m : BreakpointMap) : SessionM Unit := do
  let l ← launch
  let cancelled ← isCancelled
  match GeneratedPack.generate l.config (← get).functions m cancelled with
  | .error .cancelled => throw .cancelled
  | .error (.config e) => throw (.packConfig e)
  | .ok pack =>
    match ← ask (.replaceDir l.output pack.files) with
    | some e => throw (.file e)
    | none =>
      modify fun s =>
        { s with generated := m.key, objectives := pack.objectives, stale := false }

/-- Bring the datapack on the server up to date. -/
def update : SessionM Unit := do
  reloadModified
  let s ← get
  let m := s.effectiveBreakpoints
  if s.stale || m.key != s.generated then
    generate m
    injectOne "reload"

end SessionM

end DatapackDebug
