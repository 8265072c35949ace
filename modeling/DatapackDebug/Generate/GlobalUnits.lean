import DatapackDebug.Generate.FunctionUnits

namespace DatapackDebug

/-!
# The generated functions that are there once

* `install`, `uninstall` — set up and remove the objectives and entities of the debugger;
* `id/assign`, `schedule` — number the functions, and launch the one whose number is asked for;
* `suspend`, `resume_self`, `resume_dispatch` — stop the program, and take it up again;
* `log_scores` — write the scores of the selected entity to the log;
* `on_exit` — tell in the log that the program has ended.
-/

namespace Generate

/-- The objectives of the debugger. -/
def ownObjectives : List Objective := [.global, .depth, .anchor, .functionId, .valid]

/-- Everything that has a tag, or one of it. -/
def selectedEntity (one : Bool) : Target :=
  .select { clouds := false, tags := [.selectedEntity], one }

/-- Set up the debugger, and validate all functions. -/
def install (p : Pack) : List Instruction :=
  ownObjectives.map .addObjective ++
    [.setScore .stopped 0, .setScore .anchor 0, .setScore .depth 0, .loadLog,
      .function .assignIds] ++
    p.names.flatMap fun f =>
      [.setScore (.valid (p.holder f)) 0, .function (.of f .validate)]

/-- Remove all that the debugger has set up. -/
def uninstall (height : Nat) : List Instruction :=
  [.kill (clouds [.own]), .removeTag (selectedEntity false) .selectedEntity] ++
    ownObjectives.map .removeObjective ++ [.clearColumn height, .unloadLog]

/-- Number the functions. -/
def assignIds (p : Pack) : List Instruction :=
  p.names.map fun f => .setScore (.functionId (p.holder f)) (p.id f)

/-- Launch the function whose number is asked for. -/
def schedule (p : Pack) : List Instruction :=
  p.names.map fun f =>
    .execute [.ifScore .launch (.exactly (p.id f))] (.function (.of f .scheduled))

/-- Build a column of command blocks that write the scores of the selected entity to the log. -/
def logScores (p : Pack) (objectives : List Text) : List Instruction :=
  let stopped : Instruction := .showScore .stopped
  [.clearColumn (objectives.length + 1),
    .execute [.atLog] (.logBlock .first (p.ns ++ "_scores_start") stopped)] ++
    objectives.mapIdx (fun i objective =>
      .execute [.atLog]
        (.logBlock (.chain (i + 1)) (p.ns ++ "_score")
          (.showScore (scoreOf (selectedEntity true) (.named objective))))) ++
    [.execute [.atLog]
      (.logBlock (.chain (objectives.length + 1)) (p.ns ++ "_scores_end") stopped)]

/-- Stop the program: freeze the frames and mark the entity that is executing. -/
def suspend : List Instruction :=
  [.setScore .stopped 1, .addTag (clouds [.functionCall]) .suspended,
    .addTag .self .selectedEntity]

/-- Take the program up again with the anchor of the current frame, as the entity that was
    executing, or as none if there was none. -/
def resumeSelf : List Instruction :=
  let here : List Modifier := [.at (oneCloud .breakpoint), .rotatedAs (oneCloud .breakpoint)]
  let asSelected : Modifier := .as (selectedEntity true)
  let unselected : Modifier := .unlessEntity (selectedEntity false)
  let eyes : Modifier := .ifScore .anchor (.exactly 1)
  let feet : Modifier := .unlessScore .anchor (.exactly 1)
  let dispatch (before : List Modifier) (a : Argument.Anchor) : Instruction :=
    .execute (before ++ here ++ [.anchored a]) (.function .resumeDispatch)
  [.setScore .stopped 0,
    .setScore .anchor 0,
    .execute asFrame (.copyScore .anchor (scoreOf .self .anchor)),
    dispatch [eyes, asSelected] .eyes,
    dispatch [unlessStopped, eyes, unselected] .eyes,
    dispatch [unlessStopped, feet, asSelected] .feet,
    dispatch [unlessStopped, feet, unselected] .feet]

/-- Go on in the function whose marker is there. -/
def resumeDispatch (p : Pack) : List Instruction :=
  .removeTag (selectedEntity false) .selectedEntity ::
    p.names.map fun f =>
      .execute [unlessStopped, .ifEntity (clouds [.breakpoint, .function f])]
        (.function (.of f .resume))

/-- Tell in the log that the program has ended. -/
def onExit (c : PackConfig) : List Instruction :=
  [.kill (clouds [.exitMarker]),
    .summon [.own, .exitMarker],
    .clearLog,
    .logBlock .alone c.ns (.addTag (oneCloud .exitMarker) .exit)]

/-- The functions that are there once. -/
def globalUnits (p : Pack) (objectives : List Text) : List (UnitName × List Instruction) :=
  [(.install, install p),
    (.uninstall, uninstall (objectives.length + 1)),
    (.assignIds, assignIds p),
    (.schedule, schedule p),
    (.logScores, logScores p objectives),
    (.suspend, suspend),
    (.resumeSelf, resumeSelf),
    (.resumeDispatch, resumeDispatch p),
    (.onExit, onExit p.config)]

end Generate

end DatapackDebug
