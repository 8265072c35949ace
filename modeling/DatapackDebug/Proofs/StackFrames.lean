import DatapackDebug.Proofs.Queries

namespace DatapackDebug

/-!
# The frames of a stack trace

Each frame of the debugged program is an entity on the server.  Its name tells where the frame
stands, and its score how deep it is.

* `FrameName.text` — the name that the datapack gives to the entity of a frame;
* `Report.frameName?_text` — the place is read back from the name;
* `FrameEntity.report`, `Session.frame?_report` — what the server reports of the entity, and the
  frame that the session makes of it;
* `DeepestFirst`, `deepestFirst_sortFrames` — frames in the order of their depths, those of one
  depth as they were;
* `stackTrace_of_answers` — the frames of a stack trace are those that the server has reported.
-/

/-! ### Names of frames -/

/-- The name of a frame. -/
def FrameName.text (n : FrameName) : Text :=
  n.function.text ++ ":" ++ Text.ofInt n.line ++ ":" ++ Text.ofInt n.column

/-- The datapack names the entity of a frame so. -/
theorem Instruction.text_nameFrame (c : PackConfig) (t : Target) (f : ResourceName)
    (line column : Nat) :
    (Instruction.nameFrame t f line column).text c =
      "data modify entity " ++ t.text c.ns ++ " CustomName set value " ++
        plainName (FrameName.text ⟨f, line, column⟩) := rfl

/-- A name that can be read: that of a function whose name was read, with a line and a column that
    are words. -/
structure FrameName.Readable (n : FrameName) : Prop where
  function : ∃ t, ResourceName.parse t = .ok n.function
  line : Text.fitsBits 64 n.line = true
  column : Text.fitsBits 64 n.column = true

/-- The place of a frame is read back from its name. -/
theorem Report.frameName?_text {n : FrameName} (hn : n.Readable) :
    Report.frameName? n.text = some n := by
  obtain ⟨t, ht⟩ := hn.function
  have hfunction : ResourceName.parse n.function.text = .ok n.function :=
    ResourceName.valid_of_parse ht
  have hcolon : ∀ m : Int, (Char.toUInt8 ':') ∉ Text.ofInt m := fun m =>
    Text.not_mem_ofInt (by decide) (by decide)
  have hsep : Text.ofString ":" = [Char.toUInt8 ':'] := by decide
  have htext : n.text = (n.function.text ++ Char.toUInt8 ':' :: Text.ofInt n.line) ++
      Char.toUInt8 ':' :: Text.ofInt n.column := by
    simp [FrameName.text, hsep]
  rw [Report.frameName?, htext, Text.cutLast?_append (hcolon _)]
  simp only [Option.bind_eq_bind, Option.bind_some, Text.cutLast?_append (hcolon _),
    Text.toIntOfBits?_ofInt hn.line, Text.toIntOfBits?_ofInt hn.column, hfunction, Except.toOption]

/-- The name of a frame is one line. -/
theorem FrameName.isLine_text {n : FrameName} (hn : n.Readable) : Report.isLine n.text = true := by
  obtain ⟨t, ht⟩ := hn.function
  have hbytes : ∀ b ∈ n.function.text, Argument.isResourceByte b = true :=
    (ResourceName.parse_eq_ok (ResourceName.valid_of_parse ht)).1
  have hname : 0x0a ∉ n.function.text := fun h => absurd (hbytes _ h) (by decide)
  have hnumeral : ∀ m : Int, 0x0a ∉ Text.ofInt m := fun m =>
    Text.not_mem_ofInt (by decide) (by decide)
  have hsep : Text.ofString ":" = [0x3a] := by decide
  simp [Report.isLine, FrameName.text, hname, hnumeral, hsep]

/-! ### Entities of frames -/

/-- A frame on the server: an entity with a name and a depth. -/
structure FrameEntity where
  name : FrameName
  depth : Int
deriving DecidableEq, Repr

/-- What the server reports of the depth of a frame. -/
def FrameEntity.report (ns : Text) (e : FrameEntity) : Text :=
  ReportedScore.text ⟨e.name.text, e.depth, ns ++ "_depth"⟩

/-- The frame as the client is to see it. -/
def Session.frameOf (s : Session) (e : FrameEntity) : Frame where
  depth := e.depth
  function := e.name.function
  path := s.pathOf e.name.function
  line := e.name.line
  column := e.name.column

/-- A frame that can be read: its name can be, and its depth is a word. -/
structure FrameEntity.Readable (e : FrameEntity) : Prop where
  name : e.name.Readable
  depth : Text.fitsBits 64 e.depth = true

/-- The objective of depths can be read. -/
theorem PackConfig.depth_readable {c : PackConfig} (hc : c.error? = none) :
    Report.isLine (c.ns ++ "_depth") = true ∧ Text.blank ∉ c.ns ++ "_depth" := by
  obtain ⟨hne, hbytes⟩ := PackConfig.ns_of_error?_eq_none hc
  have hnot : ∀ b, isNamespaceByte b = false → b ∉ c.ns := by
    intro b hb hmem
    rw [hbytes b hmem] at hb
    cases hb
  have hbreak : 0x0a ∉ c.ns := hnot _ (by decide)
  have hblank : Text.blank ∉ c.ns := hnot _ (by decide)
  refine ⟨?_, ?_⟩
  · simp [Report.isLine, hne, hbreak, show 0x0a ∉ Text.ofString "_depth" by decide]
  · simp [hblank, show Text.blank ∉ Text.ofString "_depth" by decide]

/-- The session reads the report of a frame. -/
theorem Session.frame?_report (s : Session) {c : PackConfig} (hc : c.error? = none)
    {e : FrameEntity} (he : e.Readable) : s.frame? (e.report c.ns) = some (s.frameOf e) := by
  obtain ⟨hline, hblank⟩ := PackConfig.depth_readable hc
  have hscore : Report.score? (e.report c.ns) = some ⟨e.name.text, e.depth, c.ns ++ "_depth"⟩ :=
    Report.score?_text ⟨FrameName.isLine_text he.name, he.depth, hline, hblank⟩
  rw [Session.frame?, hscore]
  simp only [Option.bind_eq_bind, Option.bind_some, Report.frameName?_text he.name]
  rfl

/-! ### The order of frames -/

/-- Frames in the order of their depths, the deepest first.  Those of one depth stay in order. -/
structure DeepestFirst (fs sorted : List Frame) : Prop where
  perm : sorted.Perm fs
  descending : sorted.Pairwise fun f g => g.depth ≤ f.depth
  stable : ∀ depth, sorted.filter (·.depth = depth) = fs.filter (·.depth = depth)

theorem deepestFirst_sortFrames (fs : List Frame) : DeepestFirst fs (sortFrames fs) := by
  have htrans : ∀ f g h : Frame, decide (f.depth ≥ g.depth) = true →
      decide (g.depth ≥ h.depth) = true →
      decide (f.depth ≥ h.depth) = true := by
    intro f g h
    simp only [decide_eq_true_eq]
    omega
  have htotal : ∀ f g : Frame, (decide (f.depth ≥ g.depth) || decide (g.depth ≥ f.depth)) =
      true := by
    intro f g
    simp only [Bool.or_eq_true, decide_eq_true_eq]
    omega
  have hperm : (sortFrames fs).Perm fs := List.mergeSort_perm fs _
  refine ⟨hperm, ?_, fun depth => ?_⟩
  · exact (List.pairwise_mergeSort htrans htotal fs).imp (by simp)
  · -- The frames of one depth are in order already, so that sorting keeps them as a sublist.
    have hordered : (fs.filter (·.depth = depth)).Pairwise fun f g =>
      decide (f.depth ≥ g.depth) = true := by
      refine List.pairwise_of_forall_sublist fun {f g} hfg => ?_
      have hf : f.depth = depth := by simpa using (List.mem_filter.mp (hfg.subset (by simp))).2
      have hg : g.depth = depth := by simpa using (List.mem_filter.mp (hfg.subset (by simp))).2
      simp [hf, hg]
    have hsub : (fs.filter (·.depth = depth)).Sublist (sortFrames fs) :=
      List.sublist_mergeSort htrans htotal hordered List.filter_sublist
    have hfiltered : (fs.filter (·.depth = depth)).Sublist
        ((sortFrames fs).filter (·.depth = depth)) := by
      simpa using hsub.filter (·.depth = depth)
    exact (hfiltered.eq_of_length (hperm.filter _).length_eq.symm).symm

/-! ### Stack traces -/

open SessionM in
/-- The server reports the frames in any order, among whatever else is reported meanwhile.  The
    client gets these frames and no others, the deepest first, and they are kept for the time of the
    stop.  Scores and names are read back from their wording, whatever their holders are, and the
    datapack words the names of frames so. -/
theorem stackTrace_of_answers {host : (q : SessionRequest) → sessionSignature.Reply q} {s : Session}
    {l : Launch} {stop : Stop} {entities : List FrameEntity} {events : List LogEvent}
    {ending : QueryEnd} (hstatus : s.status = .stopped) (hlaunch : s.launch = some l)
    (hconfig : l.config.error? = none) (hstop : s.stop = some stop) (hframes : stop.frames = none)
    (hreadable : ∀ e ∈ entities, e.Readable)
    (hevents : Answers (l.ns ++ "_stack") (l.ns ++ "_stack_end")
      (entities.map (·.report l.ns)) events)
    (hreply : host (.query (stackCommands l.ns) (l.ns ++ "_stack_end")) = .ok (events, ending)) :
    (∃ frames, (stackTrace.talk host s).1 =
        (.ok frames, { s with stop := some { stop with frames := some frames } }) ∧
      DeepestFirst (entities.map s.frameOf) frames) ∧
    (∀ r : ReportedScore, r.Readable → Report.score? r.text = some r) ∧
    (∀ n : FrameName, n.Readable → Report.frameName? n.text = some n) ∧
    ∀ (t : Target) (f : ResourceName) (line column : Nat),
      (Instruction.nameFrame t f line column).text l.config =
      "data modify entity " ++ t.text l.ns ++ " CustomName set value " ++
        Instruction.plainName (FrameName.text ⟨f, line, column⟩) := by
  have hns : s.ns = l.ns := by rw [Session.ns, hlaunch]; rfl
  have hne : l.ns ++ Text.ofString "_stack" ≠ l.ns ++ Text.ofString "_stack_end" := by
    rw [ne_eq, List.append_cancel_left_eq]
    decide
  have hread : (entities.map (·.report l.ns)).filterMap s.frame? = entities.map s.frameOf := by
    rw [List.filterMap_map, ← List.filterMap_eq_map]
    exact List.filterMap_congr fun e he => s.frame?_report hconfig (hreadable e he)
  refine ⟨⟨_, ?_, deepestFirst_sortFrames _⟩, fun r hr => Report.score?_text hr,
    fun n hn => Report.frameName?_text hn, Instruction.text_nameFrame l.config⟩
  refine (talk_require_bind (by rw [hstatus]; rfl)).trans ?_
  rw [← hns] at hreply hevents hne
  have htalk := talk_frames hstop hframes hreply (collect_of_answers hne hevents)
  rw [hns, hread] at htalk
  exact htalk

/-- A program that has stopped in a function whose file is known. -/
def tracedSession : Session where
  grammar := ⟨#[]⟩
  status := .stopped
  launch := some ⟨"p", ⟨"t", "f"⟩, "o", {}⟩
  functions := [(⟨"t", "f"⟩, ⟨⟨"t", "f"⟩, "f.mcfunction", []⟩)]
  stop := some { function := ⟨"t", "f"⟩, position := ⟨3, .breakpoint⟩, reason := .step }

/-- Three frames, two of which have the same depth. -/
def tracedEntities : List FrameEntity :=
  [⟨⟨⟨"t", "f"⟩, 3, 1⟩, 1⟩, ⟨⟨⟨"minecraft", "a/b"⟩, 1, 5⟩, 2⟩, ⟨⟨⟨"t", "f"⟩, 7, -1⟩, 1⟩]

/-- They are reported among other events, some of them after the end. -/
def tracedEvents : List LogEvent :=
  [⟨"mcfd", "x has 9 [mcfd_depth]"⟩, ⟨"mcfd_stack", "t:f:3:1 has 1 [mcfd_depth]"⟩,
    ⟨"mcfd_stack", "minecraft:a/b:1:5 has 2 [mcfd_depth]"⟩, ⟨"other", "t:f:1:1 has 8 [mcfd_depth]"⟩,
    ⟨"mcfd_stack", "t:f:7:-1 has 1 [mcfd_depth]"⟩, ⟨"mcfd_stack_end", "current has 2 [mcfd_depth]"⟩,
    ⟨"mcfd_stack", "t:f:9:9 has 9 [mcfd_depth]"⟩]

theorem readable_tracedEntities : ∀ e ∈ tracedEntities, e.Readable := by
  have hread : ∀ e ∈ tracedEntities, ResourceName.parse e.name.function.text = .ok e.name.function ∧
      Text.fitsBits 64 e.name.line = true ∧ Text.fitsBits 64 e.name.column = true ∧
        Text.fitsBits 64 e.depth = true := by decide +kernel
  intro e he
  obtain ⟨hfunction, hline, hcolumn, hdepth⟩ := hread e he
  exact ⟨⟨⟨_, hfunction⟩, hline, hcolumn⟩, hdepth⟩

theorem answers_tracedEvents :
    Answers "mcfd_stack" "mcfd_stack_end" (tracedEntities.map (·.report "mcfd")) tracedEvents :=
  .other (by decide) (by decide)
    (.report (.report (.other (by decide) (by decide) (.report .last))))

/-- The host to whom they are reported. -/
def tracedHost : (q : SessionRequest) → sessionSignature.Reply q :=
  SessionM.SteadyHost.answering ⟨SessionM.sampleTree [], false, none⟩ tracedEvents

open SessionM in
/-- The client gets the three frames, and a score is read although its holder reads as one
    itself. -/
theorem tracedSession_frames :
    (∃ frames, (stackTrace.talk tracedHost tracedSession).1.1 = .ok frames ∧
      DeepestFirst [⟨1, ⟨"t", "f"⟩, "f.mcfunction", 3, 1⟩, ⟨2, ⟨"minecraft", "a/b"⟩, [], 1, 5⟩,
        ⟨1, ⟨"t", "f"⟩, "f.mcfunction", 7, -1⟩] frames) ∧
    Report.score? "a has 3 [x] has -9223372036854775808 [o]]" =
      some ⟨"a has 3 [x]", -9223372036854775808, "o]"⟩ := by
  have hreply : tracedHost (.query (stackCommands "mcfd") ("mcfd" ++ Text.ofString "_stack_end")) =
      .ok (tracedEvents, .deadline) := rfl
  obtain ⟨⟨frames, htalk, hfirst⟩, hscore, -⟩ :=
    stackTrace_of_answers (s := tracedSession) (l := ⟨"p", ⟨"t", "f"⟩, "o", {}⟩) rfl rfl
      (by decide +kernel) rfl rfl readable_tracedEntities answers_tracedEvents hreply
  have htext : ReportedScore.text ⟨"a has 3 [x]", -9223372036854775808, "o]"⟩ =
      "a has 3 [x] has -9223372036854775808 [o]]" := by decide +kernel
  refine ⟨⟨frames, congrArg Prod.fst htalk, hfirst⟩, htext ▸ hscore _ ?_⟩
  exact ⟨by decide +kernel, by decide +kernel, by decide +kernel, by decide +kernel⟩

end DatapackDebug
