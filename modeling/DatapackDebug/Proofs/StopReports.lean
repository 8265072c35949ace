import DatapackDebug.Proofs.GeneratedFiles
import DatapackDebug.Session.Run

namespace DatapackDebug

/-!
# Stops that are read back from the log

Where a program has stopped, a command adds a tag with the function and the position to the marker
of the stop.  The server logs what the command has done, and the session reads the log.  Between the
two the position is written into a tag, the tag into a report, and the report into a line.

* `ResourceName.valid_of_parse` — a name that was read is read again as it stands;
* `Tag.parsePosition?_text` — the tag of a position tells the function and the position;
* `Report.addedTag?_added` — the report of an added tag tells the tag;
* `LogEvent.ofLine?_line` — a line of the log tells the name of the block and its report;
* `stop_of_logLine` — all of them one after the other.
-/

variable {t : Text} {f : ResourceName}

/-! ### Fields between separators -/

namespace Text

/-- The field up to a separator that starts with a byte of another kind. -/
theorem takeWhile_field {p : UInt8 → Bool} {field : Text} (sep rest : Text)
    (hfield : ∀ b ∈ field, p b = true) (hsep : sep.head?.map p = some false) :
    (field ++ (sep ++ rest)).takeWhile p = field := by
  obtain ⟨b, hb, hp⟩ := Option.map_eq_some_iff.mp hsep
  obtain ⟨more, rfl⟩ := List.head?_eq_some_iff.mp hb
  rw [List.takeWhile_append_of_pos hfield, List.cons_append,
    List.takeWhile_cons_of_neg (by simp [hp]), List.append_nil]

/-- What follows the field is the separator and the rest. -/
theorem dropWhile_field {p : UInt8 → Bool} {field : Text} (sep rest : Text)
    (hfield : ∀ b ∈ field, p b = true) (hsep : sep.head?.map p = some false) :
    (field ++ (sep ++ rest)).dropWhile p = sep ++ rest := by
  obtain ⟨b, hb, hp⟩ := Option.map_eq_some_iff.mp hsep
  obtain ⟨more, rfl⟩ := List.head?_eq_some_iff.mp hb
  rw [List.dropWhile_append_of_pos hfield, List.cons_append,
    List.dropWhile_cons_of_neg (by simp [hp])]

/-- What precedes an end is what is left without it. -/
theorem dropEnd?_append (s t : Text) : dropEnd? t (s ++ t) = some s := by
  rw [dropEnd?, List.reverse_append, dropStart?_append, Option.map_some, List.reverse_reverse]

variable {sep : UInt8}

/-- A text has at least one part. -/
theorem exists_splitOn_eq_cons (sep : UInt8) (t : Text) :
    ∃ first after, splitOn sep t = first :: after := by
  obtain ⟨-, -, first, after, -, ht, -⟩ := splitOn_append sep [] t
  exact ⟨first, after, ht⟩

/-- The parts of two texts with a separator between them. -/
theorem splitOn_append_cons (s t : Text) :
    splitOn sep (s ++ sep :: t) = splitOn sep s ++ splitOn sep t := by
  induction s with
  | nil => simp [splitOn]
  | cons b s ih =>
    by_cases hb : b = sep
    · simp [splitOn, hb, ih]
    · obtain ⟨first, after, hs⟩ := exists_splitOn_eq_cons sep s
      rw [hs, List.cons_append] at ih
      simp [splitOn, hb, ih, hs]

/-- Another byte in place of the separator separates the same parts, if it was not there before. -/
theorem splitOn_replaceByte {new : UInt8} (ht : new ∉ t) :
    splitOn new (replaceByte sep new t) = splitOn sep t := by
  induction t with
  | nil => rfl
  | cons b t ih =>
    obtain ⟨hb, ht⟩ : new ≠ b ∧ new ∉ t := by simpa using ht
    by_cases hsep : b = sep
    · have hcons : replaceByte sep new (b :: t) = new :: replaceByte sep new t := by
        simp [replaceByte, hsep]
      rw [hcons, splitOn, splitOn, if_pos (by simp), if_pos (by simp [hsep]), ih ht]
    · have hcons : replaceByte sep new (b :: t) = b :: replaceByte sep new t := by
        simp [replaceByte, hsep]
      rw [hcons, splitOn, splitOn, if_neg (by simpa using hb.symm),
        if_neg (by simpa using hsep), ih ht]

/-- The parts of a text with the separator between them are the text. -/
theorem join_splitOn (sep : UInt8) (t : Text) : join [sep] (splitOn sep t) = t := by
  induction t with
  | nil => rfl
  | cons b t ih =>
    obtain ⟨first, after, ht⟩ := exists_splitOn_eq_cons sep t
    rw [ht] at ih
    by_cases hb : b = sep
    · subst hb
      have hjoin : join [b] ([] :: first :: after) = b :: join [b] (first :: after) := rfl
      rw [splitOn, if_pos (by simp), ht, hjoin, ih]
    · have hjoin : join [sep] ((b :: first) :: after) = b :: join [sep] (first :: after) := by
        cases after <;> rfl
      rw [splitOn, if_neg (by simpa using hb), ht]
      show join [sep] ((b :: first) :: after) = b :: t
      rw [hjoin, ih]

/-- The numeral of a natural number that fits in a word is read back as a word. -/
theorem toIntOfBits?_ofNat {n : Nat} (hn : n < Nat.pow 2 63) :
    toIntOfBits? 64 (ofNat n) = some (.ofNat n) := by
  have hread : toInt? (ofNat n) = some (.ofNat n) := toInt?_ofInt (.ofNat n)
  have hfits : fitsBits 64 (.ofNat n) = true := by
    have hbound : (n : Int) < Int.pow 2 63 := Int.ofNat_lt.mpr hn
    simp only [fitsBits, Nat.reduceSub, Int.ofNat_eq_natCast, Bool.and_eq_true, decide_eq_true_eq]
    omega
  rw [toIntOfBits?, hread, Option.filter_some, if_pos hfits]

end Text

/-! ### Names and positions -/

namespace ResourceName

/-- Names are read from texts of their bytes. -/
theorem parse_eq_ok_iff :
    ResourceName.parse t = .ok f ↔
      t ≠ [] ∧ (∀ b ∈ t, Argument.isResourceByte b = true) ∧
      Argument.resourceOfText? t = some f := by
  constructor
  · intro h
    refine ⟨?_, parse_eq_ok h⟩
    rintro rfl
    cases h
  · rintro ⟨hne, hbytes, hname⟩
    rw [ResourceName.parse, Argument.resource_eq, List.takeWhile_eq_self_iff.mpr hbytes,
      if_neg (by simpa using hne), hname, List.dropWhile_eq_nil_iff.mpr hbytes]

/-- The name that the reader makes of a text: what precedes the first colon is its namespace, and a
    namespace that is missing or empty is the default one. -/
theorem resourceOfText?_eq_some (h : Argument.resourceOfText? t = some f) :
    ∃ ns, (t = ns ++ 0x3a :: f.path ∨ ns = Argument.defaultNamespace ∧ t = f.path) ∧
      0x3a ∉ ns ∧ 0x2f ∉ ns ∧ 0x3a ∉ f.path ∧ f.path ≠ [] ∧
      f.ns = if ns.isEmpty then Argument.defaultNamespace else ns := by
  simp only [Argument.resourceOfText?, show (Char.toUInt8 ':') = 0x3a from by decide] at h
  split at h
  · cases h
  rename_i hgood
  simp only [Bool.or_eq_true, not_or, Bool.not_eq_true, List.contains_eq_mem,
    decide_eq_false_iff_not, List.isEmpty_eq_false_iff] at hgood
  obtain ⟨⟨hcolon, hslash⟩, hpath⟩ := hgood
  cases h
  cases hcut : Text.cut? 0x3a t with
  | none =>
    rw [hcut] at hslash hcolon hpath
    exact ⟨Argument.defaultNamespace, .inr ⟨rfl, rfl⟩, by decide, hslash, hcolon, hpath, rfl⟩
  | some parts =>
    obtain ⟨htext, hns⟩ := Text.cut?_eq_some_iff.mp hcut
    rw [hcut] at hslash hcolon hpath
    exact ⟨parts.1, .inl htext, hns, hslash, hcolon, hpath, rfl⟩

/-- A name that was read is read again as it stands, also if its namespace was left out. -/
theorem valid_of_parse (h : ResourceName.parse t = .ok f) : f.Valid := by
  obtain ⟨-, hbytes, hname⟩ := parse_eq_ok_iff.mp h
  obtain ⟨ns, ht, hnsColon, hnsSlash, hcolon, hpath, hf⟩ := resourceOfText?_eq_some hname
  have hall : (∀ b ∈ ns, Argument.isResourceByte b = true) ∧
      ∀ b ∈ f.path, Argument.isResourceByte b = true := by
    rcases ht with rfl | ⟨rfl, rfl⟩
    · obtain ⟨hns, hrest⟩ := List.forall_mem_append.mp hbytes
      exact ⟨hns, (List.forall_mem_cons.mp hrest).2⟩
    · exact ⟨by decide +kernel, hbytes⟩
  have hns : f.ns ≠ [] ∧ (∀ b ∈ f.ns, Argument.isResourceByte b = true) ∧ 0x3a ∉ f.ns ∧
      0x2f ∉ f.ns := by
    by_cases hempty : ns = []
    · rw [hf, hempty]
      decide +kernel
    · rw [hf, if_neg (by simpa using hempty)]
      exact ⟨hempty, hall.1, hnsColon, hnsSlash⟩
  have htext : f.text = f.ns ++ 0x3a :: f.path := by
    rw [ResourceName.text, show Text.ofString ":" = [0x3a] from by decide]
    simp
  refine parse_eq_ok_iff.mpr ⟨by simp [htext], ?_, ?_⟩
  · rw [htext]
    exact List.forall_mem_append.mpr ⟨hns.2.1, List.forall_mem_cons.mpr ⟨by decide, hall.2⟩⟩
  · have hcut : Text.cut? 0x3a f.text = some (f.ns, f.path) :=
      Text.cut?_eq_some_iff.mpr ⟨htext, hns.2.2.1⟩
    have hsep : (Char.toUInt8 ':') = 0x3a := by decide
    simp [Argument.resourceOfText?, hsep, hcut, hcolon, hns.1, hns.2.2.2, hpath]

end ResourceName

/-- The place of a name is read back. -/
theorem Place.ofText?_text (p : Place) : Place.ofText? p.text = some p := by
  cases p <;> decide

/-- A position on a line that has a number of a word is read back. -/
theorem Position.parse_text {p : Position} (hline : p.line < Nat.pow 2 63) :
    Position.parse p.text = .ok p := by
  have hcut : Text.cut? 0x5f p.text = some (Text.ofNat p.line, p.place.text) := by
    refine Text.cut?_eq_some_iff.mpr ⟨p.text_eq, fun hmem => ?_⟩
    exact absurd (Text.isDigit_of_mem_ofNat hmem) (by decide)
  have hsep : (Char.toUInt8 '_') = 0x5f := by decide
  simp only [Position.parse, hsep, hcut, Text.toIntOfBits?_ofNat hline, Place.ofText?_text]

/-! ### Tags -/

namespace PackConfig

/-- Settings that are accepted have a namespace of the bytes of names. -/
theorem ns_of_error?_eq_none {c : PackConfig} (hc : c.error? = none) :
    c.ns ≠ [] ∧ ∀ b ∈ c.ns, isNamespaceByte b = true := by
  unfold error? at hc
  split at hc
  · cases hc
  · rename_i hne
    split at hc
    · cases hc
    · exact ⟨by simpa using hne, by simpa using hc⟩

/-- The bytes of namespaces are bytes of names. -/
theorem isResourceByte_of_isNamespaceByte {b : UInt8} (hb : isNamespaceByte b = true) :
    Argument.isResourceByte b = true := by
  simp only [isNamespaceByte, Argument.isResourceByte, Bool.or_eq_true] at hb ⊢
  tauto

end PackConfig

namespace Tag

/-- The tag of a position tells the function and the position. -/
theorem parsePosition?_text {ns : Text} {p : Position} (hf : 0x2b ∉ f.ns ∧ 0x2b ∉ f.path)
    (hline : p.line < Nat.pow 2 63) :
    parsePosition? ns (text ns (.position f p)) = some (f, p) := by
  have hsep : (Char.toUInt8 '+') = 0x2b := by decide
  have hplus : Text.ofString "+" = [0x2b] := by decide
  have htext : text ns (.position f p) =
      (ns ++ Text.ofString "+") ++ (f.mangled ++ 0x2b :: p.text) := by
    simp [text, hplus]
  -- The path makes as many parts as it has names; the position is one part.
  have hparts : Text.splitOn 0x2b (f.mangled ++ 0x2b :: p.text) =
      f.ns :: (Text.splitOn 0x2f f.path ++ [p.text]) := by
    rw [Text.splitOn_append_cons, Text.splitOn_of_not_mem p.sep_not_mem_text.1,
      ResourceName.mangled, hplus, List.append_assoc, List.singleton_append,
      Text.splitOn_append_cons, Text.splitOn_of_not_mem hf.1, ResourceName.plusPath, hsep,
      Text.splitOn_replaceByte hf.2]
    rfl
  obtain ⟨first, after, hpath⟩ := Text.exists_splitOn_eq_cons 0x2f f.path
  have hjoin : Text.join (Text.ofString "/") (first :: after) = f.path := by
    rw [← hpath, show Text.ofString "/" = [0x2f] from by decide]
    exact Text.join_splitOn 0x2f f.path
  have hlast : (first :: (after ++ [p.text])).dropLast = first :: after := by
    rw [← List.cons_append, List.dropLast_concat]
  rw [parsePosition?, htext, Text.dropStart?_append]
  simp only [Option.bind_eq_bind, Option.bind_some, hsep, hparts, hpath, List.cons_append, hlast,
    List.isEmpty_cons, Bool.false_eq_true, if_false, hjoin]
  have hget : (first :: (after ++ [p.text])).getLast?.getD [] = p.text := by
    rw [← List.cons_append, List.getLast?_append]
    rfl
  rw [hget, Position.parse_text hline]
  rfl

/-- The tag of a position is made of the bytes of names, and of the separator. -/
theorem byte_of_mem_position {c : PackConfig} (hc : c.error? = none) (hf : f.Valid) {p : Position}
    {b : UInt8} (hb : b ∈ text c.ns (.position f p)) :
    Argument.isResourceByte b = true ∨ b = 0x2b := by
  have hplus : Text.ofString "+" = [0x2b] := by decide
  simp only [text, ResourceName.mangled, ResourceName.plusPath, Text.replaceByte, hplus,
    List.mem_append, List.mem_singleton, List.mem_map] at hb
  rcases hb with (((hb | rfl) | (hb | rfl) | ⟨a, ha, rfl⟩) | rfl) | hb
  · have hns := (PackConfig.ns_of_error?_eq_none hc).2 b hb
    exact .inl (PackConfig.isResourceByte_of_isNamespaceByte hns)
  · exact .inr rfl
  · exact .inl (hf.plain.ns b hb).1
  · exact .inr rfl
  · by_cases hslash : a = Char.toUInt8 '/'
    · rw [if_pos (by simpa using hslash)]
      exact .inr (by decide)
    · rw [if_neg (by simpa using hslash)]
      exact .inl (hf.plain.path a ha).1
  · exact .inr rfl
  · exact .inl (Position.isResourceByte_of_mem_text hb)

/-- The tag that tells of the end of the debugged function tells no position. -/
theorem parsePosition?_exit (ns : Text) : parsePosition? ns (text ns .exit) = none := by
  have hdrop : Text.dropStart? (ns ++ Text.ofString "+") (text ns .exit) = none := by
    cases h : Text.dropStart? (ns ++ Text.ofString "+") (text ns .exit) with
    | none => rfl
    | some rest =>
      have htext := Text.eq_append_of_dropStart? h
      rw [text, List.append_assoc, List.append_cancel_left_eq] at htext
      rw [show Text.ofString "_exit" = 0x5f :: Text.ofString "exit" from by decide,
        show Text.ofString "+" = [0x2b] from by decide] at htext
      exact absurd (List.cons.inj htext).1 (by decide)
  rw [parsePosition?, hdrop]
  rfl

end Tag

/-! ### Reports and lines -/

/-- The report that a tag was added to something. -/
def Report.added (tag whom : Text) : Text := "Added tag '" ++ tag ++ "' to " ++ whom

/-- The report of an added tag tells the tag. -/
theorem Report.addedTag?_added {tag whom : Text} (htag : tag ≠ []) (hquote : 0x27 ∉ tag)
    (hwhom : Report.isLine whom = true) : Report.addedTag? (Report.added tag whom) = some tag := by
  have hfield : ∀ b ∈ tag, (b != 0x27) = true :=
    fun b hb => bne_iff_ne.mpr (ne_of_mem_of_not_mem hb hquote)
  rw [Report.addedTag?, Report.added, List.append_assoc, List.append_assoc, Text.dropStart?_append]
  simp only [Option.bind_eq_bind, Option.bind_some,
    Text.takeWhile_field (Text.ofString "' to ") whom hfield (by decide),
    Text.dropWhile_field (Text.ofString "' to ") whom hfield (by decide), Text.dropStart?_append]
  simp [hwhom, htag]

namespace LogEvent

/-- A line of the log that tells of an event. -/
def line (time thread : Text) (e : LogEvent) : Text :=
  "[" ++ time ++ "] [" ++ thread ++ "/INFO]: [" ++ e.executor ++ ": " ++ e.output ++ "]"

/-- A text whose last byte is no line break has none to be dropped. -/
theorem dropBreaks_concat {b : UInt8} (hb : isBreak b = false) :
    dropBreaks (t ++ [b]) = t ++ [b] := by
  rw [dropBreaks, List.reverse_append, List.reverse_singleton, List.singleton_append,
    List.dropWhile_cons_of_neg (by simp [hb]), List.reverse_cons, List.reverse_reverse]

/-- A time in brackets is passed over. -/
theorem afterTime?_brackets {time : Text} (rest : Text) (hne : time ≠ [])
    (htime : ∀ b ∈ time, isTimeByte b = true) :
    afterTime? ("[" ++ (time ++ ("] " ++ rest))) = some rest := by
  rw [afterTime?, Text.dropStart?_append]
  simp only [Option.bind_eq_bind, Option.bind_some,
    Text.takeWhile_field (Text.ofString "] ") rest htime (by decide),
    Text.dropWhile_field (Text.ofString "] ") rest htime (by decide), Text.dropStart?_append]
  simp [hne]

/-- A thread with its level in brackets is passed over. -/
theorem afterThread?_brackets {thread : Text} (rest : Text) (hne : thread ≠ [])
    (hthread : 0x5d ∉ thread) :
    afterThread? ("[" ++ (thread ++ "/INFO" ++ ("]: " ++ rest))) = some rest := by
  have hfield : ∀ b ∈ thread ++ Text.ofString "/INFO", (b != 0x5d) = true := by
    refine List.forall_mem_append.mpr ⟨fun b hb => ?_, by decide +kernel⟩
    exact bne_iff_ne.mpr (ne_of_mem_of_not_mem hb hthread)
  rw [afterThread?, Text.dropStart?_append]
  simp only [Option.bind_eq_bind, Option.bind_some,
    Text.takeWhile_field (Text.ofString "]: ") rest hfield (by decide),
    Text.dropWhile_field (Text.ofString "]: ") rest hfield (by decide), Text.dropStart?_append,
    Text.dropEnd?_append]
  simp [hne]

/-- The name and the output in brackets are read.  The output may hold brackets too. -/
theorem report?_brackets {e : LogEvent} (hne : e.executor ≠ [])
    (hname : ∀ b ∈ e.executor, (b != 0x3a && b != 0x5d) = true) (houtput : 0x0a ∉ e.output) :
    report? ("[" ++ (e.executor ++ (": " ++ (e.output ++ "]")))) = some e := by
  rw [report?, Text.dropStart?_append]
  simp only [Option.bind_eq_bind, Option.bind_some,
    Text.takeWhile_field (Text.ofString ": ") (e.output ++ "]") hname (by decide),
    Text.dropWhile_field (Text.ofString ": ") (e.output ++ "]") hname (by decide),
    Text.dropStart?_append, Text.dropEnd?_append]
  simp [hne, houtput]

/-- A line of the log tells the event. -/
theorem ofLine?_line {time thread : Text} {e : LogEvent}
    (htime : time ≠ [] ∧ ∀ b ∈ time, isTimeByte b = true) (hthread : thread ≠ [] ∧ 0x5d ∉ thread)
    (hname : e.executor ≠ [] ∧ ∀ b ∈ e.executor, (b != 0x3a && b != 0x5d) = true)
    (houtput : 0x0a ∉ e.output) : ofLine? (line time thread e) = some e := by
  have hbreaks : dropBreaks (line time thread e) = line time thread e :=
    dropBreaks_concat (by decide)
  -- The separators of two fields are those that end the one and start the next.
  have hfields : line time thread e =
      "[" ++ (time ++ ("] " ++ ("[" ++ (thread ++ "/INFO" ++ ("]: " ++
        ("[" ++ (e.executor ++ (": " ++ (e.output ++ "]"))))))))) := by
    rw [line, show Text.ofString "] [" = Text.ofString "] " ++ "[" from by decide,
      show Text.ofString "/INFO]: [" = Text.ofString "/INFO" ++ ("]: " ++ "[") from by decide]
    simp only [List.append_assoc]
  rw [ofLine?, hbreaks, hfields, afterTime?_brackets _ htime.1 htime.2, Option.bind_some,
    afterThread?_brackets _ hthread.1 hthread.2, Option.bind_some,
    report?_brackets hname.1 hname.2 houtput]

end LogEvent

/-- The block of the debugger reports that the marker of a stop was tagged with a position. -/
def LogEvent.ofStop (ns : Text) (f : ResourceName) (p : Position) (whom : Text) : LogEvent :=
  { executor := ns, output := Report.added (Tag.text ns (.position f p)) whom }

/-- The line of a stop is read as the event of the stop, the event as its tag, and the tag as the
    function and the position, for every name that can be read, every place, and whatever else the
    line tells.  So a session that runs stops just there; different stops have different tags; and
    the end of the debugged function is no stop. -/
theorem stop_of_logLine {c : PackConfig} {name : Text} {f : ResourceName} {p : Position}
    {time thread whom : Text} (hc : c.error? = none) (hf : ResourceName.parse name = .ok f)
    (hp : p.line < Nat.pow 2 63) (htime : time ≠ [] ∧ ∀ b ∈ time, LogEvent.isTimeByte b = true)
    (hthread : thread ≠ [] ∧ 0x5d ∉ thread) (hwhom : whom ≠ [] ∧ 0x0a ∉ whom) :
    LogEvent.ofLine? (LogEvent.line time thread (LogEvent.ofStop c.ns f p whom)) =
        some (LogEvent.ofStop c.ns f p whom) ∧
      Report.addedTag? (LogEvent.ofStop c.ns f p whom).output =
        some (Tag.text c.ns (.position f p)) ∧
      Tag.parsePosition? c.ns (Tag.text c.ns (.position f p)) = some (f, p) ∧
      (∀ s : Session, s.ns = c.ns →
        (SessionM.handleEvent (LogEvent.ofStop c.ns f p whom)).run s =
          (SessionM.handleStop f p).run s) ∧
      (∀ name' g q, ResourceName.parse name' = .ok g →
        Tag.text c.ns (.position f p) = Tag.text c.ns (.position g q) → f = g ∧ p = q) ∧
      Tag.parsePosition? c.ns (Tag.text c.ns .exit) = none := by
  have hvalid := ResourceName.valid_of_parse hf
  obtain ⟨hns, hnsBytes⟩ := PackConfig.ns_of_error?_eq_none hc
  -- The tag has no byte that ends a tag or a line.
  have htag : ∀ b ∈ Tag.text c.ns (.position f p), b ≠ 0x27 ∧ b ≠ 0x0a := by
    intro b hb
    constructor <;> rintro rfl <;> exact absurd (Tag.byte_of_mem_position hc hvalid hb) (by decide)
  have hreport : Report.addedTag? (LogEvent.ofStop c.ns f p whom).output =
      some (Tag.text c.ns (.position f p)) := by
    refine Report.addedTag?_added ?_ (fun h => (htag _ h).1 rfl) (by simp [Report.isLine, hwhom])
    simp [Tag.text, hns]
  have hstop : Tag.parsePosition? c.ns (Tag.text c.ns (.position f p)) = some (f, p) :=
    Tag.parsePosition?_text hvalid.plus_not_mem hp
  have hexit := Tag.parsePosition?_exit c.ns
  have hne : Tag.text c.ns (.position f p) ≠ Tag.text c.ns .exit := by
    intro h
    rw [h, hexit] at hstop
    cases hstop
  refine ⟨LogEvent.ofLine?_line htime hthread ⟨hns, fun b hb => ?_⟩ ?_, hreport, hstop,
    fun s hs => ?_, fun name' g q hg h =>
      Tag.text_position_inj hvalid (ResourceName.valid_of_parse hg) h, hexit⟩
  · have hname := hnsBytes b hb
    refine Bool.and_eq_true_iff.mpr ⟨bne_iff_ne.mpr ?_, bne_iff_ne.mpr ?_⟩ <;>
      · rintro rfl
        exact absurd hname (by decide)
  · simp only [LogEvent.ofStop, Report.added, List.mem_append, not_or]
    exact ⟨⟨⟨by decide, fun h => (htag _ h).2 rfl⟩, by decide⟩, hwhom.2⟩
  · have hget : ∀ k : Session → SessionM Unit, (get >>= k).run s = (k s).run s := fun _ => rfl
    rw [SessionM.handleEvent, hreport]
    dsimp only
    -- The session looks for tags of its own namespace.
    rw [hget, hs, if_neg (by simpa using hne), hstop]

/-- The function is named like a position in another one, and what was tagged like the rest of a
    line. -/
theorem stop_of_logLine_nested :
    LogEvent.ofLine? (LogEvent.line "12:34:56" "Server thread"
        ⟨"mcfd",
        "Added tag 'mcfd+minecraft+main+1_entry+12_after_function' to x]: [mcfd: y' to z"⟩) =
      some ⟨"mcfd",
        "Added tag 'mcfd+minecraft+main+1_entry+12_after_function' to x]: [mcfd: y' to z"⟩ ∧
    Tag.parsePosition? "mcfd" "mcfd+minecraft+main+1_entry+12_after_function" =
      some (⟨"minecraft", "main/1_entry"⟩, ⟨12, .afterFunction⟩) := by
  have hf : ResourceName.parse "main/1_entry" = .ok ⟨"minecraft", "main/1_entry"⟩ := by decide
  have htime : Text.ofString "12:34:56" ≠ [] ∧
      ∀ b ∈ Text.ofString "12:34:56", LogEvent.isTimeByte b = true := by decide +kernel
  have hthread : Text.ofString "Server thread" ≠ [] ∧ 0x5d ∉ Text.ofString "Server thread" := by
    decide
  have hwhom : Text.ofString "x]: [mcfd: y' to z" ≠ [] ∧
      0x0a ∉ Text.ofString "x]: [mcfd: y' to z" := by
    decide
  have hstop := stop_of_logLine (c := {}) (p := ⟨12, .afterFunction⟩) (by decide) hf
    (by decide) htime hthread hwhom
  have hevent : LogEvent.ofStop "mcfd" ⟨"minecraft", "main/1_entry"⟩ ⟨12, .afterFunction⟩
      "x]: [mcfd: y' to z" = ⟨"mcfd",
        "Added tag 'mcfd+minecraft+main+1_entry+12_after_function' to x]: [mcfd: y' to z"⟩ :=
    by decide
  exact ⟨hevent ▸ hstop.1, hstop.2.2.1⟩

end DatapackDebug
