import DatapackDebug.Proofs.SessionLogic
import DatapackDebug.Proofs.StopReports

namespace DatapackDebug

/-!
# Answers of the server

At a stop the session asks the server for scores.  The answer is spread over the events of the log:
the reports of one block count, up to the first report of another.

* `SessionM.talk_bind`, `SessionM.talk_query` — operations one after the other, and a query that is
  answered;
* `Answers`, `collect_of_answers` — events with the reports that a query collects;
* `ReportedScore.text`, `ReportedScore.Readable` — the wording of a score, and scores that can be
  read;
* `Report.score?_text` — such a score is read back from its wording;
* `SessionM.talk_frames`, `SessionM.talk_scores` — the frames and the scores that an answer leads
  to;
* `SessionM.run_stackTrace_of_known` — frames that are known already.
-/

variable {events : List LogEvent} {ending : QueryEnd} {outputs : List Text}

/-! ### Operations with a host -/

namespace SessionM

section Talk

variable {α β : Type} {host : (q : SessionRequest) → sessionSignature.Reply q} {s s' : Session}

/-- What a dialogue ends with does not depend on the exchanges before it. -/
theorem run_fst_congr {γ : Type} (d : Dialogue sessionSignature γ) (h h' : History) :
    (d.run (fun q h => (host q, h ++ [⟨q, host q⟩])) h).1 =
      (d.run (fun q h => (host q, h ++ [⟨q, host q⟩])) h').1 := by
  induction d generalizing h h' with
  | done a => rfl
  | ask q next ih => exact ih (host q) _ _

/-- A dialogue that goes on with the result of another one. -/
theorem run_fst_bind {γ δ : Type} (d : Dialogue sessionSignature γ)
    (k : γ → Dialogue sessionSignature δ) (h : History) :
    ((d.bind k).run (fun q h => (host q, h ++ [⟨q, host q⟩])) h).1 =
      ((k (d.run (fun q h => (host q, h ++ [⟨q, host q⟩])) h).1).run
        (fun q h => (host q, h ++ [⟨q, host q⟩])) h).1 := by
  induction d generalizing h with
  | done a => rfl
  | ask q next ih => exact (ih (host q) _).trans (run_fst_congr _ _ _)

/-- An operation that succeeds, and then another one. -/
theorem talk_bind {m : SessionM α} {f : α → SessionM β} {a : α}
    (hm : (m.talk host s).1 = (.ok a, s')) :
    ((m >>= f).talk host s).1 = ((f a).talk host s').1 := by
  refine (run_fst_bind (m.run.run s) _ []).trans ?_
  rw [talk] at hm
  rw [hm]
  rfl

theorem talk_get_bind {f : Session → SessionM β} :
    ((get >>= f).talk host s).1 = ((f s).talk host s).1 :=
  talk_bind rfl

theorem talk_ask_bind {q : SessionRequest} {f : sessionSignature.Reply q → SessionM β} :
    ((ask q >>= f).talk host s).1 = ((f (host q)).talk host s).1 :=
  talk_bind rfl

/-- An operation of a session that is in one of the states for it. -/
theorem talk_require_bind {states : List Status} {e : SessionError} {f : PUnit → SessionM β}
    (hstatus : s.status.isOneOf states = true) :
    ((require states e >>= f).talk host s).1 = ((f ⟨⟩).talk host s).1 := by
  refine talk_bind (talk_get_bind.trans ?_)
  rw [if_pos hstatus]
  rfl

/-- A query that is answered has the outputs that are collected. -/
theorem talk_query {commands : List ServerCommand} {executor last : Text}
    (hreply : host (.query commands last) = .ok (events, ending))
    (hcollect : collect executor last events = some outputs) :
    ((query commands executor last).talk host s).1 = (.ok outputs, s) := by
  refine talk_ask_bind.trans ?_
  rw [hreply]
  simp only [hcollect]
  rfl

/-- The frames that an answer leads to; they are kept. -/
theorem talk_frames {stop : Stop} (hstop : s.stop = some stop) (hframes : stop.frames = none)
    (hreply : host (.query (stackCommands s.ns) (s.ns ++ "_stack_end")) = .ok (events, ending))
    (hcollect : collect (s.ns ++ "_stack") (s.ns ++ "_stack_end") events = some outputs) :
    (frames.talk host s).1 = (.ok (sortFrames (outputs.filterMap s.frame?)), { s with
      stop := some { stop with frames := some (sortFrames (outputs.filterMap s.frame?)) } }) := by
  refine talk_get_bind.trans ?_
  simp only [hstop, hframes]
  refine talk_get_bind.trans ((talk_bind (talk_query hreply hcollect)).trans ?_)
  have hkept : s.stop.map (fun stop =>
    { stop with frames := some (sortFrames (outputs.filterMap s.frame?)) }) =
      some { stop with frames := some (sortFrames (outputs.filterMap s.frame?)) } := by
        rw [hstop]; rfl
  rw [← hkept]
  rfl

/-- The scores that an answer leads to; they are kept. -/
theorem talk_scores {stop : Stop} (hstop : s.stop = some stop) (hscores : stop.scores = none)
    (hreply : host (.query [⟨s.ns, "function " ++ s.ns ++ ":log_scores"⟩] (s.ns ++ "_scores_end")) =
      .ok (events, ending))
    (hcollect : collect (s.ns ++ "_score") (s.ns ++ "_scores_end") events = some outputs) :
    (scores.talk host s).1 = (.ok (variablesOf s.objectives outputs),
      { s with stop := some { stop with scores := some (variablesOf s.objectives outputs) } }) := by
  refine talk_get_bind.trans ?_
  simp only [hstop, hscores]
  refine talk_get_bind.trans ((talk_bind (talk_query hreply hcollect)).trans ?_)
  have hkept :
      s.stop.map (fun stop => { stop with scores := some (variablesOf s.objectives outputs) }) =
      some { stop with scores := some (variablesOf s.objectives outputs) } := by rw [hstop]; rfl
  rw [← hkept]
  rfl

end Talk

section Known

variable {α β : Type} {s s' : Session} {stop : Stop} {fs : List Frame}

/-- An operation that asks nothing, and then another one. -/
theorem run_bind_of_done {m : SessionM α} {f : α → SessionM β} {a : α}
    (hm : m.run.run s = .done (.ok a, s')) : (m >>= f).run.run s = (f a).run.run s' := by
  show (m.run.run s).bind _ = _
  rw [hm]
  rfl

/-- Frames that are known are not asked for again. -/
theorem run_frames_of_known (hstop : s.stop = some stop) (hframes : stop.frames = some fs) :
    frames.run.run s = .done (.ok fs, s) := by
  refine (run_bind_of_done (m := get) (a := s) rfl).trans ?_
  simp only [hstop, hframes]
  rfl

/-- The same for a client, if the program is stopped. -/
theorem run_stackTrace_of_known (hstatus : s.status = .stopped) (hstop : s.stop = some stop)
    (hframes : stop.frames = some fs) : stackTrace.run.run s = .done (.ok fs, s) := by
  have hrequire : (require [.stopped] .notStopped).run.run s = .done (.ok ⟨⟩, s) := by
    refine (run_bind_of_done (m := get) (a := s) rfl).trans ?_
    rw [if_pos (by rw [hstatus]; rfl)]
    rfl
  exact (run_bind_of_done hrequire).trans (run_frames_of_known hstop hframes)

end Known

/-- A steady host that the server reports events to when it is asked. -/
def SteadyHost.answering (host : SteadyHost) (events : List LogEvent) :
    (q : SessionRequest) → sessionSignature.Reply q
  | .query _ _ => .ok (events, .deadline)
  | q => host.reply q

end SessionM

/-! ### Events of the log -/

/-- Among events, blocks of the name `executor` have reported `outputs` before the first event of
    the name `last`.  Other blocks may have reported anything. -/
inductive Answers (executor last : Text) : List Text → List LogEvent → Prop where
  | report {output outputs events} : Answers executor last outputs events →
      Answers executor last (output :: outputs) (⟨executor, output⟩ :: events)
  | other {e outputs events} : e.executor ≠ executor → e.executor ≠ last →
      Answers executor last outputs events → Answers executor last outputs (e :: events)
  | last {output events} : Answers executor last [] (⟨last, output⟩ :: events)

theorem collect_of_answers {executor last : Text} (hne : executor ≠ last)
    (h : Answers executor last outputs events) : collect executor last events = some outputs := by
  induction h with
  | report _ ih => simp [collect, ih]
  | other hexecutor hlast _ ih => simp [collect, hexecutor, hlast, ih]
  | last => simp [collect, Ne.symm hne]

/-! ### Numerals -/

namespace Text

/-- A numeral is made of digits, and of a sign. -/
theorem isDigit_or_eq_of_mem_ofInt {n : Int} {b : UInt8} (h : b ∈ ofInt n) :
    isDigit b = true ∨ b = 0x2d := by
  cases n with
  | ofNat n => exact .inl (isDigit_of_mem_ofNat h)
  | negSucc n =>
    rcases List.mem_cons.mp h with rfl | h
    · exact .inr rfl
    · exact .inl (isDigit_of_mem_ofNat h)

theorem ofInt_ne_nil (n : Int) : ofInt n ≠ [] := by
  cases n with
  | ofNat n => exact ofNat_ne_nil n
  | negSucc n => exact List.cons_ne_nil _ _

/-- A byte that is neither a digit nor the sign is in no numeral. -/
theorem not_mem_ofInt {n : Int} {b : UInt8} (hdigit : isDigit b = false) (hsign : b ≠ 0x2d) :
    b ∉ ofInt n := by
  intro h
  rcases isDigit_or_eq_of_mem_ofInt h with hb | hb
  · rw [hdigit] at hb
    cases hb
  · exact hsign hb

/-- The numeral of a word is read back. -/
theorem toIntOfBits?_ofInt {bits : Nat} {n : Int} (hn : fitsBits bits n = true) :
    toIntOfBits? bits (ofInt n) = some n := by
  rw [toIntOfBits?, toInt?_ofInt, Option.filter_some, if_pos hn]

end Text

/-! ### The wording of scores -/

/-- The report of a score. -/
def ReportedScore.text (r : ReportedScore) : Text :=
  r.holder ++ " has " ++ Text.ofInt r.value ++ " [" ++ r.objective ++ "]"

/-- A score that can be read: the holder may be any line, the value is a word, and there are no
    blanks in the objective. -/
structure ReportedScore.Readable (r : ReportedScore) : Prop where
  holder : Report.isLine r.holder = true
  value : Text.fitsBits 64 r.value = true
  objective : Report.isLine r.objective = true
  noBlank : Text.blank ∉ r.objective

namespace Report

/-- The value and the objective are read back. -/
theorem valueAndObjective?_text (value : Int) {objective : Text}
    (hobjective : isLine objective = true) :
    valueAndObjective? (Text.ofInt value ++ (" [" ++ (objective ++ "]"))) =
      some (Text.ofInt value, objective) := by
  have hdigits : ∀ n : Nat, ∀ b ∈ Text.ofNat n, Text.isDigit b = true := fun n b =>
    Text.isDigit_of_mem_ofNat
  have htake : ∀ n : Nat, (Text.ofNat n ++ (" [" ++ (objective ++ "]"))).takeWhile Text.isDigit =
      Text.ofNat n :=
    fun n => Text.takeWhile_field (Text.ofString " [") _ (hdigits n) (by decide)
  have hdrop : ∀ n : Nat, (Text.ofNat n ++ (" [" ++ (objective ++ "]"))).dropWhile Text.isDigit =
      " [" ++ (objective ++ "]") :=
    fun n => Text.dropWhile_field (Text.ofString " [") _ (hdigits n) (by decide)
  cases value with
  | negSucc n =>
    simp [valueAndObjective?, Text.ofInt, htake, hdrop, Text.dropStart?_append,
      Text.dropEnd?_append, hobjective, Text.ofNat_ne_nil]
  | ofNat n =>
    have htake := htake n
    have hdrop := hdrop n
    rw [Text.ofInt]
    -- A numeral without a sign does not start with one.
    cases h : Text.ofNat n with
    | nil => exact absurd h (Text.ofNat_ne_nil n)
    | cons b t =>
      have hb : b ≠ 0x2d := by
        rintro rfl
        exact absurd (hdigits n 0x2d (h ▸ List.mem_cons_self)) (by decide)
      rw [h] at htake hdrop
      rw [List.cons_append] at htake hdrop ⊢
      simp [valueAndObjective?, hb, htake, hdrop, Text.dropStart?_append, Text.dropEnd?_append,
        hobjective]

theorem hasText : Text.ofString " has " = [Text.blank, 0x68, 0x61, 0x73, Text.blank] := by decide

/-- Where no score starts, the holder goes on. -/
theorem splitScore?_skip {front t : Text} {b : UInt8}
    (h : Text.dropStart? " has " (b :: t) = none) :
    splitScore? front (b :: t) = splitScore? (b :: front) t := by
  rw [splitScore?, h]
  exact Option.or_none

/-- No score starts within a text without blanks. -/
theorem splitScore?_field {field : Text} (hfield : Text.blank ∉ field) (front t : Text) :
    splitScore? front (field ++ t) = splitScore? (field.reverse ++ front) t := by
  induction field generalizing front with
  | nil => rfl
  | cons b field ih =>
    obtain ⟨hb, hfield⟩ : Text.blank ≠ b ∧ Text.blank ∉ field := by simpa using hfield
    have hskip : Text.dropStart? " has " (b :: (field ++ t)) = none := by
      simp [hasText, Text.dropStart?, hb]
    rw [List.cons_append, splitScore?_skip hskip, ih hfield, List.reverse_cons, List.append_assoc]
    rfl

/-- No score starts at a blank that another byte than `h` follows. -/
theorem splitScore?_blank {field : Text} (hne : field ≠ []) (hfirst : field.head? ≠ some 0x68)
    (front t : Text) :
    splitScore? front (Text.blank :: (field ++ t)) =
      splitScore? (Text.blank :: front) (field ++ t) := by
  obtain ⟨b, field, rfl⟩ := List.exists_cons_of_ne_nil hne
  have hb : 0x68 ≠ b := fun h => hfirst (congrArg some h.symm)
  exact splitScore?_skip (by simp [hasText, Text.dropStart?, hb])

/-- Whatever the holder is, it ends where the last score starts. -/
theorem splitScore?_holder {front t : Text} {r : Text × Text × Text} (holder : Text)
    (h : splitScore? (holder.reverse ++ front) t = some r) :
    splitScore? front (holder ++ t) = some r := by
  induction holder generalizing front with
  | nil => exact h
  | cons b holder ih =>
    rw [List.cons_append, splitScore?, ih (by simpa using h)]
    rfl

/-- Behind the blank in front of `has` there is no other place where a score starts. -/
theorem splitScore?_behind {value objective front : Text} (hvalue : value ≠ [])
    (hfirst : value.head? ≠ some 0x68) (hblank : Text.blank ∉ value)
    (hobjective : Text.blank ∉ objective) :
    splitScore? front ([0x68, 0x61, 0x73, Text.blank] ++ (value ++ (" [" ++ (objective ++ "]")))) =
      none := by
  have hbracketed : Text.blank ∉ 0x5b :: (objective ++ [0x5d]) := by
    simpa [Text.blank] using hobjective
  have hparts : ([0x68, 0x61, 0x73, Text.blank] ++ (value ++ (" [" ++ (objective ++ "]"))) : Text) =
      [0x68, 0x61, 0x73] ++ Text.blank ::
        (value ++ Text.blank :: ((0x5b :: (objective ++ [0x5d])) ++ [])) := by
    simp [show Text.ofString " [" = [Text.blank, 0x5b] by decide,
      show Text.ofString "]" = [0x5d] by decide]
  rw [hparts, splitScore?_field (by decide), splitScore?_blank hvalue hfirst,
    splitScore?_field hblank, splitScore?_blank (by simp) (by simp), splitScore?_field hbracketed]
  rfl

/-- The text of a score is cut where it was put together. -/
theorem splitScore?_text {r : ReportedScore} (hr : r.Readable) :
    splitScore? [] r.text = some (r.holder, Text.ofInt r.value, r.objective) := by
  have htext : r.text = r.holder ++
      (" has " ++ (Text.ofInt r.value ++ (" [" ++ (r.objective ++ "]")))) := by
    simp only [ReportedScore.text, List.append_assoc]
  have hholder : isLine r.holder.reverse = true := by simpa [isLine] using hr.holder
  have hblank : Text.blank ∉ Text.ofInt r.value := Text.not_mem_ofInt (by decide) (by decide)
  have hfirst : (Text.ofInt r.value).head? ≠ some 0x68 := fun h =>
    Text.not_mem_ofInt (by decide) (by decide) (List.mem_of_head? h)
  rw [htext]
  refine splitScore?_holder r.holder ?_
  rw [List.append_nil, hasText, List.cons_append, splitScore?,
    splitScore?_behind (Text.ofInt_ne_nil _) hfirst hblank hr.noBlank, ← List.cons_append,
    ← hasText, Text.dropStart?_append]
  simp [valueAndObjective?_text r.value hr.objective, hholder]

/-- A score is read back from its report, whatever its holder is. -/
theorem score?_text {r : ReportedScore} (hr : r.Readable) : score? r.text = some r := by
  rw [score?, splitScore?_text hr]
  simp [Text.toIntOfBits?_ofInt hr.value]

end Report

end DatapackDebug
