import DatapackDebug.Adapter.Handle
import DatapackDebug.Proofs.Queries

namespace DatapackDebug

/-!
# Pages of a stack trace

A client may ask for some of the frames only: from one on, and up to a number.  The adapter computes
the bounds in words.  It answers unless the first frame is negative, or the bounds wrap around.

* `StackPage` — the frames that a request means, with `StackPage.start` and `StackPage.length`;
* `StackPage.Computable` — the bounds can be computed;
* `stackWindow?_of_computable`, `stackWindow?_of_not_computable` — then the bounds are those of the
  page, and otherwise there are none;
* `AdapterM.run_answerBy_of_done` — a request that the session can answer at once;
* `stackTrace_page_iff` — the request is answered with its page exactly if the bounds can be
  computed.
-/

/-! ### Pages -/

/-- A request for some of the frames. -/
structure StackPage where
  startFrame : Int
  /-- how many frames are wanted; all of them, if the number is not positive -/
  levels : Int
deriving DecidableEq, Repr

namespace StackPage

/-- The first frame of the page, of `count` frames. -/
def start (p : StackPage) (count : Nat) : Nat := (max 0 (min p.startFrame count)).toNat

/-- How many frames the page has. -/
def length (p : StackPage) (count : Nat) : Nat :=
  if 0 < p.levels then min p.levels.toNat (count - p.start count) else count - p.start count

/-- The frames of the page. -/
def of (p : StackPage) (frames : List Frame) : List Frame :=
  (frames.drop (p.start frames.length)).take (p.length frames.length)

/-- What is asked for are words. -/
structure Fits (p : StackPage) : Prop where
  startFrame : Text.fitsBits 64 p.startFrame = true
  levels : Text.fitsBits 64 p.levels = true

/-- The first frame is not negative, and the sum of both bounds is a word. -/
def Computable (p : StackPage) (count : Nat) : Prop :=
  0 ≤ p.startFrame ∧ (0 < p.levels → min p.startFrame count + p.levels < Nat.pow 2 63)

theorem start_le (p : StackPage) (count : Nat) : p.start count ≤ count := by
  unfold start
  omega

theorem start_add_length_le (p : StackPage) (count : Nat) :
    p.start count + p.length count ≤ count := by
  have := p.start_le count
  unfold length
  split <;> omega

end StackPage

/-! ### Bounds -/

/-- A sum that is a word stays as it is. -/
theorem wrap64_of_fits {n : Int} (hmin : 0 ≤ n) (hmax : n < Nat.pow 2 63) : wrap64 n = n := by
  have hmax : n < 9223372036854775808 := hmax
  exact Int.bmod_eq_of_le (by omega) (show n < (18446744073709551616 + 1) / 2 by omega)

/-- A sum of words that is beyond them becomes negative. -/
theorem wrap64_of_overflow {n : Int} (hmin : Nat.pow 2 63 ≤ n) (hmax : n < Nat.pow 2 64) :
    wrap64 n < 0 := by
  have hmin : 9223372036854775808 ≤ n := hmin
  have hmax : n < 18446744073709551616 := hmax
  have hwrap : wrap64 n = n - 18446744073709551616 := by
    rw [wrap64, ← Int.sub_bmod_right]
    exact Int.bmod_eq_of_le (show -(18446744073709551616 / 2) ≤ n - 18446744073709551616 by omega)
      (show n - 18446744073709551616 < (18446744073709551616 + 1) / 2 by omega)
  omega

/-- The bounds, where the end of the frames is known. -/
theorem stackWindow?_of_stop {count : Nat} {startFrame levels stop : Int}
    (hstop : (if 0 < levels ∧ wrap64 (min startFrame count + levels) < count then
      wrap64 (min startFrame count + levels) else count) = stop) :
    stackWindow? count startFrame levels =
      if 0 ≤ min startFrame count ∧ min startFrame count ≤ stop then
        some ((min startFrame count).toNat, stop.toNat) else none := by
  simp only [stackWindow?, Bool.and_eq_true, decide_eq_true_eq, hstop]

/-- If the bounds can be computed, they are those of the page. -/
theorem stackWindow?_of_computable {p : StackPage} {count : Nat} (hp : p.Computable count) :
    stackWindow? count p.startFrame p.levels =
      some (p.start count, p.start count + p.length count) := by
  obtain ⟨hnonneg, hsum⟩ := hp
  have hstart : ((p.start count : Nat) : Int) = min p.startFrame count := by
    unfold StackPage.start
    omega
  have hle := p.start_le count
  have hstop : (if 0 < p.levels ∧ wrap64 (min p.startFrame count + p.levels) < count then
      wrap64 (min p.startFrame count + p.levels) else count) =
        ((p.start count + p.length count : Nat) : Int) := by
    unfold StackPage.length
    by_cases hlimited : 0 < p.levels
    · rw [wrap64_of_fits (by omega) (hsum hlimited), ← hstart, if_pos hlimited]
      split <;> omega
    · rw [if_neg (fun h => hlimited h.1), if_neg hlimited]
      omega
  rw [stackWindow?_of_stop hstop, ← hstart, if_pos (by omega)]
  rfl

/-- Otherwise there are none. -/
theorem stackWindow?_of_not_computable {p : StackPage} {count : Nat} (hfits : p.Fits)
    (hp : ¬ p.Computable count) : stackWindow? count p.startFrame p.levels = none := by
  have hfirst : p.startFrame < 9223372036854775808 :=
    decide_eq_true_iff.mp (Bool.and_eq_true_iff.mp hfits.startFrame).2
  have hlevels : p.levels < 9223372036854775808 :=
    decide_eq_true_iff.mp (Bool.and_eq_true_iff.mp hfits.levels).2
  rw [stackWindow?_of_stop rfl, if_neg]
  rintro ⟨hnonneg, hle⟩
  refine hp ⟨by omega, fun hlimited => Int.not_le.mp fun hbeyond => ?_⟩
  -- The sum becomes negative, so that the end is before the first frame.
  have hnegative : wrap64 (min p.startFrame count + p.levels) < 0 :=
    wrap64_of_overflow hbeyond (show _ < (18446744073709551616 : Int) by omega)
  rw [if_pos ⟨hlimited, by omega⟩] at hle
  omega

/-! ### Requests -/

namespace AdapterM

variable {r : ClientRequest} {a a' : Adapter} {s : Session}

theorem run_bind_of_done {α β : Type} {m : AdapterM α} {f : α → AdapterM β} {x : α}
    (hm : m.run a = .done (x, a')) : (m >>= f).run a = (f x).run a' := by
  show (m.run a).bind _ = _
  rw [hm]
  rfl

/-- A request that the session can answer at once. -/
theorem run_answerBy_of_done {α : Type} {m : SessionM α} {succeeded : α → AdapterM Unit} {x : α}
    (ha : a.session = some s) (hm : m.run.run s = .done (.ok x, s)) :
    (answerBy r m succeeded).run a = (succeeded x).run a := by
  have hin : (inSession s m).run a = .done (.ok x, { a with session := some s }) := by
    rw [inSession, runSession, hm]
    rfl
  have hkept : { a with session := some s } = a := by rw [← ha]
  rw [hkept] at hin
  refine (run_bind_of_done (m := get) (x := a) rfl).trans ?_
  simp only [ha]
  exact run_bind_of_done hin

end AdapterM

/-- A request for frames of a stopped program is answered with the frames of its page, and the
    number of all, exactly if the first frame is not negative and the bounds do not wrap around.
    Then the bounds are those of the page, within the frames.  Otherwise the adapter stops without
    an answer. -/
theorem stackTrace_page_iff {r : ClientRequest} {a : Adapter} {s : Session} {stop : Stop}
    {frames : List Frame} {p : StackPage} (hp : p.Fits)
    (hr : r.what = .stackTrace p.startFrame p.levels) (ha : a.session = some s)
    (hstatus : s.status = .stopped) (hstop : s.stop = some stop)
    (hframes : stop.frames = some frames) :
    ((AdapterM.handle r).run a =
        .ask (.send (.response r.seq r.command (.stackFrames (p.of frames) frames.length)))
          (fun _ => .done ((), a)) ↔
      p.Computable frames.length) ∧
    (p.Computable frames.length → p.start frames.length + p.length frames.length ≤ frames.length ∧
      stackWindow? frames.length p.startFrame p.levels =
        some (p.start frames.length, p.start frames.length + p.length frames.length)) ∧
    (¬ p.Computable frames.length →
      (AdapterM.handle r).run a = .done ((), { a with broken := true })) := by
  have hhandle : (AdapterM.handle r).run a =
      (AdapterM.answerFrames r p.startFrame p.levels frames).run a := by
    rw [AdapterM.handle, hr]
    exact AdapterM.run_answerBy_of_done ha (SessionM.run_stackTrace_of_known hstatus hstop hframes)
  have hbroken : ¬ p.Computable frames.length →
      (AdapterM.handle r).run a = .done ((), { a with broken := true }) := by
    intro hnot
    rw [hhandle, AdapterM.answerFrames, stackWindow?_of_not_computable hp hnot]
    rfl
  refine ⟨⟨fun hanswer => ?_, fun hcomputable => ?_⟩, fun hcomputable => ?_, hbroken⟩
  · refine Classical.byContradiction fun hnot => ?_
    rw [hbroken hnot] at hanswer
    cases hanswer
  · rw [hhandle, AdapterM.answerFrames, stackWindow?_of_computable hcomputable]
    have hpage : (frames.take (p.start frames.length + p.length frames.length)).drop
        (p.start frames.length) =
        p.of frames := by
      rw [List.drop_take, Nat.add_sub_cancel_left]
      rfl
    rw [← hpage]
    rfl
  · exact ⟨p.start_add_length_le _, stackWindow?_of_computable hcomputable⟩

/-- A stop with three frames. -/
def pagedStop : Stop where
  function := ⟨"t", "h"⟩
  position := ⟨1, .breakpoint⟩
  reason := .step
  frames := some [⟨3, ⟨"t", "h"⟩, [], 1, 1⟩, ⟨2, ⟨"t", "g"⟩, [], 4, 1⟩, ⟨1, ⟨"t", "f"⟩, [], 2, 1⟩]

/-- An adapter whose program has stopped there. -/
def pagedAdapter : Adapter where
  session := some { grammar := ⟨#[]⟩, status := .stopped, stop := some pagedStop }

/-- The client asks for a page. -/
def pagedRequest (p : StackPage) : ClientRequest :=
  ⟨7, "stackTrace", .stackTrace p.startFrame p.levels⟩

/-- The adapter stops if the first frame is negative, and if its number and the number of levels do
    not fit in a word together.  A page in the middle is answered. -/
theorem pagedAdapter_stops :
    (AdapterM.handle (pagedRequest ⟨-1, 0⟩)).run pagedAdapter =
      .done ((), { pagedAdapter with broken := true }) ∧
    (AdapterM.handle (pagedRequest ⟨1, 9223372036854775807⟩)).run pagedAdapter =
      .done ((), { pagedAdapter with broken := true }) ∧
    (AdapterM.handle (pagedRequest ⟨1, 1⟩)).run pagedAdapter =
      .ask (.send (.response 7 "stackTrace" (.stackFrames [⟨2, ⟨"t", "g"⟩, [], 4, 1⟩] 3)))
        fun _ => .done ((), pagedAdapter) := by
  have hframes : pagedStop.frames =
      some [⟨3, ⟨"t", "h"⟩, [], 1, 1⟩, ⟨2, ⟨"t", "g"⟩, [], 4, 1⟩, ⟨1, ⟨"t", "f"⟩, [], 2, 1⟩] := rfl
  have hpaged := fun (p : StackPage) (hp : p.Fits) =>
    stackTrace_page_iff (r := pagedRequest p) (a := pagedAdapter) hp rfl rfl rfl rfl hframes
  refine ⟨(hpaged ⟨-1, 0⟩ ⟨by decide, by decide⟩).2.2 fun h => ?_,
    (hpaged ⟨1, 9223372036854775807⟩ ⟨by decide, by decide⟩).2.2 fun h => ?_,
    (hpaged ⟨1, 1⟩ ⟨by decide, by decide⟩).1.mpr ⟨by decide, fun _ => by decide⟩⟩
  · exact absurd h.1 (by decide)
  · exact absurd (h.2 (by decide)) (by decide)

end DatapackDebug
