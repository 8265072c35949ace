import DatapackDebug.Session.Run

namespace DatapackDebug

/-!
# Reasoning about session operations

An operation of a session talks with its host, who may reply anything.

* `Exchange`, `Dialogue.Yields` — a request with its reply, and a dialogue that ends after some
  exchanges;
* `SessionM.Ensures` — whatever the host replies, what an operation leads to has a property;
* `Ensures.bind`, `Ensures.ask` and the other rules — one for each way to build operations;
* `Ensures.inject`, `Ensures.loadFunctions`, `Ensures.generate`, `Ensures.update` — what the
  operations that others are made of can lead to.
-/

variable {α : Type}

/-! ### Dialogues -/

/-- A request with the reply to it. -/
abbrev Exchange (S : Signature) := (r : S.Request) × S.Reply r

/-- The dialogue ends with a result after some exchanges. -/
inductive Dialogue.Yields {S : Signature} {α : Type} :
    Dialogue S α → List (Exchange S) → α → Prop where
  | done {a} : Dialogue.Yields (.done a) [] a
  | ask {r next reply h a} : Dialogue.Yields (next reply) h a →
      Dialogue.Yields (.ask r next) (⟨r, reply⟩ :: h) a

/-- Of two dialogues one after the other the second starts with the result of the first. -/
theorem Dialogue.Yields.of_bind {S : Signature} {β : Type} {d : Dialogue S α} {f : α → Dialogue S β}
    {h : List (Exchange S)} {b : β} (hd : (d.bind f).Yields h b) :
    ∃ h₁ h₂ a, h = h₁ ++ h₂ ∧ d.Yields h₁ a ∧ (f a).Yields h₂ b := by
  induction d generalizing h with
  | done a => exact ⟨[], h, a, rfl, .done, hd⟩
  | ask r next ih =>
    cases hd with
    | @ask _ _ reply h b hnext =>
      obtain ⟨h₁, h₂, a, rfl, hfirst, hsecond⟩ := ih reply hnext
      exact ⟨⟨r, reply⟩ :: h₁, h₂, a, rfl, .ask hfirst, hsecond⟩

/-- A dialogue goes on with the result of another one. -/
theorem Dialogue.Yields.bind {S : Signature} {β : Type} {d : Dialogue S α} {f : α → Dialogue S β}
    {h₁ h₂ : List (Exchange S)} {a : α} {b : β} (hd : d.Yields h₁ a) (hf : (f a).Yields h₂ b) :
    (d.bind f).Yields (h₁ ++ h₂) b := by
  induction hd with
  | done => exact hf
  | ask _ ih => exact .ask (ih hf)

instance {S : Signature} : LawfulMonad (Dialogue S) := by
  refine LawfulMonad.mk' (Dialogue S) ?_ ?_ ?_
  · intro α d
    show d.bind (fun a => .done a) = d
    induction d with
    | done a => rfl
    | ask r next ih => exact congrArg (Dialogue.ask r) (funext ih)
  · intro α β a f
    rfl
  · intro α β γ d f g
    show (d.bind f).bind g = d.bind fun a => (f a).bind g
    induction d with
    | done a => rfl
    | ask r next ih => exact congrArg (Dialogue.ask r) (funext ih)

namespace SessionM

/-! ### Operations -/

/-- What a session asks of its host, with the replies. -/
abbrev History := List (Exchange sessionSignature)

/-- The operation leads from one session to another, with some exchanges and a result. -/
def Yields {α : Type} (m : SessionM α) (s : Session) (h : History) (r : Except SessionError α)
    (s' : Session) : Prop :=
  Dialogue.Yields (m.run.run s) h (r, s')

/-- Whatever the host replies, the exchanges, the result and the session have a property. -/
def Ensures {α : Type} (m : SessionM α) (s : Session)
    (Q : History → Except SessionError α → Session → Prop) : Prop :=
  ∀ h r s', m.Yields s h r s' → Q h r s'

namespace Ensures

variable {β : Type} {m : SessionM α} {f : α → SessionM β} {s : Session}
  {Q Q' : History → Except SessionError α → Session → Prop}
  {R : History → Except SessionError β → Session → Prop}

theorem mono (h : m.Ensures s Q) (hQ : ∀ h r s', Q h r s' → Q' h r s') : m.Ensures s Q' :=
  fun h' r s' hyields => hQ h' r s' (h h' r s' hyields)

theorem pure {a : α} (h : Q [] (.ok a) s) : Ensures (Pure.pure a) s Q := by
  rintro _ _ _ ⟨⟩
  exact h

theorem throw {e : SessionError} (h : Q [] (.error e) s) : Ensures (MonadExcept.throw e) s Q := by
  rintro _ _ _ ⟨⟩
  exact h

/-- An operation that fails ends what it is a part of. -/
theorem bind (h : m.Ensures s fun h r s₁ =>
      match r with
      | .ok a => (f a).Ensures s₁ fun h' r s' => R (h ++ h') r s'
      | .error e => R h (.error e) s₁) :
    (m >>= f).Ensures s R := by
  intro h' r s' hyields
  obtain ⟨h₁, h₂, ⟨r₁, s₁⟩, rfl, hfirst, hsecond⟩ := Dialogue.Yields.of_bind hyields
  have hm := h h₁ r₁ s₁ hfirst
  cases r₁ with
  | ok a => exact hm h₂ r s' hsecond
  | error e =>
    cases hsecond
    rw [List.append_nil]
    exact hm

theorem get_bind {f : Session → SessionM β} (h : (f s).Ensures s R) :
    (MonadState.get >>= f).Ensures s R := h

theorem modify_bind {g : Session → Session} {f : PUnit → SessionM β} (h : (f ⟨⟩).Ensures (g s) R) :
    ((modify g : SessionM PUnit) >>= f).Ensures s R := h

theorem set_bind {s₁ : Session} {f : PUnit → SessionM β} (h : (f ⟨⟩).Ensures s₁ R) :
    ((set s₁ : SessionM PUnit) >>= f).Ensures s R := h

theorem ask_bind {q : SessionRequest} {f : sessionSignature.Reply q → SessionM β}
    (h : ∀ reply, (f reply).Ensures s fun h r s' => R (⟨q, reply⟩ :: h) r s') :
    (ask q >>= f).Ensures s R := by
  intro h' r s' hyields
  cases hyields with
  | @ask _ _ reply _ _ hnext => exact h reply _ _ _ hnext

theorem ask {q : SessionRequest}
    {Q : History → Except SessionError (sessionSignature.Reply q) → Session → Prop}
    (h : ∀ reply, Q [⟨q, reply⟩] (.ok reply) s) : (SessionM.ask q).Ensures s Q := by
  intro h' r s' hyields
  cases hyields with
  | @ask _ _ reply _ _ hnext =>
    cases hnext
    exact h reply

theorem ite {c : Prop} [Decidable c] {m' : SessionM α} (hc : c → m.Ensures s Q)
    (hnc : ¬c → m'.Ensures s Q) : (if c then m else m').Ensures s Q := by
  by_cases h : c
  · rw [if_pos h]
    exact hc h
  · rw [if_neg h]
    exact hnc h

theorem launch_bind {f : Launch → SessionM β}
    (hnone : s.launch = none → R [] (.error .notLaunched) s)
    (hsome : ∀ l, s.launch = some l → (f l).Ensures s R) : (SessionM.launch >>= f).Ensures s R := by
  refine bind (get_bind ?_)
  cases hl : s.launch with
  | none => exact throw (hnone hl)
  | some l => exact pure (hsome l hl)

/-- A failure that is caught goes on with the session as it is. -/
theorem tryCatch {handle : SessionError → SessionM α} (h : m.Ensures s fun h r s₁ =>
      match r with
      | .ok a => Q h (.ok a) s₁
      | .error e => (handle e).Ensures s₁ fun h' r s' => Q (h ++ h') r s') :
    (MonadExcept.tryCatch m handle).Ensures s Q := by
  intro h' r s' hyields
  obtain ⟨h₁, h₂, ⟨r₁, s₁⟩, rfl, hfirst, hsecond⟩ := Dialogue.Yields.of_bind hyields
  have hm := h h₁ r₁ s₁ hfirst
  cases r₁ with
  | ok a =>
    cases hsecond
    rw [List.append_nil]
    exact hm
  | error e => exact hm h₂ r s' hsecond

end Ensures

/-! ### Hosts -/

/-- Perform an operation with a host that gives each request its reply, and keep the exchanges. -/
def talk {α : Type} (host : (q : SessionRequest) → sessionSignature.Reply q) (m : SessionM α)
    (s : Session) : (Except SessionError α × Session) × History :=
  (m.run.run s).run (fun q h => (host q, h ++ [⟨q, host q⟩])) []

/-- What an operation leads to with a host is something that it can lead to. -/
theorem yields_talk (host : (q : SessionRequest) → sessionSignature.Reply q) (m : SessionM α)
    (s : Session) : m.Yields s (m.talk host s).2 (m.talk host s).1.1 (m.talk host s).1.2 := by
  have hrun : ∀ (d : Dialogue sessionSignature (Except SessionError α × Session)) (h : History),
      ∃ h', (d.run (fun q h => (host q, h ++ [⟨q, host q⟩])) h).2 = h ++ h' ∧
        d.Yields h' (d.run (fun q h => (host q, h ++ [⟨q, host q⟩])) h).1 := by
    intro d
    induction d with
    | done a => exact fun h => ⟨[], by simp [Dialogue.run], .done⟩
    | ask q next ih =>
      intro h
      obtain ⟨h', heq, hnext⟩ := ih (host q) (h ++ [⟨q, host q⟩])
      exact ⟨⟨q, host q⟩ :: h', by simpa [Dialogue.run] using heq, .ask hnext⟩
  obtain ⟨h, heq, hyields⟩ := hrun (m.run.run s) []
  have hhistory : (m.talk host s).2 = h := heq
  rw [hhistory]
  exact hyields

/-- All replies are those of the host. -/
theorem reply_of_mem_talk {host : (q : SessionRequest) → sessionSignature.Reply q} {m : SessionM α}
    {s : Session} {e : Exchange sessionSignature} (he : e ∈ (m.talk host s).2) :
    e.2 = host e.1 := by
  have hrun : ∀ (d : Dialogue sessionSignature (Except SessionError α × Session)) (h : History),
      (∀ e ∈ h, e.2 = host e.1) →
      ∀ e ∈ (d.run (fun q h => (host q, h ++ [⟨q, host q⟩])) h).2, e.2 = host e.1 := by
    intro d
    induction d with
    | done a => exact fun h hh => hh
    | ask q next ih =>
      refine fun h hh => ih (host q) _ (List.forall_mem_append.mpr ⟨hh, ?_⟩)
      exact List.forall_mem_singleton.mpr rfl
  exact hrun (m.run.run s) [] (by simp) e he

/-- A host with one datapack, to whom all requests are cancelled or none is, and who fails to inject
    commands always or never. -/
structure SteadyHost where
  tree : FileTree
  cancelled : Bool := false
  failure : Option ConnectionError := none

/-- What the host replies to a request. -/
def SteadyHost.reply (host : SteadyHost) : (q : SessionRequest) → sessionSignature.Reply q
  | .isCancelled => host.cancelled
  | .findTree _ => .ok host.tree
  | .replaceDir _ _ | .removeAll _ => (none : Option FileError)
  | .inject _ => host.failure
  | .query _ _ => .error .deadline
  | .listen _ | .unlisten | .closeConnection | .notify _ => ()

/-- A datapack with one function. -/
def sampleTree (source : Text) : FileTree :=
  .dir [("data", .dir [("t", .dir [("functions", .dir [("f.mcfunction", .file source)])])]),
    ("pack.mcmeta", .file "{}")]

/-! ### Failures -/

/-- What a session does when a request to the server has failed: nothing, or it ends, and reports
    that unless it has done so before. -/
inductive FailsTo (s : Session) : History → Session → Prop where
  | kept : FailsTo s [] s
  | ended : FailsTo s [] { s with status := .terminated }
  | reported : s.endReported = false →
      FailsTo s [⟨.notify .terminated, ()⟩] { s with status := .terminated, endReported := true }

namespace Ensures

variable {s : Session} {Q : History → Except SessionError Unit → Session → Prop}
  {commands : List ServerCommand}

theorem reportEnd (hbefore : s.endReported = true → Q [] (.ok ()) s) (hnow : s.endReported = false →
      Q [⟨.notify .terminated, ()⟩] (.ok ()) { s with endReported := true }) :
    SessionM.reportEnd.Ensures s Q := by
  unfold SessionM.reportEnd
  refine get_bind (ite (fun h => pure (hbefore h)) fun h => modify_bind (ask fun _ => hnow ?_))
  simpa using h

theorem connectionFailed {Q : History → Except SessionError α → Session → Prop}
    {e : ConnectionError} (h : ∀ h e s', FailsTo s h s' → Q h (.error e) s') :
    (SessionM.connectionFailed e).Ensures s Q := by
  unfold SessionM.connectionFailed
  split
  · exact throw (h _ _ _ .kept)
  · refine modify_bind (bind (reportEnd (fun _ => ?_) fun hunreported => ?_))
    · exact throw (h _ _ _ .ended)
    · exact throw (h _ _ _ (.reported hunreported))

theorem inject (hok : Q [⟨.inject commands, none⟩] (.ok ()) s)
    (hfail : ∀ failure h e s', FailsTo s h s' →
      Q (⟨.inject commands, some failure⟩ :: h) (.error e) s') :
    (SessionM.inject commands).Ensures s Q := by
  unfold SessionM.inject
  refine ask_bind fun reply => ?_
  match reply with
  | none => exact pure hok
  | some failure => exact connectionFailed fun h e s' => hfail failure h e s'

theorem query {Q : History → Except SessionError (List Text) → Session → Prop}
    {executor last : Text}
    (hok : ∀ reply outputs, Q [⟨.query commands last, reply⟩] (.ok outputs) s)
    (hfail : ∀ reply h e s', FailsTo s h s' →
      Q (⟨.query commands last, reply⟩ :: h) (.error e) s') :
    (SessionM.query commands executor last).Ensures s Q := by
  unfold SessionM.query
  refine ask_bind fun reply => ?_
  match reply with
  | .error e => exact connectionFailed fun h e s' => hfail _ h e s'
  | .ok (events, ending) =>
    simp only
    split
    · exact pure (hok _ _)
    · exact throw (hfail _ _ _ _ .kept)
    · exact throw (hfail _ _ _ _ .kept)
    · exact connectionFailed fun h e s' => hfail _ h e s'

end Ensures

/-! ### Reading and writing datapacks -/

/-- What reading the functions again can lead to, if a source has changed. -/
inductive Reloads (s : Session) : History → Except SessionError Unit → Session → Prop where
  | unmodified : s.sourceModified = false → Reloads s [] (.ok ()) s
  | unlaunched : s.sourceModified = true → s.launch = none →
      Reloads s [] (.error .notLaunched) { s with sourceModified := false }
  | failed {l tree cancelled e} : s.sourceModified = true → s.launch = some l →
      Datapack.load s.grammar l.datapack tree cancelled = .error e →
      Reloads s [⟨.findTree (Path.clean l.datapack), tree⟩, ⟨.isCancelled, cancelled⟩]
        (.error (.datapack e)) { s with sourceModified := false }
  | reloaded {l tree cancelled functions} : s.sourceModified = true → s.launch = some l →
      Datapack.load s.grammar l.datapack tree cancelled = .ok functions →
      Reloads s [⟨.findTree (Path.clean l.datapack), tree⟩, ⟨.isCancelled, cancelled⟩]
        (.ok ()) { s with sourceModified := false, functions, stale := true }

/-- What generating the datapack with some breakpoints can lead to. -/
inductive Generates (m : BreakpointMap) (s : Session) :
    History → Except SessionError Unit → Session → Prop where
  | refused {h e} : (∀ x ∈ h, x.1 = .isCancelled) → Generates m s h (.error e) s
  | failed {l pack cancelled e} : s.launch = some l →
      GeneratedPack.generate l.config s.functions m cancelled = .ok pack →
      Generates m s [⟨.isCancelled, cancelled⟩, ⟨.replaceDir l.output pack.files, some e⟩]
        (.error (.file e)) s
  | written {l pack cancelled} : s.launch = some l →
      GeneratedPack.generate l.config s.functions m cancelled = .ok pack →
      Generates m s [⟨.isCancelled, cancelled⟩, ⟨.replaceDir l.output pack.files, none⟩]
        (.ok ()) { s with generated := m.key, objectives := pack.objectives, stale := false }

/-- The request to the server to load its datapacks again. -/
def reloadRequest (s : Session) : SessionRequest := .inject [⟨s.ns, "reload"⟩]

/-- What bringing the datapack on the server up to date can lead to. -/
inductive Updates (s : Session) : History → Except SessionError Unit → Session → Prop where
  | outdated {h e s'} : Reloads s h (.error e) s' → Updates s h (.error e) s'
  | current {h s₁} : Reloads s h (.ok ()) s₁ → s₁.stale = false →
      s₁.effectiveBreakpoints.key = s₁.generated → Updates s h (.ok ()) s₁
  | unwritten {h₁ h₂ e s₁ s'} : Reloads s h₁ (.ok ()) s₁ →
      Generates s₁.effectiveBreakpoints s₁ h₂ (.error e) s' → Updates s (h₁ ++ h₂) (.error e) s'
  | unloaded {h₁ h₂ h₃ failure e s₁ s₂ s'} : Reloads s h₁ (.ok ()) s₁ →
      Generates s₁.effectiveBreakpoints s₁ h₂ (.ok ()) s₂ → FailsTo s₂ h₃ s' →
      Updates s (h₁ ++ (h₂ ++ ⟨reloadRequest s₂, some failure⟩ :: h₃)) (.error e) s'
  | loaded {h₁ h₂ s₁ s₂} : Reloads s h₁ (.ok ()) s₁ →
      Generates s₁.effectiveBreakpoints s₁ h₂ (.ok ()) s₂ →
      Updates s (h₁ ++ (h₂ ++ [⟨reloadRequest s₂, none⟩])) (.ok ()) s₂

namespace Ensures

variable {s : Session} {Q : History → Except SessionError Unit → Session → Prop}

theorem loadFunctions (hnone : s.launch = none → Q [] (.error .notLaunched) s)
    (herror : ∀ l tree cancelled e, s.launch = some l →
      Datapack.load s.grammar l.datapack tree cancelled = .error e →
      Q [⟨.findTree (Path.clean l.datapack), tree⟩, ⟨.isCancelled, cancelled⟩]
        (.error (.datapack e)) s)
    (hok : ∀ l tree cancelled functions, s.launch = some l →
      Datapack.load s.grammar l.datapack tree cancelled = .ok functions →
      Q [⟨.findTree (Path.clean l.datapack), tree⟩, ⟨.isCancelled, cancelled⟩] (.ok ())
        { s with functions }) : SessionM.loadFunctions.Ensures s Q := by
  unfold SessionM.loadFunctions SessionM.isCancelled
  refine launch_bind hnone fun l hl => ask_bind fun tree => ask_bind fun cancelled => get_bind ?_
  cases hload : Datapack.load s.grammar l.datapack tree cancelled with
  | error e => exact throw (herror l tree cancelled e hl hload)
  | ok functions =>
    rintro _ _ _ ⟨⟩
    exact hok l tree cancelled functions hl hload

theorem reloadModified : SessionM.reloadModified.Ensures s (Reloads s) := by
  unfold SessionM.reloadModified
  refine get_bind (ite (fun hmodified => modify_bind (bind (loadFunctions ?_ ?_ ?_)))
    fun hmodified => ?_)
  · exact fun hl => .unlaunched hmodified hl
  · exact fun l tree cancelled e hl hload => .failed hmodified hl hload
  · rintro l tree cancelled functions hl hload _ _ _ ⟨⟩
    exact .reloaded hmodified hl hload
  · exact pure (.unmodified (by simpa using hmodified))

theorem generate {m : BreakpointMap} : (SessionM.generate m).Ensures s (Generates m s) := by
  unfold SessionM.generate SessionM.isCancelled
  refine launch_bind (fun _ => .refused (by simp)) fun l hl => ask_bind fun cancelled => get_bind ?_
  cases hpack : GeneratedPack.generate l.config s.functions m cancelled with
  | error e =>
    cases e with
    | cancelled => exact throw (.refused (List.forall_mem_singleton.mpr rfl))
    | config e => exact throw (.refused (List.forall_mem_singleton.mpr rfl))
  | ok pack =>
    refine ask_bind fun reply => ?_
    match reply with
    | some e => exact throw (.failed hl hpack)
    | none =>
      rintro _ _ _ ⟨⟩
      exact .written hl hpack

theorem update : SessionM.update.Ensures s (Updates s) := by
  unfold SessionM.update SessionM.injectOne
  refine bind (reloadModified.mono fun h₁ r s₁ hreload => ?_)
  cases r with
  | error e => exact .outdated hreload
  | ok _ =>
    refine get_bind (ite (fun _ => bind (generate.mono fun h₂ r s₂ hgenerate => ?_))
      fun hcurrent => ?_)
    · cases r with
      | error e => exact .unwritten hreload hgenerate
      | ok _ =>
        refine get_bind (inject ?_ fun failure h₃ e s' hfails => ?_)
        · exact .loaded hreload hgenerate
        · exact .unloaded hreload hgenerate hfails
    · refine pure ?_
      rw [List.append_nil]
      simp only [Bool.or_eq_true, bne_iff_ne, ne_eq, not_or, Decidable.not_not,
      Bool.not_eq_true] at hcurrent
      exact .current hreload hcurrent.1 hcurrent.2

end Ensures

end SessionM

end DatapackDebug
