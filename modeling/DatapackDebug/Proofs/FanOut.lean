import DatapackDebug.Server.Listeners
import Mathlib.Data.List.Nodup

namespace DatapackDebug

/-!
# What listeners hear

Listeners come and go while reports are sent to all of them.  Broadcasts follow each other, but one
takes its time: the report is sent to one listener after the other, in an order that nobody knows,
and where a channel has no room it waits until its reader has taken something.

* `ListenerOp`, `Hub` — what is done with listeners, and what their readers have taken;
* `Hub.Sends`, `Hub.Runs` — a broadcast as single sends, and operations one after the other;
* `Hub.Effect` — all that an operation does to those who listen, whichever way it is carried out;
* `Hub.Runs.carried_eq` — what a listener has heard after a run;
* `listeners_fan_out` — a channel carries the reports between the start and the end of its listener,
  and is then closed.
-/

/-- What is done with listeners. -/
inductive ListenerOp where
  | add
  | remove (id : Nat)
  | broadcast (e : LogEvent)
  | close
  /-- the reader of a channel takes what it holds -/
  | take (id : Nat)
deriving DecidableEq, Repr

namespace ListenerOp

/-- Does the operation end the time of a listener? -/
def ends (id : Nat) (op : ListenerOp) : Bool := op == .remove id || op == .close

/-- The report that is broadcast. -/
def report? : ListenerOp → Option LogEvent
  | .broadcast e => some e
  | _ => none

/-- What a listener hears while operations are carried out: the reports up to the first operation
    that ends its time, and then that its channel is closed. -/
def heard (id : Nat) (ops : List ListenerOp) : List Signal :=
  ((ops.takeWhile fun op => !op.ends id).filterMap report?).map .event ++
    if ops.any (ends id) then [.closed] else []

/-- Does the operation concern a listener?  Those who start to listen, end or read besides it do
    not. -/
def concerns (id : Nat) (op : ListenerOp) : Bool := op.ends id || op.report?.isSome

/-- What an operation sends to a listener. -/
def signals (id : Nat) (op : ListenerOp) : List Signal :=
  if op.ends id then [.closed] else op.report?.toList.map .event

theorem eq_broadcast {op : ListenerOp} {e : LogEvent} (h : op.report? = some e) :
    op = .broadcast e := by
  cases op <;> simp_all [report?]

/-- Without a broadcast no report is sent. -/
theorem filterMap_signals {op : ListenerOp} (hop : op.report? = none) (id : Nat) :
    (op.signals id).filterMap Signal.event? = [] := by
  cases hends : op.ends id <;> simp [signals, hends, hop, Signal.event?]

/-- What is heard of an operation and of those that follow it. -/
theorem heard_cons (id : Nat) (op : ListenerOp) (ops : List ListenerOp) :
    heard id (op :: ops) = op.signals id ++ if op.ends id then [] else heard id ops := by
  cases hends : op.ends id with
  | true => simp [heard, signals, hends]
  | false => cases hreport : op.report? <;> simp [heard, signals, hends, hreport]

/-- Only what concerns a listener is heard. -/
theorem heard_filter_concerns (id : Nat) (ops : List ListenerOp) :
    heard id (ops.filter (concerns id)) = heard id ops := by
  induction ops with
  | nil => rfl
  | cons op ops ih =>
    cases hconcerns : op.concerns id with
    | true => rw [List.filter_cons_of_pos hconcerns, heard_cons, heard_cons, ih]
    | false =>
      obtain ⟨hends, hreport⟩ : op.ends id = false ∧ op.report? = none := by
        simpa [concerns] using hconcerns
      have hsignals : op.signals id = [] := by simp [signals, hends, hreport]
      rw [List.filter_cons_of_neg (by simp [hconcerns]), heard_cons, ih, hsignals, hends]
      rfl

end ListenerOp

/-! ### Operations -/

/-- Listeners, and what their readers have taken off the channels. -/
structure Hub where
  listeners : Listeners := {}
  taken : Nat → List Signal := fun _ => []

namespace Hub

/-- All that a channel has carried: what was taken off it, and what it still holds. -/
def carried (h : Hub) (id : Nat) : List Signal := h.taken id ++ h.listeners.channel id

/-- The reports that a channel has carried. -/
def reports (h : Hub) (id : Nat) : List LogEvent := (h.carried id).filterMap Signal.event?

/-- A reader takes what its channel holds. -/
def take (h : Hub) (id : Nat) : Hub where
  listeners := (h.listeners.take id).2
  taken := fun j => if j = id then h.taken j ++ (h.listeners.take id).1 else h.taken j

/-- A signal is sent to some listeners. -/
def send (h : Hub) (ids : List Nat) (s : Signal) : Hub :=
  { h with listeners := h.listeners.send ids s }

/-- An operation is carried out at once. -/
def step (h : Hub) : ListenerOp → Hub
  | .add => { h with listeners := h.listeners.add.2 }
  | .remove id => { h with listeners := h.listeners.remove id }
  | .broadcast e => { h with listeners := h.listeners.broadcast e }
  | .close => { h with listeners := h.listeners.close }
  | .take id => h.take id

/-- Operations are carried out at once, one after the other. -/
def run (h : Hub) (ops : List ListenerOp) : Hub := ops.foldl step h

/-- A report is sent to some listeners, to each when its channel has room.  Meanwhile readers may
    take what their channels hold. -/
inductive Sends (room : List Signal → Prop) (e : LogEvent) : List Nat → Hub → Hub → Prop
  | done (h : Hub) : Sends room e [] h h
  | send {ids : List Nat} {h h' : Hub} (id : Nat) (hid : id ∈ ids)
      (hroom : room (h.listeners.channel id))
      (hrest : Sends room e (ids.erase id) (h.send [id] (.event e)) h') : Sends room e ids h h'
  | take {ids : List Nat} {h h' : Hub} (id : Nat) (hrest : Sends room e ids (h.take id) h') :
      Sends room e ids h h'

/-- Operations one after the other, of which a broadcast sends its report in any order. -/
inductive Runs (room : List Signal → Prop) : List ListenerOp → Hub → Hub → Prop
  | nil (h : Hub) : Runs room [] h h
  | broadcast {e : LogEvent} {ops : List ListenerOp} {h h₁ h₂ : Hub}
      (hsends : Sends room e h.listeners.active h h₁) (hrest : Runs room ops h₁ h₂) :
      Runs room (.broadcast e :: ops) h h₂
  | step {op : ListenerOp} {ops : List ListenerOp} {h h₂ : Hub} (hop : op.report? = none)
      (hrest : Runs room ops (h.step op) h₂) : Runs room (op :: ops) h h₂

/-- Only open channels have a listener, and only channels that exist were read. -/
structure WellFormed (h : Hub) : Prop where
  nodup : h.listeners.active.Nodup
  bound : ∀ id ∈ h.listeners.active, id < h.listeners.channels.length
  closed : h.listeners.closed = true → h.listeners.active = []
  fresh : ∀ id, h.listeners.channels.length ≤ id → h.taken id = []

/-- All that an operation does to the channels that exist. -/
structure Effect (op : ListenerOp) (h h' : Hub) : Prop where
  wellFormed : h'.WellFormed
  length_le : h.listeners.channels.length ≤ h'.listeners.channels.length
  carried : ∀ id, id < h.listeners.channels.length →
    h'.carried id = h.carried id ++ if h.listeners.active.contains id then op.signals id else []
  active : ∀ id, id < h.listeners.channels.length →
    h'.listeners.active.contains id = (h.listeners.active.contains id && !op.ends id)
  closed : h'.listeners.closed = (h.listeners.closed || op == .close)

end Hub

/-! ### Channels -/

namespace Listeners

variable {l : Listeners} {ids : List Nat} {s : Signal} {id : Nat}

@[simp] theorem length_channels_send : (l.send ids s).channels.length = l.channels.length := by
  simp [send]

theorem channel_eq_nil (h : l.channels.length ≤ id) : l.channel id = [] := by
  rw [channel, List.getD_eq_getElem?_getD, List.getElem?_eq_none h]
  rfl

/-- A signal stands at the end of the channels that it was sent to. -/
theorem channel_send (hid : id < l.channels.length) :
    (l.send ids s).channel id = l.channel id ++ if ids.contains id then [s] else [] := by
  simp only [channel, send, List.getD_eq_getElem?_getD, List.getElem?_mapIdx,
    List.getElem?_eq_getElem hid, Option.map_some, Option.getD_some]
  split <;> simp

theorem send_nil : l.send [] s = l := by
  have hsame : l.channels.mapIdx (fun _ c => c) = l.channels := List.ext_getElem? fun i => by simp
  simp [send, hsame]

/-- A signal can be sent to one listener after the other. -/
theorem send_cons (hid : id ∉ ids) : l.send (id :: ids) s = (l.send [id] s).send ids s := by
  have hchannels : ∀ (j : Nat) (c : List Signal),
      (if (id :: ids).contains j then c ++ [s] else c) =
        if ids.contains j then (if [id].contains j then c ++ [s] else c) ++ [s]
        else if [id].contains j then c ++ [s] else c := by
    intro j c
    by_cases hj : j = id
    · simp [hj, hid]
    · simp [hj]
  simp only [send, List.mapIdx_mapIdx, hchannels]
  rfl

theorem channel_take {j : Nat} : (l.take id).2.channel j = if j = id then [] else l.channel j := by
  by_cases hj : j = id
  · subst hj
    by_cases hlength : j < l.channels.length <;>
      simp [take, channel, hlength]
  · simp [take, channel, hj, Ne.symm hj]

@[simp] theorem closed_add (l : Listeners) : l.add.2.closed = l.closed := by
  cases hclosed : l.closed <;> simp [add, hclosed]

@[simp] theorem length_channels_add (l : Listeners) :
    l.add.2.channels.length = l.channels.length + 1 := by
  cases hclosed : l.closed <;> simp [add, hclosed]

theorem active_add (l : Listeners) :
    l.add.2.active = if l.closed then l.active else l.active ++ [l.channels.length] := by
  cases hclosed : l.closed <;> simp [add, hclosed]

theorem fst_add (l : Listeners) : l.add.1 = l.channels.length := by
  cases hclosed : l.closed <;> simp [add, hclosed]

theorem channel_add_of_lt (hid : id < l.channels.length) : l.add.2.channel id = l.channel id := by
  cases hclosed : l.closed <;>
    simp [add, hclosed, channel, List.getElem?_append_left hid]

theorem channel_add_new (l : Listeners) :
    l.add.2.channel l.channels.length = if l.closed then [.closed] else [] := by
  cases hclosed : l.closed <;> simp [add, hclosed, channel]

end Listeners

namespace Hub

variable {h h' : Hub} {op : ListenerOp} {ids : List Nat} {room : List Signal → Prop} {e : LogEvent}
  {ops : List ListenerOp}

@[simp] theorem listeners_step_add : (h.step .add).listeners = h.listeners.add.2 := rfl

@[simp] theorem length_channels_take (id : Nat) :
    (h.take id).listeners.channels.length = h.listeners.channels.length := List.length_set

@[simp] theorem length_channels_sent (s : Signal) :
    (h.send ids s).listeners.channels.length = h.listeners.channels.length :=
  Listeners.length_channels_send

theorem carried_send {id : Nat} (hid : id < h.listeners.channels.length) (s : Signal) :
    (h.send ids s).carried id = h.carried id ++ if ids.contains id then [s] else [] := by
  simp only [carried, send, Listeners.channel_send hid, List.append_assoc]

/-- What a reader takes off its channel was carried all the same. -/
theorem carried_take (h : Hub) (id j : Nat) : (h.take id).carried j = h.carried j := by
  by_cases hj : j = id
  · have htaken : (h.listeners.take id).1 = h.listeners.channel id := rfl
    simp [carried, take, Listeners.channel_take, hj, htaken]
  · simp [carried, take, Listeners.channel_take, hj]

section

variable (hh : h.WellFormed)

include hh

theorem WellFormed.send (s : Signal) : (h.send ids s).WellFormed where
  nodup := hh.nodup
  bound := by
    rw [length_channels_sent]
    exact hh.bound
  closed := hh.closed
  fresh := by
    rw [length_channels_sent]
    exact hh.fresh

theorem WellFormed.take (id : Nat) : (h.take id).WellFormed where
  nodup := hh.nodup
  bound := by
    rw [length_channels_take]
    exact hh.bound
  closed := hh.closed
  fresh := fun j hj => by
    rw [length_channels_take] at hj
    have hnone : h.listeners.channel j = [] := Listeners.channel_eq_nil hj
    by_cases hid : j = id
    · subst hid
      simp [Hub.take, Listeners.take, hh.fresh j hj, hnone]
    · simp [Hub.take, hid, hh.fresh j hj]

/-! ### Effects of operations -/

theorem WellFormed.effect_take (id : Nat) : Effect (.take id) h (h.step (.take id)) where
  wellFormed := hh.take id
  length_le := Nat.le_of_eq List.length_set.symm
  carried := fun j _ => by
    have hsignals : ListenerOp.signals j (.take id) = [] := rfl
    rw [hsignals, ite_self, List.append_nil]
    exact carried_take h id j
  active := fun j _ => (Bool.and_true _).symm
  closed := (Bool.or_false _).symm

/-- One who starts to listen has a new channel, and no other channel changes. -/
theorem WellFormed.effect_add : Effect .add h (h.step .add) where
  wellFormed :=
    { nodup := by
        rw [listeners_step_add, Listeners.active_add]
        split
        · exact hh.nodup
        · refine List.nodup_append.mpr ⟨hh.nodup, List.nodup_singleton _, fun id hid j hj heq => ?_⟩
          have hlt := hh.bound id hid
          rw [List.mem_singleton.mp hj] at heq
          omega
      bound := fun id hid => by
        rw [listeners_step_add, Listeners.active_add] at hid
        rw [listeners_step_add, Listeners.length_channels_add]
        have hold := hh.bound id
        split at hid <;> grind
      closed := fun hclosed => by
        rw [listeners_step_add, Listeners.closed_add] at hclosed
        rw [listeners_step_add, Listeners.active_add, if_pos hclosed]
        exact hh.closed hclosed
      fresh := fun id hid => by
        rw [listeners_step_add, Listeners.length_channels_add] at hid
        exact hh.fresh id (by omega) }
  length_le := by simp
  carried := fun id hid => by
    have hsignals : ListenerOp.signals id .add = [] := rfl
    rw [hsignals, ite_self, List.append_nil]
    exact congrArg (h.taken id ++ ·) (Listeners.channel_add_of_lt hid)
  active := fun id hid => by
    have hends : ListenerOp.ends id .add = false := rfl
    have hnew : id ≠ h.listeners.channels.length := by omega
    rw [listeners_step_add, Listeners.active_add, hends]
    split <;> simp [hnew]
  closed := by
    rw [listeners_step_add, Listeners.closed_add]
    exact (Bool.or_false _).symm

/-- An operation that ends the time of no one who listens leaves all as it is. -/
theorem WellFormed.effect_idle (hreport : op.report? = none)
    (hends : ∀ id, h.listeners.active.contains id = true → op.ends id = false)
    (hclosed : h.listeners.closed = (h.listeners.closed || op == .close)) : Effect op h h where
  wellFormed := hh
  length_le := Nat.le_refl _
  carried := fun id _ => by
    by_cases hactive : h.listeners.active.contains id = true
    · simp [ListenerOp.signals, hends id hactive, hreport]
    · rw [if_neg hactive, List.append_nil]
  active := fun id _ => by
    cases hactive : h.listeners.active.contains id with
    | true => rw [hends id hactive]; rfl
    | false => rfl
  closed := hclosed

/-- The channels of those whose time ends are closed, and the others go on to listen. -/
theorem WellFormed.effect_ending (hreport : op.report? = none) {gone : List Nat} {closed : Bool}
    (hgone : ∀ id, gone.contains id = (h.listeners.active.contains id && op.ends id))
    (hclosed : closed = (h.listeners.closed || op == .close))
    (hempty : closed = true → h.listeners.active.filter (fun id => !op.ends id) = []) :
    Effect op h { h with listeners :=
      { h.listeners.send gone .closed with
        active := h.listeners.active.filter fun id => !op.ends id, closed } } where
  wellFormed :=
    { nodup := hh.nodup.filter _
      bound := fun id hid => (hh.send .closed).bound id (List.mem_of_mem_filter hid)
      closed := hempty
      fresh := (hh.send .closed).fresh }
  length_le := Nat.le_of_eq Listeners.length_channels_send.symm
  carried := fun id hid => by
    refine (carried_send hid .closed).trans (congrArg (h.carried id ++ ·) ?_)
    rw [hgone]
    cases hactive : h.listeners.active.contains id with
    | false => rfl
    | true => cases hends : op.ends id <;> simp [ListenerOp.signals, hends, hreport]
  active := fun id _ => by
    cases hactive : h.listeners.active.contains id <;> cases hends : op.ends id <;>
      simp_all
  closed := hclosed

/-- A listener that is removed hears that its channel is closed, once. -/
theorem WellFormed.effect_remove (id : Nat) : Effect (.remove id) h (h.step (.remove id)) := by
  have hends : ∀ j, ListenerOp.ends j (.remove id) = (j == id) := by
    intro j
    by_cases hj : j = id
    · simp [ListenerOp.ends, hj]
    · have hother : (ListenerOp.remove id == .remove j) = false :=
        beq_eq_false_iff_ne.mpr fun heq => hj (ListenerOp.remove.inj heq).symm
      rw [ListenerOp.ends, hother, beq_eq_false_iff_ne.mpr hj]
      rfl
  by_cases hactive : h.listeners.active.contains id = true
  · have hstep : h.step (.remove id) = { h with listeners :=
        { h.listeners.send [id] .closed with
          active := h.listeners.active.filter fun j => !ListenerOp.ends j (.remove id)
          closed := h.listeners.closed } } := by
      simp only [step, Listeners.remove, if_pos hactive, hends]
      rfl
    rw [hstep]
    refine hh.effect_ending rfl (fun j => ?_) (Bool.or_false _).symm fun hclosed => ?_
    · rw [hends]
      by_cases hj : j = id
      · subst hj
        rw [hactive]
        simp
      · simp [hj]
    · rw [hh.closed hclosed]
      rfl
  · have hstep : h.step (.remove id) = h := by
      simp only [step, Listeners.remove, if_neg hactive]
    rw [hstep]
    refine hh.effect_idle rfl (fun j hj => ?_) (Bool.or_false _).symm
    rw [hends]
    refine beq_eq_false_iff_ne.mpr ?_
    rintro rfl
    exact hactive hj

/-- At the close all who listen hear that their channels are closed, once. -/
theorem WellFormed.effect_close : Effect .close h (h.step .close) := by
  have hends : ∀ id, ListenerOp.ends id .close = true := fun _ => rfl
  cases hclosed : h.listeners.closed with
  | true =>
    have hstep : h.step .close = h := by simp [step, Listeners.close, hclosed]
    rw [hstep]
    refine hh.effect_idle rfl (fun id hid => ?_) (by rw [hclosed]; rfl)
    rw [hh.closed hclosed] at hid
    cases hid
  | false =>
    have hstep : h.step .close = { h with listeners :=
        { h.listeners.send h.listeners.active .closed with
          active := h.listeners.active.filter fun id => !ListenerOp.ends id .close
          closed := true } } := by
      simp [step, Listeners.close, hclosed, hends]
    rw [hstep]
    refine hh.effect_ending rfl (fun id => ?_) (by rw [hclosed]; rfl) fun _ => ?_
    · rw [hends, Bool.and_true]
    · simp [hends]

end

/-- A broadcast reaches each of those that it is sent to once, whoever comes first and whoever reads
    meanwhile. -/
theorem Sends.effect (hsends : Sends room e ids h h') (hh : h.WellFormed) (hids : ids.Nodup) :
    h'.WellFormed ∧ h'.listeners.channels.length = h.listeners.channels.length ∧
      h'.listeners.active = h.listeners.active ∧ h'.listeners.closed = h.listeners.closed ∧
      ∀ id, id < h.listeners.channels.length →
        h'.carried id = h.carried id ++ if ids.contains id then [.event e] else [] := by
  induction hsends with
  | done h => exact ⟨hh, rfl, rfl, rfl, fun id _ => (List.append_nil _).symm⟩
  | @take ids h h' id hrest ih =>
    obtain ⟨hwf, hlength, hactive, hclosed, hcarried⟩ := ih (hh.take id) hids
    rw [length_channels_take] at hlength hcarried
    refine ⟨hwf, hlength, hactive, hclosed, fun j hj => ?_⟩
    rw [hcarried j hj, carried_take]
  | @send ids h h' id hid hroom hrest ih =>
    obtain ⟨hwf, hlength, hactive, hclosed, hcarried⟩ := ih (hh.send _) (hids.erase id)
    rw [length_channels_sent] at hlength hcarried
    refine ⟨hwf, hlength, hactive, hclosed, fun j hj => ?_⟩
    rw [hcarried j hj, carried_send hj, List.append_assoc]
    refine congrArg (h.carried j ++ ·) ?_
    -- The report is sent to `id` now and to the others later.
    by_cases hj : j = id
    · subst hj
      have hgone : j ∉ ids.erase j := hids.not_mem_erase
      simp [hid, hgone]
    · simp [hj]

/-! ### Runs -/

/-- Every operation has its effect, whichever way a broadcast is sent. -/
theorem WellFormed.effect_sends (hh : h.WellFormed)
    (hsends : Sends room e h.listeners.active h h') : Effect (.broadcast e) h h' := by
  obtain ⟨hwf, hlength, hactive, hclosed, hcarried⟩ := hsends.effect hh hh.nodup
  refine ⟨hwf, Nat.le_of_eq hlength.symm, hcarried, fun id _ => ?_, ?_⟩
  · rw [hactive]
    exact (Bool.and_true _).symm
  · rw [hclosed]
    exact (Bool.or_false _).symm

theorem WellFormed.effect_step (hh : h.WellFormed) (hop : op.report? = none) :
    Effect op h (h.step op) := by
  cases op with
  | add => exact hh.effect_add
  | remove id => exact hh.effect_remove id
  | broadcast e => cases hop
  | close => exact hh.effect_close
  | take id => exact hh.effect_take id

/-- What holds after one operation and is kept by each holds after a run. -/
theorem Runs.induct {motive : List ListenerOp → Hub → Hub → Prop}
    (hruns : Runs room ops h h') (hh : h.WellFormed) (hnil : ∀ h, h.WellFormed → motive [] h h)
    (hcons : ∀ op ops h h₁ h₂, h.WellFormed → Effect op h h₁ → motive ops h₁ h₂ →
      motive (op :: ops) h h₂) :
    motive ops h h' := by
  induction hruns with
  | nil h => exact hnil h hh
  | broadcast hsends _ ih =>
    have heffect := hh.effect_sends hsends
    exact hcons _ _ _ _ _ hh heffect (ih heffect.wellFormed)
  | step hop _ ih =>
    have heffect := hh.effect_step hop
    exact hcons _ _ _ _ _ hh heffect (ih heffect.wellFormed)

section

variable (hruns : Runs room ops h h') (hh : h.WellFormed)

include hruns hh

/-- What a channel carries in a run is what its listener hears, if it listens. -/
theorem Runs.carried_eq {id : Nat} (hid : id < h.listeners.channels.length) :
    h'.carried id = h.carried id ++
      if h.listeners.active.contains id then ListenerOp.heard id ops else [] := by
  revert hid
  refine hruns.induct (motive := fun ops h h' => id < h.listeners.channels.length →
    h'.carried id = h.carried id ++
      if h.listeners.active.contains id then ListenerOp.heard id ops else [])
    hh (fun h _ _ => ?_) fun op ops h h₁ h₂ _ heffect ih hid => ?_
  · have hnothing : ListenerOp.heard id [] = [] := rfl
    rw [hnothing, ite_self, List.append_nil]
  · rw [ih (Nat.lt_of_lt_of_le hid heffect.length_le), heffect.carried id hid,
      heffect.active id hid, ListenerOp.heard_cons, List.append_assoc]
    cases h.listeners.active.contains id <;> cases op.ends id <;> simp

/-- The listeners are closed after a run if they were before or if there was a close. -/
theorem Runs.closed_eq : h'.listeners.closed = (h.listeners.closed || ops.contains .close) := by
  refine hruns.induct (motive := fun ops h h' => h'.listeners.closed =
    (h.listeners.closed || ops.contains .close))
    hh (fun h _ => ?_) fun op ops h h₁ h₂ _ heffect ih => ?_
  · exact (Bool.or_false _).symm
  · have hop : (op == .close) = (ListenerOp.close == op) := BEq.comm
    rw [ih, heffect.closed, List.contains_cons, Bool.or_assoc, hop]

theorem Runs.wellFormed : h'.WellFormed :=
  hruns.induct (motive := fun _ _ h' => h'.WellFormed) hh (fun _ hh => hh)
    fun _ _ _ _ _ _ _ ih => ih

end

theorem wellFormed_initial : ({} : Hub).WellFormed where
  nodup := List.nodup_nil
  bound := fun _ hid => absurd hid List.not_mem_nil
  closed := fun _ => rfl
  fresh := fun _ _ => rfl

/-- If each reader takes what its channel holds, a report can be sent to all. -/
theorem exists_sends (hroom : room []) (e : LogEvent) (ids : List Nat) (h : Hub) :
    ∃ h', Sends room e ids h h' := by
  induction ids generalizing h with
  | nil => exact ⟨h, .done h⟩
  | cons id ids ih =>
    obtain ⟨h', hsends⟩ := ih ((h.take id).send [id] (.event e))
    refine ⟨h', .take id (.send id List.mem_cons_self ?_ ?_)⟩
    · have hempty : (h.take id).listeners.channel id = [] := by
        show (h.listeners.take id).2.channel id = []
        rw [Listeners.channel_take, if_pos rfl]
      rwa [hempty]
    · rwa [List.erase_cons_head]

theorem exists_runs (hroom : room []) (ops : List ListenerOp) (h : Hub) :
    ∃ h', Runs room ops h h' := by
  induction ops generalizing h with
  | nil => exact ⟨h, .nil h⟩
  | cons op ops ih =>
    cases hreport : op.report? with
    | none =>
      obtain ⟨h', hrest⟩ := ih (h.step op)
      exact ⟨h', .step hreport hrest⟩
    | some e =>
      obtain rfl := ListenerOp.eq_broadcast hreport
      obtain ⟨h₁, hsends⟩ := exists_sends hroom e h.listeners.active h
      obtain ⟨h', hrest⟩ := ih h₁
      exact ⟨h', .broadcast hsends hrest⟩

/-- Where there is always room, a report can be sent to all at once. -/
theorem sends_send (hroom : ∀ c, room c) (e : LogEvent) (hids : ids.Nodup) (h : Hub) :
    Sends room e ids h (h.send ids (.event e)) := by
  induction ids generalizing h with
  | nil =>
    have hsame : h.send [] (.event e) = h := by simp only [send, Listeners.send_nil]
    rw [hsame]
    exact .done h
  | cons id ids ih =>
    obtain ⟨hid, hids⟩ := List.nodup_cons.mp hids
    have hsplit : h.send (id :: ids) (.event e) = (h.send [id] (.event e)).send ids (.event e) := by
      simp only [send, Listeners.send_cons hid]
    rw [hsplit]
    refine .send id List.mem_cons_self (hroom _) ?_
    rw [List.erase_cons_head]
    exact ih hids _

/-- Where there is always room, operations can be carried out at once. -/
theorem runs_run (hroom : ∀ c, room c) (ops : List ListenerOp) (hh : h.WellFormed) :
    Runs room ops h (h.run ops) := by
  induction ops generalizing h with
  | nil => exact .nil h
  | cons op ops ih =>
    cases hreport : op.report? with
    | none => exact .step hreport (ih (hh.effect_step hreport).wellFormed)
    | some e =>
      obtain rfl := ListenerOp.eq_broadcast hreport
      have hsends := sends_send hroom e hh.nodup h
      exact .broadcast hsends (ih (hh.effect_sends hsends).wellFormed)

/-- What one who starts to listen hears from then on. -/
theorem carried_of_added {before after : List ListenerOp} {h₀ : Hub}
    (hbefore : Runs room before {} h₀) (hafter : Runs room after (h₀.step .add) h) :
    h.carried h₀.listeners.add.1 =
      if before.contains .close then [.closed] else ListenerOp.heard h₀.listeners.add.1 after := by
  have hh := hbefore.wellFormed wellFormed_initial
  have hclosed : h₀.listeners.closed = before.contains .close :=
    hbefore.closed_eq wellFormed_initial
  have hnew : (h₀.step .add).carried h₀.listeners.channels.length =
      if h₀.listeners.closed then [.closed] else [] := by
    show h₀.taken _ ++ h₀.listeners.add.2.channel _ = _
    rw [hh.fresh _ (Nat.le_refl _), Listeners.channel_add_new]
    rfl
  have hactive : (h₀.step .add).listeners.active.contains h₀.listeners.channels.length =
      !h₀.listeners.closed := by
    have hnot : h₀.listeners.channels.length ∉ h₀.listeners.active := fun hmem =>
      Nat.lt_irrefl _ (hh.bound _ hmem)
    rw [listeners_step_add, Listeners.active_add]
    cases h₀.listeners.closed <;> simp [hnot]
  have hid : h₀.listeners.channels.length < (h₀.step .add).listeners.channels.length := by simp
  rw [Listeners.fst_add, hafter.carried_eq hh.effect_add.wellFormed hid, hnew, hactive, hclosed]
  cases before.contains .close <;> rfl

/-- Listeners hear exactly what they should, where `room` tells the channels that can hold one
    signal more. -/
structure FansOut (room : List Signal → Prop) : Prop where
  /-- operations come to an end if readers take what their channels hold -/
  completes : ∀ ops h, ∃ h', Runs room ops h h'
  /-- where there is always room, operations may be carried out at once -/
  atOnce : (∀ c, room c) → ∀ ops, Runs room ops {} (({} : Hub).run ops)
  /-- a channel carries the reports from the start of its listener to the end, and is then closed;
      after the close it is closed from the start -/
  heard : ∀ {before after : List ListenerOp} {h₀ h : Hub}, Runs room before {} h₀ →
    Runs room after (h₀.step .add) h → h.carried h₀.listeners.add.1 =
      if before.contains .close then [.closed] else ListenerOp.heard h₀.listeners.add.1 after
  /-- nothing that is done with other listeners is heard -/
  isolated : ∀ {before after after' : List ListenerOp} {h₀ h h' : Hub}, Runs room before {} h₀ →
    Runs room after (h₀.step .add) h → Runs room after' (h₀.step .add) h' →
    after.filter (ListenerOp.concerns h₀.listeners.add.1) =
      after'.filter (ListenerOp.concerns h₀.listeners.add.1) →
    h.carried h₀.listeners.add.1 = h'.carried h₀.listeners.add.1
  /-- only broadcasts change the reports that channels have carried -/
  reports : ∀ {ops : List ListenerOp} {op : ListenerOp} {h : Hub}, Runs room ops {} h →
    op.report? = none →
    ∀ id, id < h.listeners.channels.length → (h.step op).reports id = h.reports id

end Hub

/-- Whatever is done with listeners in whatever order, each hears the reports between its start and
    its end, once and in order, and then that its channel is closed, once.  How much a channel can
    hold and who is served first does not matter.  That operations come to an end supposes readers
    who take what their channels hold: a full channel that nobody reads blocks the broadcast. -/
theorem listeners_fan_out {room : List Signal → Prop} (hroom : room []) : Hub.FansOut room where
  completes := Hub.exists_runs hroom
  atOnce := fun hall ops => Hub.runs_run hall ops Hub.wellFormed_initial
  heard := Hub.carried_of_added
  isolated := fun hbefore hafter hafter' hsame => by
    rw [Hub.carried_of_added hbefore hafter, Hub.carried_of_added hbefore hafter',
      ← ListenerOp.heard_filter_concerns, hsame, ListenerOp.heard_filter_concerns]
  reports := fun hops hop id hid => by
    have heffect := (hops.wellFormed Hub.wellFormed_initial).effect_step hop
    rw [Hub.reports, heffect.carried id hid, List.filterMap_append]
    split
    · rw [ListenerOp.filterMap_signals hop, List.append_nil]
      rfl
    · exact List.append_nil _

/-- A listener between two broadcasts that is removed twice before the close, on channels of 256
    signals. -/
def removedTwice : List ListenerOp :=
  [.broadcast ⟨"mcfd", "a"⟩, .add, .remove 0, .remove 0, .broadcast ⟨"mcfd", "b"⟩, .close,
    .remove 0]

/-- The listener hears the first report alone, and its channel is closed once.  The one that starts
    after it hears the second report. -/
theorem removedTwice_fans_out :
    Hub.FansOut (fun c => c.length < 256) ∧
    (∃ h, Hub.Runs (fun c => c.length < 256) removedTwice (({} : Hub).step .add) h ∧
      h.carried 0 = [.event ⟨"mcfd", "a"⟩, .closed]) ∧
    (({} : Hub).run (.add :: removedTwice)).carried 1 = [.event ⟨"mcfd", "b"⟩, .closed] := by
  have hfans : Hub.FansOut fun c => c.length < 256 := listeners_fan_out (by decide)
  obtain ⟨h, hruns⟩ := hfans.completes removedTwice (({} : Hub).step .add)
  exact ⟨hfans, ⟨h, hruns, (hfans.heard (.nil _) hruns).trans (by decide)⟩, by decide⟩

end DatapackDebug
