import Hitz.Daemon.PortForwarding
import Hitz.Lib.Runs

/-!
# Relay tasks (`hitz-daemon/src/port_forward.rs`)

A listener task accepts a connection, adds 1 to `relays_active`, spawns a relay task, and then waits
for the lock of `relay_handles` to put the handle there.  The relay task connects to the guest,
copies, and adds -1 when it is done.  Dropping the manager aborts the listener tasks and, if it gets
the lock, the relay tasks whose handles are there; an aborted task ends at an await point, without
another line of its code.

`gauge_tracks_iff`: `relays_active` is the number of live relay tasks all along a run exactly when
no relay task is cut by its abort.
-/

namespace Hitz.Daemon

open Api Runs

/-- Where a listener task is; `registering k` waits for the lock with the handle of relay `k`. -/
inductive ListenerPhase
  | accepting
  | registering (relay : ℕ)
  | cancelled
  deriving DecidableEq, Repr

/-- The handle that the task wants to register. -/
def ListenerPhase.handle : ListenerPhase → Option ℕ
  | registering relay => some relay
  | accepting | cancelled => none

structure ListenerTask where
  hostPort : UInt16
  phase : ListenerPhase
  deriving DecidableEq, Repr

/-- Where a relay task is: at one of its two await points, at its end, or cut at an await point. -/
inductive RelayPhase
  | connecting
  | copying
  | done
  | cancelled
  deriving DecidableEq, Repr

/-- The task has not ended. -/
def RelayPhase.live : RelayPhase → Bool
  | connecting | copying => true
  | done | cancelled => false

theorem RelayPhase.ne_cancelled {phase : RelayPhase} (hlive : phase.live) : phase ≠ .cancelled := by
  intro heq
  rw [heq] at hlive
  exact absurd hlive (by decide)

structure RelayTask where
  hostPort : UInt16
  phase : RelayPhase
  deriving DecidableEq, Repr

/-- The manager with its tasks.  Relay tasks are numbered as they are spawned; `relayHandles` are
the registered ones, and `aborted` the ones whose abort is requested.  The listener tasks are
aborted all together, when the manager is dropped. -/
structure PortForwardManager where
  handles : List ListenerTask
  relayHandles : List ℕ := []
  relays : List RelayTask := []
  aborted : List ℕ := []
  dropped : Bool := false
  /-- The sum of the values added to `relays_active` for a host port. -/
  relaysActive : UInt16 → ℤ := 0

/-- What happens next.  An error of `accept` changes nothing. -/
inductive RelayEvent
  | accept (listener : ℕ)
  | register (listener : ℕ)
  | cancelListener (listener : ℕ)
  | connected (relay : ℕ)
  | connectFailed (relay : ℕ)
  | copied (relay : ℕ)
  | cancelRelay (relay : ℕ)
  | drop (locked : Bool)
  deriving DecidableEq, Repr

namespace PortForwardManager

/-- What `start` leaves running: a listener task for each rule whose port can be bound. -/
def start (bind : UInt16 → Bool) (guestIp : Vector UInt8 4) (rules : List PortForward) :
    PortForwardManager :=
  { handles := (startRelays bind guestIp rules).map fun rule => ⟨rule.hostPort, .accepting⟩ }

variable (m : PortForwardManager)

/-- `relays_active.add`. -/
def add (hostPort : UInt16) (value : ℤ) : PortForwardManager :=
  { m with
    relaysActive := Function.update m.relaysActive hostPort (m.relaysActive hostPort + value) }

/-- Listener `i` goes on, if the condition holds of it. -/
def onListener (i : ℕ) (cond : ListenerTask → Bool)
    (next : ListenerTask → PortForwardManager) : PortForwardManager :=
  match m.handles[i]? with
  | some l => if cond l then next l else m
  | none => m

/-- Relay `k` goes on, if the condition holds of it. -/
def onRelay (k : ℕ) (cond : RelayTask → Bool) (next : RelayTask → PortForwardManager) :
    PortForwardManager :=
  match m.relays[k]? with
  | some r => if cond r then next r else m
  | none => m

/-- Listener `i` is where the phase says. -/
def listen (i : ℕ) (l : ListenerTask) (phase : ListenerPhase) : PortForwardManager :=
  { m with handles := m.handles.set i { l with phase } }

/-- Relay `k` is where the phase says. -/
def relay (k : ℕ) (r : RelayTask) (phase : RelayPhase) : PortForwardManager :=
  { m with relays := m.relays.set k { r with phase } }

/-- A connection is accepted: the counter goes up and the relay task is spawned. -/
def spawn (hostPort : UInt16) : PortForwardManager :=
  { m.add hostPort 1 with relays := m.relays ++ [⟨hostPort, .connecting⟩] }

/-- A relay task is done: the counter goes down. -/
def finish (k : ℕ) (r : RelayTask) : PortForwardManager :=
  (m.relay k r .done).add r.hostPort (-1)

/-- One step.  An event that cannot happen changes nothing; `try_lock` can fail only while a
listener task is at the lock. -/
def step : RelayEvent → PortForwardManager
  | .accept i =>
    m.onListener i (fun l => l.phase = .accepting) fun l =>
      (m.spawn l.hostPort).listen i l (.registering m.relays.length)
  | .register i =>
    m.onListener i (fun l => l.phase.handle.isSome) fun l =>
      { m.listen i l .accepting with relayHandles := m.relayHandles ++ l.phase.handle.toList }
  | .cancelListener i => m.onListener i (fun _ => m.dropped) fun l => m.listen i l .cancelled
  | .connected k => m.onRelay k (fun r => r.phase = .connecting) fun r => m.relay k r .copying
  | .connectFailed k => m.onRelay k (fun r => r.phase = .connecting) fun r => m.finish k r
  | .copied k => m.onRelay k (fun r => r.phase = .copying) fun r => m.finish k r
  | .cancelRelay k =>
    m.onRelay k (fun r => decide (k ∈ m.aborted) && r.phase.live) fun r => m.relay k r .cancelled
  | .drop locked =>
    if m.dropped then m
    else if locked then { m with dropped := true, aborted := m.relayHandles, relayHandles := [] }
    else if m.handles.any fun l => l.phase.handle.isSome then { m with dropped := true }
    else m

/-! ### The gauge -/

/-- The number of live relay tasks for a host port. -/
def running (port : UInt16) : ℕ := m.relays.countP fun r => r.hostPort = port && r.phase.live

/-- The number of relay tasks for a host port that were cut. -/
def cut (port : UInt16) : ℕ :=
  m.relays.countP fun r => r.hostPort = port && r.phase = .cancelled

/-- All tasks have ended. -/
def Ended : Prop :=
  (∀ l ∈ m.handles, l.phase = .cancelled) ∧ ∀ r ∈ m.relays, r.phase.live = false

/-- The gauge of each port is the number of its live relay tasks. -/
structure GaugeTracks : Prop where
  live : ∀ port, m.relaysActive port = m.running port
  zero : m.dropped = true → m.Ended → ∀ port, m.relaysActive port = 0

/-- The event does not cut a live relay task. -/
def Uncut (e : RelayEvent) : Prop :=
  ∀ k r, e = .cancelRelay k → m.relays[k]? = some r → k ∈ m.aborted → r.phase.live = false

/-- What the additions add up to: every relay task that has not added its -1. -/
def Inv : Prop := ∀ port, m.relaysActive port = m.running port + m.cut port

variable {m}

theorem countP_set_relay {relays : List RelayTask} {k : ℕ} {r : RelayTask}
    (h : relays[k]? = some r) (r' : RelayTask) (p : RelayTask → Bool) :
    (relays.set k r').countP p + (if p r then 1 else 0) =
      relays.countP p + (if p r' then 1 else 0) := by
  obtain ⟨hlt, rfl⟩ := List.getElem?_eq_some_iff.1 h
  have hle := List.boole_getElem_le_countP (p := p) hlt
  rw [List.countP_set hlt]
  omega

variable {k : ℕ} {r : RelayTask} {phase : RelayPhase}

/-- A task that goes on and stays alive changes no number. -/
theorem running_relay_live (h : m.relays[k]? = some r) (hlive : r.phase.live) (hphase : phase.live)
    (port : UInt16) : (m.relay k r phase).running port = m.running port := by
  have hcount := countP_set_relay h { r with phase } fun r => r.hostPort = port && r.phase.live
  simp only [hlive, hphase] at hcount
  exact Nat.add_right_cancel hcount

/-- A task that ends is not counted any more. -/
theorem running_relay_ended (h : m.relays[k]? = some r) (hlive : r.phase.live)
    (hphase : phase.live = false) (port : UInt16) :
    (m.relay k r phase).running port + (if r.hostPort = port then 1 else 0) = m.running port := by
  have hcount := countP_set_relay h { r with phase } fun r => r.hostPort = port && r.phase.live
  simpa [running, relay, hlive, hphase] using hcount

theorem cut_relay (h : m.relays[k]? = some r) (hlive : r.phase.live) (port : UInt16) :
    (m.relay k r phase).cut port =
      m.cut port + (if r.hostPort = port ∧ phase = .cancelled then 1 else 0) := by
  have hcount := countP_set_relay h { r with phase } fun r =>
    r.hostPort = port && r.phase = .cancelled
  simpa [cut, relay, RelayPhase.ne_cancelled hlive] using hcount

/-- Only a cancelled task is cut. -/
theorem cut_relay_of_ne (h : m.relays[k]? = some r) (hlive : r.phase.live)
    (hne : phase ≠ .cancelled) (port : UInt16) : (m.relay k r phase).cut port = m.cut port := by
  rw [cut_relay h hlive, if_neg fun hand => hne hand.2, add_zero]

theorem cut_spawn (hostPort port : UInt16) : (m.spawn hostPort).cut port = m.cut port := by
  simp [cut, spawn]

theorem running_spawn (hostPort port : UInt16) :
    (m.spawn hostPort).running port = m.running port + (if hostPort = port then 1 else 0) := by
  simp [running, spawn, RelayPhase.live]

theorem relaysActive_add (port hostPort : UInt16) (value : ℤ) :
    (m.add hostPort value).relaysActive port =
      m.relaysActive port + (if hostPort = port then value else 0) := by
  show Function.update m.relaysActive hostPort (m.relaysActive hostPort + value) port = _
  by_cases hport : hostPort = port
  · subst hport
    rw [Function.update_self, if_pos rfl]
  · rw [Function.update_of_ne (Ne.symm hport), if_neg hport, add_zero]

/-! ### The invariant -/

theorem inv_start (bind : UInt16 → Bool) (guestIp : Vector UInt8 4) (rules : List PortForward) :
    (start bind guestIp rules).Inv := fun _ => rfl

/-- The new task is counted, and the counter goes up. -/
theorem Inv.spawn (hi : m.Inv) (hostPort : UInt16) : (m.spawn hostPort).Inv := by
  intro port
  calc
    (m.spawn hostPort).relaysActive port
        = m.relaysActive port + (if hostPort = port then 1 else 0) :=
      relaysActive_add port hostPort 1
    _ = (m.spawn hostPort).running port + (m.spawn hostPort).cut port := by
      rw [hi port, running_spawn, cut_spawn]
      push_cast
      ring

theorem Inv.connected (hi : m.Inv) (h : m.relays[k]? = some r) (hlive : r.phase.live)
    (hphase : phase.live) : (m.relay k r phase).Inv := by
  intro port
  rw [running_relay_live h hlive hphase,
    cut_relay_of_ne h hlive (RelayPhase.ne_cancelled hphase)]
  exact hi port

/-- A task that is done adds its -1. -/
theorem Inv.done (hi : m.Inv) (h : m.relays[k]? = some r) (hlive : r.phase.live) :
    (m.finish k r).Inv := by
  intro port
  have hrun : (m.relay k r .done).running port + (if r.hostPort = port then 1 else 0) =
      m.running port := running_relay_ended h hlive rfl port
  have hcut : (m.relay k r .done).cut port = m.cut port :=
    cut_relay_of_ne h hlive (by decide) port
  calc
    (m.finish k r).relaysActive port
        = m.relaysActive port + (if r.hostPort = port then -1 else 0) :=
      relaysActive_add (m := m.relay k r .done) port r.hostPort (-1)
    _ = (m.relay k r .done).running port + (m.relay k r .done).cut port := by
      rw [hi port, ← hrun, hcut]
      split_ifs <;> push_cast <;> ring

/-- A task that is cut is counted apart from now on. -/
theorem Inv.cancel (hi : m.Inv) (h : m.relays[k]? = some r) (hlive : r.phase.live) :
    (m.relay k r .cancelled).Inv := by
  intro port
  have hrun : (m.relay k r .cancelled).running port + (if r.hostPort = port then 1 else 0) =
      m.running port := running_relay_ended h hlive rfl port
  have hcut : (m.relay k r .cancelled).cut port =
      m.cut port + (if r.hostPort = port then 1 else 0) := by
    rw [cut_relay h hlive]
    simp only [and_true]
  calc
    (m.relay k r .cancelled).relaysActive port = m.running port + m.cut port := hi port
    _ = (m.relay k r .cancelled).running port + (m.relay k r .cancelled).cut port := by
      rw [hcut, ← hrun]
      push_cast
      ring

/-! ### Steps -/

/-- The relay tasks and the counter are as in `m`. -/
structure SameRelays (m m' : PortForwardManager) : Prop where
  relays : m'.relays = m.relays
  relaysActive : m'.relaysActive = m.relaysActive

theorem SameRelays.running {m' : PortForwardManager} (h : m.SameRelays m') (port : UInt16) :
    m'.running port = m.running port := by
  rw [PortForwardManager.running, h.relays]
  rfl

theorem SameRelays.cut {m' : PortForwardManager} (h : m.SameRelays m') (port : UInt16) :
    m'.cut port = m.cut port := by
  rw [PortForwardManager.cut, h.relays]
  rfl

theorem SameRelays.inv {m' : PortForwardManager} (h : m.SameRelays m') (hi : m.Inv) : m'.Inv := by
  intro port
  rw [h.relaysActive, h.running, h.cut]
  exact hi port

/-- What an event does to the relay tasks and the counter. -/
inductive Effect (m : PortForwardManager) (e : RelayEvent) (m' : PortForwardManager) : Prop
  | none (uncut : m.Uncut e) (same : m.SameRelays m')
  | spawned (port : UInt16) (uncut : m.Uncut e) (same : (m.spawn port).SameRelays m')
  | connected (k : ℕ) (r : RelayTask) (phase : RelayPhase) (uncut : m.Uncut e)
      (task : m.relays[k]? = some r) (live : r.phase.live) (goesOn : phase.live)
      (same : (m.relay k r phase).SameRelays m')
  | done (k : ℕ) (r : RelayTask) (uncut : m.Uncut e) (task : m.relays[k]? = some r)
      (live : r.phase.live) (same : (m.finish k r).SameRelays m')
  | cut (k : ℕ) (r : RelayTask) (cuts : ¬m.Uncut e) (task : m.relays[k]? = some r)
      (live : r.phase.live) (same : (m.relay k r .cancelled).SameRelays m')

theorem uncut_of_ne {e : RelayEvent} (h : ∀ k, e ≠ .cancelRelay k) : m.Uncut e :=
  fun k _ heq => absurd heq (h k)

section Effects

variable {e : RelayEvent}

theorem effect_onListener {i : ℕ} {cond : ListenerTask → Bool}
    {next : ListenerTask → PortForwardManager} (uncut : m.Uncut e)
    (h : ∀ l, Effect m e (next l)) : Effect m e (m.onListener i cond next) := by
  rw [onListener]
  split
  · split_ifs
    · exact h _
    · exact .none uncut ⟨rfl, rfl⟩
  · exact .none uncut ⟨rfl, rfl⟩

theorem effect_onRelay {cond : RelayTask → Bool} {next : RelayTask → PortForwardManager}
    (uncut : m.Uncut e)
    (h : ∀ r, m.relays[k]? = some r → cond r → Effect m e (next r)) :
    Effect m e (m.onRelay k cond next) := by
  rw [onRelay]
  split
  · rename_i r hr
    split_ifs with hcond
    · exact h r hr hcond
    · exact .none uncut ⟨rfl, rfl⟩
  · exact .none uncut ⟨rfl, rfl⟩

/-- The abort of a task that is still alive cuts it, and any other abort changes nothing. -/
theorem effect_cancelRelay (m : PortForwardManager) (k : ℕ) :
    Effect m (.cancelRelay k) (m.step (.cancelRelay k)) := by
  rw [step, onRelay]
  split
  · rename_i r hr
    split_ifs with habort
    · rw [Bool.and_eq_true, decide_eq_true_iff] at habort
      refine .cut k r (fun h => ?_) hr habort.2 ⟨rfl, rfl⟩
      exact Bool.false_ne_true ((h k r rfl hr habort.1).symm.trans habort.2)
    · rw [Bool.and_eq_true, decide_eq_true_iff] at habort
      refine .none (fun k' r' heq hr' hmem => ?_) ⟨rfl, rfl⟩
      cases heq
      cases hr.symm.trans hr'
      exact Bool.eq_false_iff.2 fun hlive => habort ⟨hmem, hlive⟩
  · rename_i hnone
    refine .none (fun k' r' heq hr' => ?_) ⟨rfl, rfl⟩
    cases heq
    cases hnone.symm.trans hr'

/-- Every event has one of these effects. -/
theorem effect_step (m : PortForwardManager) (e : RelayEvent) : Effect m e (m.step e) := by
  cases e with
  | accept i =>
    have hcut : m.Uncut (.accept i) := uncut_of_ne (by simp)
    exact effect_onListener hcut fun l => .spawned l.hostPort hcut ⟨rfl, rfl⟩
  | register i =>
    have hcut : m.Uncut (.register i) := uncut_of_ne (by simp)
    exact effect_onListener hcut fun _ => .none hcut ⟨rfl, rfl⟩
  | cancelListener i =>
    have hcut : m.Uncut (.cancelListener i) := uncut_of_ne (by simp)
    exact effect_onListener hcut fun _ => .none hcut ⟨rfl, rfl⟩
  | connected k =>
    have hcut : m.Uncut (.connected k) := uncut_of_ne (by simp)
    refine effect_onRelay hcut fun r hr hphase => ?_
    exact .connected k r .copying hcut hr (by rw [of_decide_eq_true hphase]; rfl) rfl ⟨rfl, rfl⟩
  | connectFailed k =>
    have hcut : m.Uncut (.connectFailed k) := uncut_of_ne (by simp)
    refine effect_onRelay hcut fun r hr hphase => ?_
    exact .done k r hcut hr (by rw [of_decide_eq_true hphase]; rfl) ⟨rfl, rfl⟩
  | copied k =>
    have hcut : m.Uncut (.copied k) := uncut_of_ne (by simp)
    refine effect_onRelay hcut fun r hr hphase => ?_
    exact .done k r hcut hr (by rw [of_decide_eq_true hphase]; rfl) ⟨rfl, rfl⟩
  | cancelRelay k => exact effect_cancelRelay m k
  | drop locked =>
    have hcut : m.Uncut (.drop locked) := uncut_of_ne (by simp)
    rw [step]
    split_ifs
    · exact .none hcut ⟨rfl, rfl⟩
    · exact .none hcut ⟨rfl, rfl⟩
    · exact .none hcut ⟨rfl, rfl⟩
    · exact .none hcut ⟨rfl, rfl⟩

end Effects

theorem Inv.step (hi : m.Inv) (e : RelayEvent) : (m.step e).Inv := by
  cases effect_step m e with
  | none _ same => exact same.inv hi
  | spawned port _ same => exact same.inv (hi.spawn port)
  | connected _ _ _ _ task live goesOn same => exact same.inv (hi.connected task live goesOn)
  | done _ _ _ task live same => exact same.inv (hi.done task live)
  | cut _ _ _ task live same => exact same.inv (hi.cancel task live)

/-- In every run, the gauge exceeds the number of live relay tasks by the number of those that were
cut. -/
theorem gauge_eq_running_add_cut (bind : UInt16 → Bool) (guestIp : Vector UInt8 4)
    (rules : List PortForward) (events : List RelayEvent) :
    Always step (start bind guestIp rules) Inv events :=
  always_of_step (inv_start bind guestIp rules) fun _ e hi => hi.step e

/-- Where nothing was cut, nothing is exactly if the event cuts nothing. -/
theorem cut_step_iff (hnone : ∀ port, m.cut port = 0) (e : RelayEvent) :
    (∀ port, (m.step e).cut port = 0) ↔ m.Uncut e := by
  cases effect_step m e with
  | none uncut same =>
    refine iff_of_true (fun port => ?_) uncut
    rw [same.cut, hnone]
  | spawned hostPort uncut same =>
    refine iff_of_true (fun port => ?_) uncut
    rw [same.cut, cut_spawn, hnone]
  | connected k r phase uncut task live goesOn same =>
    refine iff_of_true (fun port => ?_) uncut
    rw [same.cut, cut_relay_of_ne task live (RelayPhase.ne_cancelled goesOn), hnone]
  | done k r uncut task live same =>
    refine iff_of_true (fun port => ?_) uncut
    have hcut : (m.relay k r .done).cut port = m.cut port :=
      cut_relay_of_ne task live (by decide) port
    exact (same.cut port).trans (hcut.trans (hnone port))
  | cut k r cuts task live same =>
    refine iff_of_false (fun hzero => ?_) cuts
    have hport := hzero r.hostPort
    rw [same.cut, cut_relay task live, if_pos ⟨rfl, rfl⟩] at hport
    exact absurd hport (Nat.succ_ne_zero _)

theorem running_of_ended (h : m.Ended) (port : UInt16) : m.running port = 0 := by
  refine List.countP_eq_zero.2 fun r hr => ?_
  rw [h.2 r hr, Bool.and_false]
  exact Bool.false_ne_true

/-- Under the invariant, the gauge is right exactly if nothing was cut. -/
theorem Inv.gaugeTracks_iff (hi : m.Inv) : m.GaugeTracks ↔ ∀ port, m.cut port = 0 := by
  constructor
  · intro h port
    have hlive := h.live port
    have hport := hi port
    omega
  · intro h
    have hlive : ∀ port, m.relaysActive port = m.running port := by
      intro port
      rw [hi port, h port, Nat.cast_zero, add_zero]
    refine ⟨hlive, fun _ hended port => ?_⟩
    rw [hlive, running_of_ended hended, Nat.cast_zero]

/-- **The gauge tracks the live relay tasks** all along a run exactly when no relay task is cut. -/
theorem gauge_tracks_iff (bind : UInt16 → Bool) (guestIp : Vector UInt8 4)
    (rules : List PortForward) (events : List RelayEvent) :
    Always step (start bind guestIp rules) GaugeTracks events ↔
      EachStep step (start bind guestIp rules) Uncut events := by
  have hstart := inv_start bind guestIp rules
  have hkeep (m : PortForwardManager) (e : RelayEvent) (h : m.Inv ∧ ∀ port, m.cut port = 0) :
      (m.step e).GaugeTracks ↔ m.Uncut e :=
    (h.1.step e).gaugeTracks_iff.trans (cut_step_iff h.2 e)
  refine always_iff_of_inv (P := fun m => m.Inv ∧ ∀ port, m.cut port = 0) ⟨hstart, fun _ => rfl⟩
    (fun m h => h.1.gaugeTracks_iff.2 h.2) (fun m e h huncut => ?_)
    (fun m e h => (hkeep m e h).1) events
  exact ⟨h.1.step e, (cut_step_iff h.2 e).2 huncut⟩

/-- A connection that is open when the manager is dropped stays in the gauge. -/
theorem dropped_connection_stays :
    ¬ ∀ (bind : UInt16 → Bool) (guestIp : Vector UInt8 4) (rules : List PortForward)
      (events : List RelayEvent), Always step (start bind guestIp rules) GaugeTracks events := by
  intro h
  have htracks := h (fun _ => true) ⟨#[10, 0, 0, 2], rfl⟩ [⟨8080, 80⟩]
    [.accept 0, .register 0, .connected 0, .drop true, .cancelListener 0, .cancelRelay 0]
    _ [] (List.append_nil _).symm
  exact absurd (htracks.live 8080) (by decide)

end PortForwardManager

end Hitz.Daemon
