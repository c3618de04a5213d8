import Hitz.Daemon.Lifecycle

/-!
# Restarting a VM (`VmManager::restart_vm`)

`restart_vm` raises the stop flag, waits until the exit task has made its update, and calls
`start_vm`.  The exit task leaves the entry `Stopped` or `Failed`; `start_vm` accepts `Created`
only.

* `Effect m m' q id`: what a step of the operation `q` does to the other operations, to the replies
  and to an entry that has once been started;
* `Restarting`: the invariant of a run that begins with the call of `restart_vm`;
* `restart_never_restarts`: no such run restarts the VM, whichever way the VM exits.
-/

namespace Hitz.Daemon

open Api

namespace Manager

/-- The replies that the client of the operation `p` has had. -/
def answers (m : Manager) (p : ℕ) : List Reply :=
  m.replies.filterMap fun r => if r.1 = p then some r.2 else none

/-- The step takes the VM out of the map: its deletion, or the end of a creation whose store call
failed. -/
def Removes (m : Manager) (id : String) : Event → Prop
  | .call _ (.delete id') _ => id' = id
  | .lock q _ => ∃ e, m.ops q = some (.rollback id e)
  | _ => False

/-- No step of the run takes the VM out of the map. -/
def Keeps (m : Manager) (id : String) : List Event → Prop
  | [] => True
  | event :: events => ¬m.Removes id event ∧ ∀ m', m.step event = some m' → m'.Keeps id events

/-- What `restart_vm` is for: it returns `Ok`, and the VM runs under a new task, with the
configuration it had. -/
def Restarted (m m' : Manager) (p : ℕ) (id : String) (entry : VmEntry) : Prop :=
  (∃ info, Except.ok (some info) ∈ (m'.answers p).drop (m.answers p).length) ∧
    ∃ e, m'.vms.lookup id = some e ∧ e.state = .running ∧ e.config = entry.config ∧
      e.stopFlag ≠ entry.stopFlag

/-- The error of a `restart_vm` that gives up waiting. -/
def gaveUp (id : String) : DaemonError :=
  .internal ("VM " ++ id ++ " failed to stop within 5 seconds for restart")

/-! ### One step -/

/-- What a step of the operation `q` does to the other operations and to the replies, and that it
leaves a VM that has been started as it is, or makes its exit update. -/
structure Effect (m m' : Manager) (q : ℕ) (id : String) : Prop where
  ops : ∀ r, r ≠ q → m'.ops r = m.ops r
  replies : ∃ new : List Reply, m'.replies = m.replies ++ new.map fun r => (q, r)
  lookup : ∀ e, m.vms.lookup id = some e → e.state ≠ .created →
    m'.vms.lookup id = some e ∨ ∃ result, m'.vms.lookup id = some (Life.exitedEntry e result)

section Effect

variable {m m' : Manager} {q : ℕ} {id : String}

/-- The operation goes on or ends without an answer. -/
theorem Effect.silent (op : Option Op) (hops : m'.ops = Function.update m.ops q op)
    (hreplies : m'.replies = m.replies) (hlookup : ∀ e, m.vms.lookup id = some e →
      e.state ≠ .created → m'.vms.lookup id = some e ∨
        ∃ result, m'.vms.lookup id = some (Life.exitedEntry e result)) : Effect m m' q id := by
  refine ⟨fun r hr => ?_, ⟨[], ?_⟩, hlookup⟩
  · rw [hops, Function.update_of_ne hr]
  · rw [hreplies, List.map_nil, List.append_nil]

/-- The operation ends with an answer and leaves the VMs alone. -/
theorem Effect.answered (r : Reply) (hops : ∀ p, p ≠ q → m'.ops p = m.ops p)
    (hreplies : m'.replies = m.replies ++ [(q, r)]) (hvms : m'.vms = m.vms) :
    Effect m m' q id :=
  ⟨hops, ⟨[r], hreplies⟩, fun e he _ => Or.inl (by rw [hvms, he])⟩

/-- The operation is over, with an answer, and leaves the VMs alone. -/
theorem Effect.over (r : Reply) (hops : m'.ops = Function.update m.ops q none)
    (hreplies : m'.replies = m.replies ++ [(q, r)]) (hvms : m'.vms = m.vms) :
    Effect m m' q id :=
  Effect.answered r (fun p hp => by rw [hops, Function.update_of_ne hp]) hreplies hvms

/-- A new entry takes no place of a VM. -/
theorem lookup_insert_of_absent {vms : AList fun _ : String => VmEntry} {id' : String}
    {entry e : VmEntry} (hnone : vms.lookup id' = none) (he : vms.lookup id = some e) :
    (vms.insert id' entry).lookup id = some e := by
  have hne : id ≠ id' := by
    rintro rfl
    rw [hnone] at he
    cases he
  rw [AList.lookup_insert_ne hne, he]

theorem effect_createVm (files : String → Bool) (id' : String) (config : VmConfig) :
    Effect m (m.createVm q files id' config) q id := by
  unfold createVm createLock
  split_ifs
  · exact Effect.over _ rfl rfl rfl
  split
  · exact Effect.over _ rfl rfl rfl
  cases hid : m.vms.lookup id' with
  | some entry => exact Effect.over _ rfl rfl rfl
  | none =>
    exact Effect.silent _ rfl rfl fun e he _ => Or.inl (lookup_insert_of_absent hid he)

theorem effect_startVm (id' : String) : Effect m (m.startVm q id') q id := by
  unfold startVm startLock
  cases hid : m.vms.lookup id' with
  | none => exact Effect.over _ rfl rfl rfl
  | some entry =>
    by_cases hstate : entry.state = .created
    · simp only [hstate, ne_eq, not_true_eq_false, if_false]
      refine Effect.silent _ rfl rfl fun e he hne => Or.inl ?_
      -- the entry that is started is another one
      have hid' : id ≠ id' := by
        rintro rfl
        obtain rfl := Option.some.inj (hid.symm.trans he)
        exact hne hstate
      exact (AList.lookup_insert_ne hid').trans he
    · simp only [ne_eq, hstate, not_false_eq_true, if_true]
      exact Effect.over _ rfl rfl rfl

theorem effect_call (hop : m.ops q = none) {files : String → Bool} {request : Request}
    (hkeep : ¬m.Removes id (.call q request files)) : Effect m (m.call q files request) q id := by
  have hidle : Function.update m.ops q none = m.ops := by rw [← hop, Function.update_eq_self]
  cases request with
  | create id' config => exact effect_createVm files id' config
  | clone src dest =>
    simp only [call, getVm]
    cases hid : m.vms.lookup src with
    | none => exact Effect.answered _ (fun _ _ => rfl) rfl rfl
    | some entry => exact Effect.silent _ rfl rfl fun e he _ => Or.inl he
  | start id' => exact effect_startVm id'
  | stop id' =>
    simp only [call, stopLock]
    cases hid : m.vms.lookup id' with
    | none => exact Effect.answered _ (fun _ _ => rfl) rfl rfl
    | some entry =>
      dsimp only
      split_ifs
      · exact Effect.answered _ (fun _ _ => rfl) rfl rfl
      · rw [raiseFlag_eq]
        exact Effect.answered _ (fun _ _ => rfl) rfl rfl
  | restart id' =>
    simp only [call, stopLock]
    cases hid : m.vms.lookup id' with
    | none => exact Effect.answered _ (fun _ _ => rfl) rfl rfl
    | some entry =>
      dsimp only
      split_ifs
      · exact Effect.answered _ (fun _ _ => rfl) rfl rfl
      · rw [raiseFlag_eq]
        exact Effect.silent _ rfl rfl fun e he _ => Or.inl he
  | delete id' =>
    simp only [call, deleteLock]
    cases hid : m.vms.lookup id' with
    | none => exact Effect.answered _ (fun _ _ => rfl) rfl rfl
    | some entry =>
      dsimp only
      split_ifs
      · exact Effect.answered _ (fun _ _ => rfl) rfl rfl
      · exact Effect.silent _ rfl rfl fun e he _ =>
          Or.inl ((AList.lookup_erase_ne (Ne.symm hkeep)).trans he)
  | stopAll =>
    simp only [call, stopAll_eq]
    exact Effect.silent none hidle.symm rfl fun e he _ => Or.inl he

theorem effect_poll (id' : String) (polls : ℕ) : Effect m (m.poll q id' polls) q id := by
  unfold poll getVm
  cases hid : m.vms.lookup id' with
  | none => exact Effect.over _ rfl rfl rfl
  | some entry =>
    dsimp only
    split_ifs
    · exact Effect.silent _ rfl rfl fun e he _ => Or.inl he
    · cases polls with
      | zero => exact Effect.over _ rfl rfl rfl
      | succ polls => exact Effect.silent _ rfl rfl fun e he _ => Or.inl he

theorem effect_lockSection {files : String → Bool} {op : Op} (hop : m.ops q = some op)
    (hkeep : ¬m.Removes id (.lock q files)) (h : m.lockSection q files op = some m') :
    Effect m m' q id := by
  cases op with
  | cloneCreate dest config =>
    cases h
    exact effect_createVm files dest config
  | rollback id' e =>
    cases h
    have hne : id ≠ id' := by
      rintro rfl
      exact hkeep ⟨e, hop⟩
    exact ⟨fun r hr => Function.update_of_ne hr .., ⟨[.error e], rfl⟩, fun e he _ =>
      Or.inl ((AList.lookup_erase_ne hne).trans he)⟩
  | exitUpdate task result =>
    simp only [lockSection, exitLock] at h
    cases hid : m.vms.lookup task.id with
    | none =>
      rw [hid] at h
      cases h
      exact Effect.silent _ rfl rfl fun e he _ => Or.inl he
    | some entry =>
      rw [hid] at h
      cases h
      refine Effect.silent _ rfl rfl fun e he _ => ?_
      by_cases hne : id = task.id
      · subst hne
        obtain rfl := Option.some.inj (hid.symm.trans he)
        exact Or.inr ⟨result, AList.lookup_insert _⟩
      · exact Or.inl ((AList.lookup_insert_ne hne).trans he)
  | awaitStop id' polls =>
    cases h
    exact effect_poll id' polls
  | restartStart id' =>
    cases h
    exact effect_startVm id'
  | _ => cases h

theorem effect_storeCall {op : Op} {fault : Option DaemonError}
    (h : m.storeCall q op fault = some m') : Effect m m' q id := by
  have hsame : ∀ e, m.vms.lookup id = some e → e.state ≠ .created →
      m.vms.lookup id = some e ∨ ∃ result, m.vms.lookup id = some (Life.exitedEntry e result) :=
    fun e he _ => Or.inl he
  cases op with
  | saveConfig info =>
    cases fault with
    | none => cases h; exact Effect.silent _ rfl rfl hsame
    | some e => cases h; exact Effect.silent _ rfl rfl hsame
  | saveCreated info =>
    cases fault with
    | none => cases h; exact Effect.over _ rfl rfl rfl
    | some e => cases h; exact Effect.silent _ rfl rfl hsame
  | saveRunning info task =>
    cases fault with
    | none =>
      cases h
      exact Effect.answered (.ok (some info)) (fun r hr => Function.update_of_ne hr ..) rfl rfl
    | some e => cases h; exact Effect.over _ rfl rfl rfl
  | saveExit id' state =>
    cases fault with
    | none => cases h; exact Effect.silent _ rfl rfl hsame
    | some e => cases h; exact Effect.silent _ rfl rfl hsame
  | deleteDir id' =>
    cases fault with
    | none => cases h; exact Effect.over _ rfl rfl rfl
    | some e => cases h; exact Effect.over _ rfl rfl rfl
  | _ => cases h

theorem effect_bootReturns {op : Op} {result : TaskResult}
    (h : m.bootReturns q result op = some m') : Effect m m' q id := by
  cases op with
  | boot task =>
    simp only [bootReturns] at h
    cases result with
    | exited reason => cases h; exact Effect.silent _ rfl rfl fun e he _ => Or.inl he
    | failed message => cases h; exact Effect.silent _ rfl rfl fun e he _ => Or.inl he
    | panicked message => cases h; exact Effect.silent _ rfl rfl fun e he _ => Or.inl he
  | _ => cases h

/-- What a step does that does not remove the VM, whether or not its store call fails. -/
theorem effect_step {event : Event} (hkeep : ¬m.Removes id event)
    (h : m.step event = some m') : Effect m m' event.op id := by
  cases event with
  | call p request files =>
    unfold step at h
    dsimp only at h
    split_ifs at h with hop
    cases h
    exact effect_call hop hkeep
  | lock p files =>
    obtain ⟨op, hop, h⟩ := Option.bind_eq_some_iff.1 h
    exact effect_lockSection hop hkeep h
  | store p fault =>
    obtain ⟨op, -, h⟩ := Option.bind_eq_some_iff.1 h
    exact effect_storeCall h
  | returns p result =>
    obtain ⟨op, -, h⟩ := Option.bind_eq_some_iff.1 h
    exact effect_bootReturns h

/-- A step of another operation answers nothing. -/
theorem Effect.answers_eq (h : Effect m m' q id) {p : ℕ} (hp : p ≠ q) :
    m'.answers p = m.answers p := by
  obtain ⟨new, hnew⟩ := h.replies
  have hnone : (new.map fun r => (q, r)).filterMap
      (fun r => if r.1 = p then some r.2 else none) = [] := by
    simp [List.filterMap_map, Ne.symm hp]
  unfold answers
  rw [hnew, List.filterMap_append, hnone, List.append_nil]

theorem ops_goOn (m : Manager) (q : ℕ) (op : Op) : (m.goOn q op).ops q = some op :=
  Function.update_self ..

theorem ops_over (m : Manager) (q : ℕ) (r : Reply) : ((m.finish q).reply q r).ops q = none :=
  Function.update_self ..

theorem answers_goOn (m : Manager) (q p : ℕ) (op : Op) : (m.goOn q op).answers p = m.answers p :=
  rfl

theorem answers_over (m : Manager) (q : ℕ) (r : Reply) :
    ((m.finish q).reply q r).answers q = m.answers q ++ [r] := by
  simp [answers, reply, finish]

end Effect

/-! ### Runs that begin with `restart_vm` -/

/-- An entry that was running as `entry` is so still, or has stopped; the start task it had is the
last one. -/
structure Aged (entry e : VmEntry) : Prop where
  state : e.state = .running ∨ e.state = .stopped ∨ e.state = .failed
  config : e.config = entry.config
  running : e.state = .running → e = entry

/-- A VM that has been started never is `Created` again. -/
theorem Aged.ne_created {entry e : VmEntry} (h : Aged entry e) : e.state ≠ .created := by
  rcases h.state with hs | hs | hs <;> rw [hs] <;> decide

theorem Aged.exited {entry e : VmEntry} (h : Aged entry e) (result : TaskResult) :
    Aged entry (Life.exitedEntry e result) := by
  refine ⟨Or.inr result.outcome_state, h.config, fun hrun => ?_⟩
  rcases result.outcome_state with hs | hs
  · cases hs.symm.trans hrun
  · cases hs.symm.trans hrun

/-- The call of `restart_vm` waits, or has seen the VM stopped, or has failed. -/
inductive Phase (before : List Reply) (id : String) (e : VmEntry) : Option Op → List Reply → Prop
  | waiting (polls : ℕ) : Phase before id e (some (.awaitStop id polls)) before
  | stopped (hstate : e.state ≠ .running) : Phase before id e (some (.restartStart id)) before
  | gaveUp : Phase before id e none (before ++ [.error (gaveUp id)])
  | refused (state : VmState) (hstate : state = .stopped ∨ state = .failed) :
      Phase before id e none (before ++ [.error (.invalidState id state "Created")])

theorem Phase.mono {before answers : List Reply} {id : String} {e e' : VmEntry} {op : Option Op}
    (h : Phase before id e op answers) (hstate : e.state ≠ .running → e'.state ≠ .running) :
    Phase before id e' op answers := by
  cases h with
  | waiting polls => exact Phase.waiting polls
  | stopped hs => exact Phase.stopped (hstate hs)
  | gaveUp => exact Phase.gaveUp
  | refused state hs => exact Phase.refused state hs

/-- What every state of such a run satisfies. -/
structure Restarting (before : List Reply) (p : ℕ) (id : String) (entry : VmEntry)
    (m : Manager) : Prop where
  vm : ∃ e, m.vms.lookup id = some e ∧ Aged entry e ∧ Phase before id e (m.ops p) (m.answers p)

section Run

variable {m m' : Manager} {p : ℕ} {id : String} {entry : VmEntry} {before : List Reply}

/-- A poll goes on, gives up, or finds the VM stopped. -/
theorem Restarting.poll {e : VmEntry} {polls : ℕ} (he : m.vms.lookup id = some e)
    (haged : Aged entry e) (hans : m.answers p = before) :
    Restarting before p id entry (m.poll p id polls) := by
  subst hans
  unfold Manager.poll getVm
  simp only [he]
  split_ifs with hstop
  · refine ⟨e, he, haged, ?_⟩
    rw [ops_goOn, answers_goOn]
    refine Phase.stopped fun hrun => ?_
    rcases hstop with hs | hs
    · cases hs.symm.trans hrun
    · cases hs.symm.trans hrun
  · cases polls with
    | zero =>
      refine ⟨e, he, haged, ?_⟩
      dsimp only
      rw [ops_over, answers_over]
      exact Phase.gaveUp
    | succ polls =>
      refine ⟨e, he, haged, ?_⟩
      dsimp only
      rw [ops_goOn, answers_goOn]
      exact Phase.waiting polls

/-- **`start_vm` refuses** every VM that has been running. -/
theorem Restarting.refused {e : VmEntry} (he : m.vms.lookup id = some e) (haged : Aged entry e)
    (hstate : e.state ≠ .running) (hans : m.answers p = before) :
    Restarting before p id entry (m.startVm p id) := by
  subst hans
  unfold startVm startLock
  simp only [he, ne_eq, haged.ne_created, not_false_eq_true, if_true]
  refine ⟨e, he, haged, ?_⟩
  rw [ops_over, answers_over]
  exact Phase.refused e.state (haged.state.resolve_left hstate)

theorem Restarting.step {event : Event} (h : Restarting before p id entry m)
    (hcall : ∀ request files, event ≠ .call p request files) (hkeep : ¬m.Removes id event)
    (hstep : m.step event = some m') : Restarting before p id entry m' := by
  obtain ⟨e, he, haged, hphase⟩ := h.vm
  by_cases hp : p = event.op
  · -- the restart's own step: it can only be at a lock section
    cases event with
    | call q request files =>
      subst hp
      exact absurd rfl (hcall request files)
    | lock q files =>
      obtain ⟨op, hop, hlock⟩ := Option.bind_eq_some_iff.1 hstep
      obtain rfl : p = q := hp
      simp only [hop] at hphase
      generalize hans : m.answers p = answers at hphase
      cases hphase with
      | waiting polls =>
        cases hlock
        exact Restarting.poll he haged hans
      | stopped hstate =>
        cases hlock
        exact Restarting.refused he haged hstate hans
    | store q fault =>
      obtain ⟨op, hop, hstore⟩ := Option.bind_eq_some_iff.1 hstep
      obtain rfl : p = q := hp
      simp only [hop] at hphase
      cases hphase <;> cases hstore
    | returns q result =>
      obtain ⟨op, hop, hret⟩ := Option.bind_eq_some_iff.1 hstep
      obtain rfl : p = q := hp
      simp only [hop] at hphase
      cases hphase <;> cases hret
  · have heff := effect_step hkeep hstep
    rw [← heff.ops p hp, ← heff.answers_eq hp] at hphase
    rcases heff.lookup e he haged.ne_created with hsame | ⟨result, hexit⟩
    · exact ⟨e, hsame, haged, hphase⟩
    · refine ⟨_, hexit, haged.exited result, hphase.mono fun _ hrun => ?_⟩
      rcases result.outcome_state with hs | hs
      · cases hs.symm.trans hrun
      · cases hs.symm.trans hrun

theorem Restarting.run {events : List Event} (h : Restarting before p id entry m)
    (hcalls : ∀ request files, Event.call p request files ∉ events) (hkeep : m.Keeps id events)
    (hrun : m.run events = some m') : Restarting before p id entry m' := by
  induction events generalizing m with
  | nil =>
    cases hrun
    exact h
  | cons event events ih =>
    obtain ⟨m₁, hstep, hrest⟩ := Option.bind_eq_some_iff.1 hrun
    have h₁ := h.step (fun request files heq => hcalls request files (by simp [heq])) hkeep.1 hstep
    exact ih h₁ (fun request files hmem => hcalls request files (List.mem_cons_of_mem _ hmem))
      (hkeep.2 m₁ hstep) hrest

/-- The call on a running VM raises its flag and begins to wait. -/
theorem Restarting.start (hidle : m.ops p = none) (hentry : m.vms.lookup id = some entry)
    (hrunning : entry.state = .running) {files : String → Bool}
    (hstep : m.step (.call p (.restart id) files) = some m') :
    Restarting (m.answers p) p id entry m' := by
  simp only [Manager.step, hidle, if_true, call, stopLock, hentry, hrunning, ne_eq,
    not_true_eq_false, if_false, Option.some.injEq, raiseFlag_eq] at hstep
  subst hstep
  refine ⟨entry, hentry, ⟨Or.inl hrunning, rfl, fun _ => rfl⟩, ?_⟩
  rw [ops_goOn, answers_goOn]
  exact Phase.waiting 49

/-- **A restart never restarts.**  In whatever state a running VM is restarted, and however the
call and the VM's exit task interleave with everything else, as long as nobody takes the VM out of
the map: the VM does not run under a new task, and `restart_vm` returns an error, after a VM that
has stopped in time the refusal of `start_vm`. -/
theorem restart_never_restarts {files : String → Bool} {events : List Event}
    (hidle : m.ops p = none) (hentry : m.vms.lookup id = some entry)
    (hrunning : entry.state = .running)
    (hcalls : ∀ request files, Event.call p request files ∉ events)
    (hkeep : m.Keeps id (.call p (.restart id) files :: events))
    (hrun : m.run (.call p (.restart id) files :: events) = some m') :
    ¬Restarted m m' p id entry ∧ (m'.ops p = none →
      m'.answers p = m.answers p ++ [.error (gaveUp id)] ∨
        ∃ state, (state = .stopped ∨ state = .failed) ∧
          m'.answers p = m.answers p ++ [.error (.invalidState id state "Created")]) := by
  obtain ⟨m₁, hstep, hrest⟩ := Option.bind_eq_some_iff.1 hrun
  have hend := (Restarting.start hidle hentry hrunning hstep).run hcalls (hkeep.2 m₁ hstep) hrest
  obtain ⟨e, he, haged, hphase⟩ := hend.vm
  constructor
  · rintro ⟨-, e', he', hrun', -, hflag⟩
    obtain rfl := Option.some.inj (he.symm.trans he')
    rw [haged.running hrun'] at hflag
    exact hflag rfl
  · intro hover
    rw [hover] at hphase
    generalize m'.answers p = answers at hphase
    cases hphase with
    | gaveUp => exact Or.inl rfl
    | refused state hstate => exact Or.inr ⟨state, hstate, rfl⟩

end Run

/-- While no store call fails, only a deletion takes a VM out of the map. -/
theorem keeps_of_storeOk {m : Manager} {id : String} {events : List Event} (h : m.NoRollback)
    (hok : ∀ event ∈ events, event.storeOk = true)
    (hdelete : ∀ p files, Event.call p (.delete id) files ∉ events) : m.Keeps id events := by
  induction events generalizing m with
  | nil => trivial
  | cons event events ih =>
    refine ⟨fun hrem => ?_, fun m' hstep => ?_⟩
    · cases event with
      | call p request files =>
        cases request with
        | delete id' =>
          obtain rfl : id' = id := hrem
          exact hdelete p files List.mem_cons_self
        | _ => exact hrem
      | lock p files =>
        obtain ⟨e, he⟩ := hrem
        exact h p id e he
      | _ => exact hrem
    · exact ih (h.move (move_step (hok event List.mem_cons_self) hstep))
        (fun ev hev => hok ev (List.mem_cons_of_mem _ hev))
        (fun p files hmem => hdelete p files (List.mem_cons_of_mem _ hmem))

/-- A VM is created and started. -/
def vmStarted : List Event :=
  [.call 0 (.create "vm" { kernelPath := "vmlinux", ramMib := 256 }) fun _ => true,
    .store 0 none, .store 0 none, .call 0 (.start "vm") fun _ => true, .store 0 none]

/-- The vCPU is cancelled, the exit task makes its update, and the restart polls and goes on. -/
def stopsInTime : List Event :=
  [.returns 0 (.exited .canceled), .lock 0 fun _ => true, .store 0 none,
    .lock 1 fun _ => true, .lock 1 fun _ => true]

theorem restart_never_restarts_vm : ∃ m m' entry, (new {}).run vmStarted = some m ∧
    m.run (.call 1 (.restart "vm") (fun _ => true) :: stopsInTime) = some m' ∧
    ¬Restarted m m' 1 "vm" entry := by
  obtain ⟨m, hm⟩ : ∃ m, (new {}).run vmStarted = some m := ⟨_, rfl⟩
  have hinv : m.Inv := (inv_new {}).run (by decide) hm
  obtain ⟨m', hm'⟩ : ∃ m', m.run (.call 1 (.restart "vm") (fun _ => true) :: stopsInTime) =
      some m' := by
    cases hm
    exact ⟨_, rfl⟩
  obtain ⟨entry, hentry, hrunning⟩ : ∃ entry, m.vms.lookup "vm" = some entry ∧
      entry.state = .running := by
    cases hm
    exact ⟨_, rfl, rfl⟩
  have hidle : m.ops 1 = none := by
    cases hm
    rfl
  refine ⟨m, m', entry, hm, hm', (restart_never_restarts hidle hentry hrunning ?_ ?_ hm').1⟩
  · simp [stopsInTime]
  · exact keeps_of_storeOk hinv.noRollback (by decide) (by simp [stopsInTime])

/-- The VM stops in time, and the restart is refused. -/
theorem restart_of_stopped_refused : ∃ m m' entry, (new {}).run vmStarted = some m ∧
    m.vms.lookup "vm" = some entry ∧ entry.state = .running ∧
    m.run (.call 1 (.restart "vm") (fun _ => true) :: stopsInTime) = some m' ∧
    m'.ops 1 = none ∧ m'.answers 1 = [.error (.invalidState "vm" .stopped "Created")] ∧
    (m'.vms.lookup "vm").map VmEntry.state = some .stopped ∧
    ¬Restarted m m' 1 "vm" entry := by
  refine ⟨_, _, _, rfl, rfl, rfl, rfl, rfl, rfl, rfl, ?_⟩
  rintro ⟨⟨info, hmem⟩, -⟩
  cases hmem with
  | tail _ h => cases h

end Manager

end Hitz.Daemon
