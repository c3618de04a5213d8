import Hitz.Daemon.StateStore
import Hitz.Vmm.Config
import Hitz.Vmm.RunLoop

/-!
# The VM manager (`hitz-daemon/src/vm_manager.rs`)

The map of VMs is behind a mutex; the state store is not.  An operation is a sequence of steps:
each section under the lock is one step, each call of the store is one, and `boot_and_run` takes as
long as it likes.  `Manager.step` runs the next step of one operation, so a list of events is an
interleaving of any number of operations.  A store call may fail; the mutex is never poisoned.

A stop flag and a serial buffer are shared by pointer and have an identity here.  `Manager` also
keeps four things that no step reads: the replies, the order in which operations with store calls
to make took the lock, and the incarnations (insertions into the map) that were started and ended.

Reading operations (`get_vm`, `list_vms`, `serial_reader`), metrics, the guest agent and the
completion channel change nothing of this and are left out; so is `vsock_handle`, which is never
set.
-/

namespace Hitz.Daemon

open Api Vmm

/-- Errors from daemon operations. -/
inductive DaemonError
  | notFound (id : String)
  | alreadyExists (id : String)
  | invalidState (id : String) (state : VmState) (expected : String)
  | vmm (e : VmError)
  | io (message : String)
  | internal (message : String)
  deriving DecidableEq, Repr

/-- Internal state for a single VM. -/
structure VmEntry where
  config : VmConfig
  state : VmState
  exitReason : Option String := none
  stopFlag : Option ℕ := none
  serialBuf : Option ℕ := none
  /-- The insertion into the map that this entry stems from. -/
  incarnation : ℕ
  deriving DecidableEq, Repr

/-- `VmEntry::to_info`. -/
def VmEntry.toInfo (entry : VmEntry) (id : String) : VmInfo where
  id
  state := entry.state
  config := entry.config
  exitReason := entry.exitReason

/-- What `boot_and_run` came back with. -/
inductive TaskResult
  | exited (reason : ExitReason)
  | failed (message : String)
  | panicked (message : String)
  deriving DecidableEq, Repr

/-- The final state of a VM and its exit reason. -/
def TaskResult.outcome : TaskResult → VmState × String
  | .exited .halt => (.stopped, "Halt")
  | .exited .shutdown => (.stopped, "Shutdown")
  | .exited .canceled => (.stopped, "Canceled")
  | .exited (.unexpected reason) => (.failed, reason)
  | .failed message => (.failed, message)
  | .panicked message => (.failed, "task panicked: " ++ message)

theorem TaskResult.outcome_state (result : TaskResult) :
    result.outcome.1 = .stopped ∨ result.outcome.1 = .failed := by
  cases result with
  | exited reason => cases reason <;> simp [outcome]
  | failed _ => exact Or.inr rfl
  | panicked _ => exact Or.inr rfl

/-- A start that has passed its lock section: the entry it set running, its flag and buffer. -/
structure Task where
  id : String
  incarnation : ℕ
  stopFlag : ℕ
  serialBuf : ℕ
  deriving DecidableEq, Repr

/-- What an operation does next. -/
inductive Op
  /-- `clone_vm` has read the configuration. -/
  | cloneCreate (dest : String) (config : VmConfig)
  /-- `create_vm` has inserted the entry. -/
  | saveConfig (info : VmInfo)
  | saveCreated (info : VmInfo)
  | rollback (id : String) (e : DaemonError)
  /-- `start_vm` has set the entry running. -/
  | saveRunning (info : VmInfo) (task : Task)
  /-- The spawned task is in `boot_and_run`, or back from it. -/
  | boot (task : Task)
  | exitUpdate (task : Task) (result : TaskResult)
  | saveExit (id : String) (state : VmState)
  /-- `delete_vm` has removed the entry. -/
  | deleteDir (id : String)
  /-- `restart_vm` polls the state, a number of times more after the next. -/
  | awaitStop (id : String) (polls : ℕ)
  | restartStart (id : String)
  deriving DecidableEq, Repr

/-- The start or exit task an operation is. -/
def Op.task : Op → Option Task
  | .saveRunning _ task => some task
  | .boot task => some task
  | .exitUpdate task _ => some task
  | _ => none

/-- The VM whose files an operation writes next. -/
def Op.target : Op → Option String
  | .saveConfig info => some info.id
  | .saveCreated info => some info.id
  | .saveRunning info _ => some info.id
  | .saveExit id _ => some id
  | .deleteDir id => some id
  | _ => none

/-- A reply to a client. -/
abbrev Reply := Except DaemonError (Option VmInfo)

/-- The manager with everything that is in progress. -/
structure Manager where
  vms : AList fun _ : String => VmEntry := ∅
  store : StateStore := {}
  stopFlags : ℕ → Bool := fun _ => false
  closedBufs : ℕ → Bool := fun _ => false
  /-- The next identity of an incarnation, flag or buffer. -/
  next : ℕ := 0
  ops : ℕ → Option Op := fun _ => none
  replies : List (ℕ × Reply) := []
  queue : List ℕ := []
  started : List ℕ := []
  exited : List ℕ := []

namespace Manager

/-- Insert a VM that the store holds. -/
def recover (m : Manager) (vm : String × VmConfig × VmState) : Manager :=
  { m with
    vms := m.vms.insert vm.1 { config := vm.2.1, state := vm.2.2, incarnation := m.next }
    next := m.next + 1 }

/-- `VmManager::new`: recover the VMs of the store. -/
def new (store : StateStore) : Manager := store.loadAll.foldl recover { store }

/-! ### The sections under the lock -/

/-- `create_vm`: insert an entry. -/
def createLock (m : Manager) (id : String) (config : VmConfig) :
    Except DaemonError (VmInfo × Manager) :=
  match m.vms.lookup id with
  | some _ => .error (.alreadyExists id)
  | none =>
    let entry : VmEntry := { config, state := .created, incarnation := m.next }
    .ok (entry.toInfo id, { m with vms := m.vms.insert id entry, next := m.next + 1 })

/-- `start_vm`: set the entry running, with a new flag and buffer. -/
def startLock (m : Manager) (id : String) : Except DaemonError (VmInfo × Task × Manager) :=
  match m.vms.lookup id with
  | none => .error (.notFound id)
  | some entry =>
    if entry.state ≠ .created then .error (.invalidState id entry.state "Created")
    else
      let task : Task :=
        { id, incarnation := entry.incarnation, stopFlag := m.next, serialBuf := m.next + 1 }
      let entry := { entry with
        state := .running, stopFlag := some task.stopFlag, serialBuf := some task.serialBuf }
      .ok (entry.toInfo id, task, { m with
        vms := m.vms.insert id entry
        stopFlags := Function.update m.stopFlags task.stopFlag false
        closedBufs := Function.update m.closedBufs task.serialBuf false
        next := m.next + 2
        started := m.started ++ [entry.incarnation] })

/-- Set the stop flag of an entry. -/
def raiseFlag (m : Manager) (entry : VmEntry) : Manager :=
  match entry.stopFlag with
  | none => m
  | some flag => { m with stopFlags := Function.update m.stopFlags flag true }

/-- `stop_vm`. -/
def stopLock (m : Manager) (id : String) : Except DaemonError (VmInfo × Manager) :=
  match m.vms.lookup id with
  | none => .error (.notFound id)
  | some entry =>
    if entry.state ≠ .running then .error (.invalidState id entry.state "Running")
    else .ok (entry.toInfo id, m.raiseFlag entry)

/-- `stop_all`. -/
def stopAll (m : Manager) : Manager :=
  m.vms.entries.foldl (fun m ⟨_, entry⟩ =>
    if entry.state = .running then m.raiseFlag entry else m) m

/-- `get_vm`. -/
def getVm (m : Manager) (id : String) : Except DaemonError VmInfo :=
  match m.vms.lookup id with
  | none => .error (.notFound id)
  | some entry => .ok (entry.toInfo id)

/-- `delete_vm`: remove the entry. -/
def deleteLock (m : Manager) (id : String) : Except DaemonError Manager :=
  match m.vms.lookup id with
  | none => .error (.notFound id)
  | some entry =>
    if entry.state = .running then
      .error (.invalidState id entry.state "Created, Stopped, or Failed")
    else .ok { m with vms := m.vms.erase id }

/-- The update of the exit task; it looks the entry up again by its id. -/
def exitLock (m : Manager) (task : Task) (result : TaskResult) : Option (VmState × Manager) :=
  match m.vms.lookup task.id with
  | none => none
  | some entry =>
    let (state, reason) := result.outcome
    let entry := { entry with state, exitReason := some reason, stopFlag := none }
    some (state, { m with
      vms := m.vms.insert task.id entry
      closedBufs := match entry.serialBuf with
        | none => m.closedBufs
        | some buf => Function.update m.closedBufs buf true
      exited := m.exited ++ [task.incarnation] })

/-! ### Steps of the operations -/

/-- The operation `p` goes on with `op`. -/
def goOn (m : Manager) (p : ℕ) (op : Op) : Manager :=
  { m with ops := Function.update m.ops p (some op) }

/-- The operation `p` goes on with the store calls of the lock section it has just left. -/
def enqueue (m : Manager) (p : ℕ) (op : Op) : Manager :=
  { m.goOn p op with queue := m.queue ++ [p] }

/-- The operation `p` has made its store calls. -/
def dequeue (m : Manager) (p : ℕ) : Manager := { m with queue := m.queue.erase p }

/-- The operation `p` is over. -/
def finish (m : Manager) (p : ℕ) : Manager := { m with ops := Function.update m.ops p none }

/-- A reply to the client of the operation `p`. -/
def reply (m : Manager) (p : ℕ) (r : Reply) : Manager :=
  { m with replies := m.replies ++ [(p, r)] }

/-- `create_vm` rejects ids that leave the state directory. -/
def invalidId (id : String) : Bool :=
  '/' ∈ id.toList || '\\' ∈ id.toList || ['.', '.'] <:+: id.toList

/-- `create_vm` up to its first store call. -/
def createVm (m : Manager) (p : ℕ) (files : String → Bool) (id : String) (config : VmConfig) :
    Manager :=
  if invalidId id then (m.finish p).reply p (.error (.internal "Invalid VM ID"))
  else
    match validateConfig files config with
    | .error e => (m.finish p).reply p (.error (.vmm e))
    | .ok () =>
      match m.createLock id config with
      | .error e => (m.finish p).reply p (.error e)
      | .ok (info, m) => m.enqueue p (.saveConfig info)

/-- `start_vm` up to its store call. -/
def startVm (m : Manager) (p : ℕ) (id : String) : Manager :=
  match m.startLock id with
  | .error e => (m.finish p).reply p (.error e)
  | .ok (info, task, m) => m.enqueue p (.saveRunning info task)

end Manager

/-- A call by a client. -/
inductive Request
  | create (id : String) (config : VmConfig)
  | clone (src dest : String)
  | start (id : String)
  | stop (id : String)
  | restart (id : String)
  | delete (id : String)
  | stopAll

/-- The next step of the operation `p`. -/
inductive Event
  | call (p : ℕ) (request : Request) (files : String → Bool)
  | lock (p : ℕ) (files : String → Bool)
  | store (p : ℕ) (fault : Option DaemonError)
  | returns (p : ℕ) (result : TaskResult)

/-- The operation that takes the step. -/
def Event.op : Event → ℕ
  | .call p _ _ => p
  | .lock p _ => p
  | .store p _ => p
  | .returns p _ => p

/-- The step is not a store call that fails. -/
def Event.storeOk : Event → Bool
  | .store _ (some _) => false
  | _ => true

namespace Manager

/-- A client calls. -/
def call (m : Manager) (p : ℕ) (files : String → Bool) : Request → Manager
  | .create id config => m.createVm p files id config
  | .clone src dest =>
    match m.getVm src with
    | .error e => m.reply p (.error e)
    | .ok info => m.goOn p (.cloneCreate dest info.config)
  | .start id => m.startVm p id
  | .stop id =>
    match m.stopLock id with
    | .error e => m.reply p (.error e)
    | .ok (info, m) => m.reply p (.ok (some info))
  | .restart id =>
    match m.stopLock id with
    | .error e => m.reply p (.error e)
    | .ok (_, m) => m.goOn p (.awaitStop id 49)
  | .delete id =>
    match m.deleteLock id with
    | .error e => m.reply p (.error e)
    | .ok m => m.enqueue p (.deleteDir id)
  | .stopAll => m.stopAll

/-- A poll of `restart_vm`. -/
def poll (m : Manager) (p : ℕ) (id : String) (polls : ℕ) : Manager :=
  match m.getVm id with
  | .error e => (m.finish p).reply p (.error e)
  | .ok info =>
    if info.state = .stopped ∨ info.state = .failed then m.goOn p (.restartStart id)
    else
      match polls with
      | 0 => (m.finish p).reply p (.error (.internal
          ("VM " ++ id ++ " failed to stop within 5 seconds for restart")))
      | polls + 1 => m.goOn p (.awaitStop id polls)

/-- A store call, and what follows it up to the next step. -/
def storeCall (m : Manager) (p : ℕ) : Op → Option DaemonError → Option Manager
  | .saveConfig info, none => some
      { m.goOn p (.saveCreated info) with store := m.store.saveConfig info.id info.config }
  | .saveConfig info, some e => some ((m.goOn p (.rollback info.id e)).dequeue p)
  | .saveCreated info, none => some
      ((({ m with store := m.store.saveState info.id .created }.finish p).dequeue p).reply p
        (.ok (some info)))
  | .saveCreated info, some e => some ((m.goOn p (.rollback info.id e)).dequeue p)
  | .saveRunning info task, none => some
      ((({ m with store := m.store.saveState info.id .running }.goOn p (.boot task)).dequeue
        p).reply p (.ok (some info)))
  | .saveRunning _ _, some e => some (((m.finish p).dequeue p).reply p (.error e))
  | .saveExit id state, none => some
      (({ m with store := m.store.saveState id state }.finish p).dequeue p)
  | .saveExit _ _, some _ => some ((m.finish p).dequeue p)
  | .deleteDir id, none => some
      ((({ m with store := m.store.delete id }.finish p).dequeue p).reply p (.ok none))
  | .deleteDir _, some e => some (((m.finish p).dequeue p).reply p (.error e))
  | _, _ => none

/-- A later section under the lock. -/
def lockSection (m : Manager) (p : ℕ) (files : String → Bool) : Op → Option Manager
  | .cloneCreate dest config => some (m.createVm p files dest config)
  | .rollback id e => some (({ m with vms := m.vms.erase id }.finish p).reply p (.error e))
  | .exitUpdate task result =>
    match m.exitLock task result with
    | none => some (m.finish p)
    | some (state, m) => some (m.enqueue p (.saveExit task.id state))
  | .awaitStop id polls => some (m.poll p id polls)
  | .restartStart id => some (m.startVm p id)
  | _ => none

/-- `boot_and_run` returns; on its way out of a run it raises its own flag. -/
def bootReturns (m : Manager) (p : ℕ) (result : TaskResult) : Op → Option Manager
  | .boot task =>
    match result with
    | .exited _ => some ({ m with
        stopFlags := Function.update m.stopFlags task.stopFlag true }.goOn p
          (.exitUpdate task result))
    | _ => some (m.goOn p (.exitUpdate task result))
  | _ => none

/-- One step; `none` when the operation is not at such a step. -/
def step (m : Manager) : Event → Option Manager
  | .call p request files => if m.ops p = none then some (m.call p files request) else none
  | .lock p files => (m.ops p).bind (m.lockSection p files)
  | .store p fault => (m.ops p).bind fun op => m.storeCall p op fault
  | .returns p result => (m.ops p).bind (m.bootReturns p result)

/-- A run. -/
def run (m : Manager) : List Event → Option Manager
  | [] => some m
  | event :: events => (m.step event).bind fun m => m.run events

/-! ### What a step can do -/

/-- An operation that is neither a start or exit task nor has a store call to make. -/
def Light : Option Op → Prop
  | none => True
  | some (.cloneCreate _ _) => True
  | some (.awaitStop _ _) => True
  | some (.restartStart _) => True
  | _ => False

/-- The id that a step creates a VM under, now or later. -/
def destination (m : Manager) : Event → Option String
  | .call _ (.create id _) _ => some id
  | .call _ (.clone _ dest) _ => some dest
  | .lock p _ =>
    match m.ops p with
    | some (.cloneCreate dest _) => some dest
    | _ => none
  | _ => none

/-- The steps of the operation `p` when no store call fails; `dest` is the id it creates a VM under.
The stop flags and the replies are left open. -/
inductive Move (m : Manager) (p : ℕ) (dest : Option String) : Manager → Prop
  | light (hold : Light (m.ops p)) (op : Option Op) (hnew : Light op)
      (hclone : ∀ id config, op = some (.cloneCreate id config) → dest = some id)
      (stopFlags : ℕ → Bool) (replies : List (ℕ × Reply)) :
      Move m p dest { m with ops := Function.update m.ops p op, stopFlags, replies }
  | create (hold : Light (m.ops p)) (id : String) (config : VmConfig)
      (hnone : m.vms.lookup id = none) (info : VmInfo) (hid : info.id = id)
      (hconfig : info.config = config) (hdest : dest = some id) : Move m p dest { m with
        vms := m.vms.insert id { config, state := .created, incarnation := m.next }
        next := m.next + 1
        ops := Function.update m.ops p (some (.saveConfig info))
        queue := m.queue ++ [p] }
  | start (hold : Light (m.ops p)) (id : String) (entry : VmEntry)
      (hentry : m.vms.lookup id = some entry) (hcreated : entry.state = .created) (info : VmInfo)
      (hid : info.id = id) (stopFlags : ℕ → Bool) : Move m p dest { m with
        vms := m.vms.insert id { entry with
          state := .running, stopFlag := some m.next, serialBuf := some (m.next + 1) }
        stopFlags
        closedBufs := Function.update m.closedBufs (m.next + 1) false
        next := m.next + 2
        started := m.started ++ [entry.incarnation]
        ops := Function.update m.ops p
          (some (.saveRunning info ⟨id, entry.incarnation, m.next, m.next + 1⟩))
        queue := m.queue ++ [p] }
  | remove (hold : Light (m.ops p)) (id : String) (entry : VmEntry)
      (hentry : m.vms.lookup id = some entry) (hstate : entry.state ≠ .running) :
      Move m p dest { m with
        vms := m.vms.erase id
        ops := Function.update m.ops p (some (.deleteDir id))
        queue := m.queue ++ [p] }
  | savedConfig (info : VmInfo) (hop : m.ops p = some (.saveConfig info)) : Move m p dest { m with
        store := m.store.saveConfig info.id info.config
        ops := Function.update m.ops p (some (.saveCreated info)) }
  | savedCreated (info : VmInfo) (hop : m.ops p = some (.saveCreated info))
      (replies : List (ℕ × Reply)) : Move m p dest { m with
        store := m.store.saveState info.id .created
        ops := Function.update m.ops p none
        queue := m.queue.erase p
        replies }
  | savedRunning (info : VmInfo) (task : Task) (hop : m.ops p = some (.saveRunning info task))
      (replies : List (ℕ × Reply)) : Move m p dest { m with
        store := m.store.saveState info.id .running
        ops := Function.update m.ops p (some (.boot task))
        queue := m.queue.erase p
        replies }
  | savedExit (id : String) (state : VmState) (hop : m.ops p = some (.saveExit id state)) :
      Move m p dest { m with
        store := m.store.saveState id state
        ops := Function.update m.ops p none
        queue := m.queue.erase p }
  | deleted (id : String) (hop : m.ops p = some (.deleteDir id)) (replies : List (ℕ × Reply)) :
      Move m p dest { m with
        store := m.store.delete id
        ops := Function.update m.ops p none
        queue := m.queue.erase p
        replies }
  | returned (task : Task) (hop : m.ops p = some (.boot task)) (result : TaskResult)
      (stopFlags : ℕ → Bool) : Move m p dest { m with
        stopFlags
        ops := Function.update m.ops p (some (.exitUpdate task result)) }
  | exit (task : Task) (result : TaskResult) (hop : m.ops p = some (.exitUpdate task result))
      (entry : VmEntry) (hentry : m.vms.lookup task.id = some entry) : Move m p dest { m with
        vms := m.vms.insert task.id { entry with
          state := result.outcome.1, exitReason := some result.outcome.2, stopFlag := none }
        closedBufs := match entry.serialBuf with
          | none => m.closedBufs
          | some buf => Function.update m.closedBufs buf true
        exited := m.exited ++ [task.incarnation]
        ops := Function.update m.ops p (some (.saveExit task.id result.outcome.1))
        queue := m.queue ++ [p] }
  | exitGone (task : Task) (result : TaskResult) (hop : m.ops p = some (.exitUpdate task result))
      (hnone : m.vms.lookup task.id = none) : Move m p dest { m with
        ops := Function.update m.ops p none }
  | rollback (id : String) (e : DaemonError) (hop : m.ops p = some (.rollback id e))
      (replies : List (ℕ × Reply)) : Move m p dest { m with
        vms := m.vms.erase id
        ops := Function.update m.ops p none
        replies }

section Inversion

variable {m m' : Manager} {p : ℕ} {dest : Option String}

theorem raiseFlag_eq (m : Manager) (entry : VmEntry) : m.raiseFlag entry = { m with
    stopFlags := fun f => m.stopFlags f || decide (entry.stopFlag = some f) } := by
  unfold raiseFlag
  cases hflag : entry.stopFlag with
  | none => simp
  | some flag =>
    have hflags : Function.update m.stopFlags flag true =
        fun f => m.stopFlags f || decide (some flag = some f) := by
      funext f
      by_cases hf : f = flag
      · simp [hf]
      · simp [Function.update_of_ne hf, Ne.symm hf]
    rw [← hflags]

/-- `stop_all` raises exactly the flags of the running entries. -/
theorem stopAll_eq (m : Manager) : m.stopAll = { m with
    stopFlags := fun f => m.stopFlags f ||
      m.vms.entries.any fun e => e.2.state = .running ∧ e.2.stopFlag = some f } := by
  unfold stopAll
  generalize m.vms.entries = entries
  induction entries generalizing m with
  | nil => simp
  | cons e entries ih =>
    obtain ⟨id, entry⟩ := e
    rw [List.foldl_cons, ih]
    by_cases hrun : entry.state = .running
    · simp [raiseFlag_eq, hrun, Bool.or_assoc]
    · simp [hrun]

/-- A call that only answers. -/
theorem Move.answer (h : m.ops p = none) (stopFlags : ℕ → Bool) (replies : List (ℕ × Reply)) :
    Move m p dest { m with stopFlags, replies } := by
  have hold : Light (m.ops p) := by
    rw [h]
    trivial
  have hmove : Move m p dest _ := Move.light hold none trivial (by simp) stopFlags replies
  rwa [← h, Function.update_eq_self] at hmove

theorem move_createVm (hold : Light (m.ops p)) (files : String → Bool) (id : String)
    (config : VmConfig) : Move m p (some id) (m.createVm p files id config) := by
  unfold createVm createLock
  split_ifs
  · exact Move.light hold none trivial (by simp) m.stopFlags _
  split
  · exact Move.light hold none trivial (by simp) m.stopFlags _
  cases hid : m.vms.lookup id with
  | some entry => exact Move.light hold none trivial (by simp) m.stopFlags _
  | none => exact Move.create hold id config hid _ rfl rfl rfl

theorem move_startVm (hold : Light (m.ops p)) (id : String) : Move m p dest (m.startVm p id) := by
  unfold startVm startLock
  cases hid : m.vms.lookup id with
  | none => exact Move.light hold none trivial (by simp) m.stopFlags _
  | some entry =>
    by_cases hstate : entry.state = .created
    · simp only [hstate, ne_eq, not_true_eq_false, if_false]
      exact Move.start hold id entry hid hstate _ rfl _
    · simp only [ne_eq, hstate, not_false_eq_true, if_true]
      exact Move.light hold none trivial (by simp) m.stopFlags _

theorem move_call (hop : m.ops p = none) (files : String → Bool) (request : Request) :
    Move m p (m.destination (.call p request files)) (m.call p files request) := by
  have hold : Light (m.ops p) := by
    rw [hop]
    trivial
  cases request with
  | create id config => exact move_createVm hold files id config
  | clone src dest =>
    simp only [call, getVm]
    cases hid : m.vms.lookup src with
    | none => exact Move.answer hop m.stopFlags _
    | some entry =>
      refine Move.light hold (some (.cloneCreate dest entry.config)) trivial ?_ m.stopFlags
        m.replies
      rintro id config ⟨⟩
      rfl
  | start id => exact move_startVm hold id
  | stop id =>
    simp only [call, stopLock]
    cases hid : m.vms.lookup id with
    | none => exact Move.answer hop m.stopFlags _
    | some entry =>
      dsimp only
      split_ifs
      · exact Move.answer hop m.stopFlags _
      · rw [raiseFlag_eq]
        exact Move.answer hop _ _
  | restart id =>
    simp only [call, stopLock]
    cases hid : m.vms.lookup id with
    | none => exact Move.answer hop m.stopFlags _
    | some entry =>
      dsimp only
      split_ifs
      · exact Move.answer hop m.stopFlags _
      · rw [raiseFlag_eq]
        exact Move.light hold (some (.awaitStop id 49)) trivial (by simp) _ m.replies
  | delete id =>
    simp only [call, deleteLock]
    cases hid : m.vms.lookup id with
    | none => exact Move.answer hop m.stopFlags _
    | some entry =>
      dsimp only
      split_ifs with hstate
      · exact Move.answer hop m.stopFlags _
      · exact Move.remove hold id entry hid hstate
  | stopAll =>
    simp only [call, stopAll_eq]
    exact Move.answer hop _ m.replies

theorem move_poll (hold : Light (m.ops p)) (id : String) (polls : ℕ) :
    Move m p dest (m.poll p id polls) := by
  unfold poll getVm
  cases hid : m.vms.lookup id with
  | none => exact Move.light hold none trivial (by simp) m.stopFlags _
  | some entry =>
    dsimp only
    split_ifs
    · exact Move.light hold (some (.restartStart id)) trivial (by simp) m.stopFlags m.replies
    · cases polls with
      | zero => exact Move.light hold none trivial (by simp) m.stopFlags _
      | succ polls =>
        exact Move.light hold (some (.awaitStop id polls)) trivial (by simp) m.stopFlags m.replies

theorem move_lockSection {files : String → Bool} {op : Op} (hop : m.ops p = some op)
    (h : m.lockSection p files op = some m') : Move m p (m.destination (.lock p files)) m' := by
  cases op with
  | cloneCreate dest config =>
    cases h
    have hdest : m.destination (.lock p files) = some dest := by simp only [destination, hop]
    rw [hdest]
    exact move_createVm (by rw [hop]; trivial) files dest config
  | rollback id e =>
    cases h
    exact Move.rollback id e hop _
  | exitUpdate task result =>
    simp only [lockSection, exitLock] at h
    cases hid : m.vms.lookup task.id with
    | none =>
      rw [hid] at h
      cases h
      exact Move.exitGone task result hop hid
    | some entry =>
      rw [hid] at h
      cases h
      exact Move.exit task result hop entry hid
  | awaitStop id polls =>
    cases h
    exact move_poll (by rw [hop]; trivial) id polls
  | restartStart id =>
    cases h
    exact move_startVm (by rw [hop]; trivial) id
  | _ => cases h

theorem move_storeCall {op : Op} (hop : m.ops p = some op) (h : m.storeCall p op none = some m') :
    Move m p dest m' := by
  cases op with
  | saveConfig info =>
    cases h
    exact Move.savedConfig info hop
  | saveCreated info =>
    cases h
    exact Move.savedCreated info hop _
  | saveRunning info task =>
    cases h
    exact Move.savedRunning info task hop _
  | saveExit id state =>
    cases h
    exact Move.savedExit id state hop
  | deleteDir id =>
    cases h
    exact Move.deleted id hop _
  | _ => cases h

theorem move_bootReturns {op : Op} {result : TaskResult} (hop : m.ops p = some op)
    (h : m.bootReturns p result op = some m') : Move m p dest m' := by
  cases op with
  | boot task =>
    simp only [bootReturns] at h
    cases result with
    | exited reason =>
      cases h
      exact Move.returned task hop _ _
    | failed message =>
      cases h
      exact Move.returned task hop _ m.stopFlags
    | panicked message =>
      cases h
      exact Move.returned task hop _ m.stopFlags
  | _ => cases h

/-- Every step that is not a failing store call is a move of its operation. -/
theorem move_step {event : Event} (hok : event.storeOk = true) (h : m.step event = some m') :
    Move m event.op (m.destination event) m' := by
  cases event with
  | call p request files =>
    unfold step at h
    dsimp only at h
    split_ifs at h with hop
    cases h
    exact move_call hop files request
  | lock p files =>
    obtain ⟨op, hop, h⟩ := Option.bind_eq_some_iff.1 h
    exact move_lockSection hop h
  | store p fault =>
    cases fault with
    | none =>
      obtain ⟨op, hop, h⟩ := Option.bind_eq_some_iff.1 h
      exact move_storeCall hop h
    | some e => cases hok
  | returns p result =>
    obtain ⟨op, hop, h⟩ := Option.bind_eq_some_iff.1 h
    exact move_bootReturns hop h

/-- No operation is about to undo its insertion: that happens only after a failed store call. -/
def NoRollback (m : Manager) : Prop := ∀ p id e, m.ops p ≠ some (.rollback id e)

theorem NoRollback.move (h : m.NoRollback) (hmove : m.Move p dest m') :
    m'.NoRollback := by
  have hupdate : ∀ op : Option Op, (∀ id e, op ≠ some (.rollback id e)) →
      ∀ q id e, Function.update m.ops p op q ≠ some (.rollback id e) := by
    intro op hop q id e
    by_cases hq : q = p
    · subst hq
      rw [Function.update_self]
      exact hop id e
    · rw [Function.update_of_ne hq]
      exact h q id e
  cases hmove with
  | light hold op hnew hclone stopFlags replies =>
    refine hupdate op fun id e hop => ?_
    rw [hop] at hnew
    exact hnew
  | _ => exact hupdate _ (by simp)

end Inversion

end Manager

end Hitz.Daemon
