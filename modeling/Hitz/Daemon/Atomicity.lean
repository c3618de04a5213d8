import Hitz.Daemon.VmManager

/-!
# What a failed operation leaves behind

An operation of the manager changes the map first and calls the store afterwards.  `perform` runs
one operation from its call to its reply, with given failures of the store and nothing in between.
When it answers with an error, the map and the VMs on disk should be as before, and no task should
run.

`failed_operation_unchanged_iff` says when that is so.  Three failures leave something behind:

* `create_vm` (and `clone_vm`) removes the entry again when `save_state` fails, but not the
  `config.json` it has just written;
* `start_vm` leaves the entry running when `save_state` fails;
* `delete_vm` does not put the entry back when the directory cannot be removed.
-/

namespace Hitz.Daemon

open Api Vmm

/-- The store calls that fail. -/
structure Faults where
  saveConfig : Option DaemonError := none
  saveState : Option DaemonError := none
  delete : Option DaemonError := none

/-- The operations that create, start or delete a VM. -/
inductive Operation
  | create (id : String) (config : VmConfig)
  | clone (src dest : String)
  | start (id : String)
  | delete (id : String)

/-- The call of an operation. -/
def Operation.request : Operation → Request
  | .create id config => .create id config
  | .clone src dest => .clone src dest
  | .start id => .start id
  | .delete id => .delete id

namespace Manager

variable (p : ℕ) (files : String → Bool) (faults : Faults)

/-- The next step of an operation up to its reply. -/
def nextStep : Op → Option Event
  | .cloneCreate _ _ => some (.lock p files)
  | .saveConfig _ => some (.store p faults.saveConfig)
  | .saveCreated _ => some (.store p faults.saveState)
  | .rollback _ _ => some (.lock p files)
  | .saveRunning _ _ => some (.store p faults.saveState)
  | .deleteDir _ => some (.store p faults.delete)
  | _ => none

/-- The steps of the operation `p` up to its reply, at most `n` of them. -/
def finishAlone : ℕ → Manager → Manager
  | 0, m => m
  | n + 1, m =>
    match ((m.ops p).bind (nextStep p files faults)).bind m.step with
    | none => m
    | some m' => finishAlone n m'

/-- An operation from its call to its reply; none takes more than four steps after the call. -/
def perform (m : Manager) (operation : Operation) : Manager :=
  finishAlone p files faults 4 (m.call p files operation.request)

/-- The operation answered with an error. -/
def Failed (m m' : Manager) (p : ℕ) : Prop := ∃ e, m'.replies = m.replies ++ [(p, .error e)]

/-- The map, the VMs on disk and the running tasks are the same. -/
structure Unchanged (m m' : Manager) : Prop where
  vms : ∀ id, m'.vms.lookup id = m.vms.lookup id
  loadAll : m'.store.loadAll.Perm m.store.loadAll
  tasks : ∀ q task, m'.ops q = some (.boot task) → m.ops q = some (.boot task)

/-- `create_vm` has written the configuration, then fails, and the configuration is new on disk. -/
def CreateLeaves (m : Manager) (id : String) (config : VmConfig) : Prop :=
  invalidId id = false ∧ validateConfig files config = .ok () ∧ m.vms.lookup id = none ∧
  faults.saveConfig = none ∧ faults.saveState ≠ none ∧
  ∃ name, StateStore.vmDir id = some name ∧ (m.store.dir name).config ≠ some config

/-- The failures that leave something behind. -/
def Leaves (m : Manager) : Operation → Prop
  | .create id config => m.CreateLeaves files faults id config
  | .clone src dest => ∃ entry, m.vms.lookup src = some entry ∧
      m.CreateLeaves files faults dest entry.config
  | .start id => ∃ entry, m.vms.lookup id = some entry ∧ entry.state = .created ∧
      faults.saveState ≠ none
  | .delete id => ∃ entry, m.vms.lookup id = some entry ∧ entry.state ≠ .running ∧
      faults.delete ≠ none

end Manager

/-! ### The VMs on disk -/

namespace StateStore

/-- Stores with the same directories list the same VMs. -/
theorem loadAll_perm {store store' : StateStore}
    (h : ∀ name, store'.dirs.lookup name = store.dirs.lookup name) :
    store'.loadAll.Perm store.loadAll := by
  apply List.Perm.filterMap
  apply List.lookup_ext store'.dirs.nodupKeys store.dirs.nodupKeys
  intro name files
  have heq : store'.dirs.entries.dlookup name = store.dirs.entries.dlookup name := h name
  rw [heq]

/-- Writing a configuration changes the VMs on disk exactly when it is new there. -/
theorem loadAll_saveConfig (store : StateStore) (id : String) (config : VmConfig) :
    (store.saveConfig id config).loadAll.Perm store.loadAll ↔
      ¬ ∃ name, vmDir id = some name ∧ (store.dir name).config ≠ some config := by
  unfold saveConfig update
  cases hdir : vmDir id with
  | none => exact iff_of_true (List.Perm.refl _) fun ⟨_, h, _⟩ => nomatch h
  | some name =>
    by_cases hsame : (store.dir name).config = some config
    · refine iff_of_true (loadAll_perm fun name' => ?_) ?_
      · by_cases hname : name' = name
        · subst hname
          have hfiles : { store.dir name' with config := some config } = store.dir name' := by
            rw [← hsame]
          dsimp only
          rw [hfiles, AList.lookup_insert]
          unfold dir at hsame ⊢
          cases hl : store.dirs.lookup name' with
          | none =>
            rw [hl] at hsame
            cases hsame
          | some files => rfl
        · exact AList.lookup_insert_ne hname
      · rintro ⟨name', hname, hne⟩
        cases hname
        exact hne hsame
    · refine iff_of_false (fun hperm => ?_) fun h => h ⟨name, rfl, hsame⟩
      have hmem := (hperm.mem_iff (a := (name, config, recoveredState (store.dir name).state))).1
        (mem_loadAll.2 ⟨_, AList.lookup_insert _, rfl, rfl⟩)
      obtain ⟨files, hlookup, hconfig, -⟩ := mem_loadAll.1 hmem
      apply hsame
      rw [dir, hlookup]
      exact hconfig

end StateStore

/-! ### Operations -/

namespace Manager

variable {m : Manager} {p : ℕ} {files : String → Bool} {faults : Faults}

theorem finishAlone_of_done (h : m.ops p = none) (n : ℕ) : finishAlone p files faults n m = m := by
  cases n with
  | zero => rfl
  | succ n => simp only [finishAlone, h, Option.bind_none]

theorem finishAlone_of_boot {task : Task} (h : m.ops p = some (.boot task)) (n : ℕ) :
    finishAlone p files faults n m = m := by
  cases n with
  | zero => rfl
  | succ n => simp only [finishAlone, h, nextStep, Option.bind_some, Option.bind_none]

/-- The operation `p` makes its next store call. -/
theorem finishAlone_store {op : Op} {fault : Option DaemonError} {m' : Manager}
    (hop : m.ops p = some op) (hnext : nextStep p files faults op = some (.store p fault))
    (hcall : m.storeCall p op fault = some m') (n : ℕ) :
    finishAlone p files faults (n + 1) m = finishAlone p files faults n m' := by
  simp only [finishAlone, hop, Option.bind_some, hnext, step, hcall]

/-- The operation `p` makes its last store call and answers. -/
theorem finishAlone_last {op : Op} {fault : Option DaemonError} {m' : Manager}
    (hop : m.ops p = some op) (hnext : nextStep p files faults op = some (.store p fault))
    (hcall : m.storeCall p op fault = some m') (hdone : m'.ops p = none) (n : ℕ) :
    finishAlone p files faults (n + 1) m = m' := by
  rw [finishAlone_store hop hnext hcall, finishAlone_of_done hdone]

/-- The operation `p` takes the lock again. -/
theorem finishAlone_lock {op : Op} {m' : Manager} (hop : m.ops p = some op)
    (hnext : nextStep p files faults op = some (.lock p files))
    (hlock : m.lockSection p files op = some m') (n : ℕ) :
    finishAlone p files faults (n + 1) m = finishAlone p files faults n m' := by
  simp only [finishAlone, hop, Option.bind_some, hnext, step, hlock]

/-- The operation `p` ends with an error: it leaves the map and the other operations as they were,
and `store` behind. -/
structure Ended (m m' : Manager) (p : ℕ) (store : StateStore) : Prop where
  vms : ∀ id, m'.vms.lookup id = m.vms.lookup id
  store_eq : m'.store = store
  ops : m'.ops = Function.update m.ops p none
  failed : Failed m m' p

theorem Ended.unchanged_iff {m' : Manager} {store : StateStore} (h : Ended m m' p store) :
    Unchanged m m' ↔ store.loadAll.Perm m.store.loadAll := by
  constructor
  · intro hu
    have hperm := hu.loadAll
    rwa [h.store_eq] at hperm
  · intro hperm
    refine ⟨h.vms, by rwa [h.store_eq], fun q task hq => ?_⟩
    rw [h.ops] at hq
    by_cases hqp : q = p
    · subst hqp
      rw [Function.update_self] at hq
      cases hq
    · rwa [Function.update_of_ne hqp] at hq

/-- How the operation `p` ends; `leaves` says that it leaves something behind when it fails. -/
inductive Outcome (m m' : Manager) (p : ℕ) (leaves : Prop) : Prop
  | failed (h : Failed m m' p) (hiff : Unchanged m m' ↔ ¬ leaves)
  | answered (info : Option VmInfo) (h : m'.replies = m.replies ++ [(p, .ok info)])
      (hleaves : ¬ leaves)

theorem Outcome.atomic_iff {m' : Manager} {leaves : Prop} (h : Outcome m m' p leaves) :
    (Failed m m' p → Unchanged m m') ↔ ¬ leaves := by
  cases h with
  | failed h hiff => rw [← hiff, imp_iff_right h]
  | answered info h hleaves =>
    refine iff_of_true (fun ⟨e, he⟩ => ?_) hleaves
    rw [h] at he
    simp at he

theorem Ended.outcome {m' : Manager} {store : StateStore} {leaves : Prop} (h : Ended m m' p store)
    (hiff : store.loadAll.Perm m.store.loadAll ↔ ¬ leaves) : Outcome m m' p leaves :=
  .failed h.failed (h.unchanged_iff.trans hiff)

theorem Ended.of_finish (e : DaemonError) :
    Ended m ((m.finish p).reply p (.error e)) p m.store := ⟨fun _ => rfl, rfl, rfl, e, rfl⟩

/-- The rollback of `create_vm`, after a store call that failed, takes the entry out of the map
again. -/
theorem ended_of_rollback {m' : Manager} {store : StateStore} (id : String) (e : DaemonError)
    (entry : VmEntry) (hvms : m'.vms = m.vms.insert id entry) (hnone : m.vms.lookup id = none)
    (hops : ∀ q, q ≠ p → m'.ops q = m.ops q) (hreplies : m'.replies = m.replies)
    (hstore : m'.store = store) (n : ℕ) :
    Ended m (finishAlone p files faults (n + 1) ((m'.goOn p (.rollback id e)).dequeue p)) p
      store := by
  rw [finishAlone_lock (Function.update_self ..) rfl rfl,
    finishAlone_of_done (Function.update_self ..)]
  refine ⟨fun id' => ?_, hstore, ?_, e, ?_⟩
  · show (m'.vms.erase id).lookup id' = _
    rw [hvms]
    by_cases hid : id' = id
    · rw [hid, AList.lookup_erase, hnone]
    · rw [AList.lookup_erase_ne hid, AList.lookup_insert_ne hid]
  · funext q
    by_cases hq : q = p
    · rw [hq, Function.update_self]
      exact Function.update_self ..
    · rw [Function.update_of_ne hq, ← hops q hq]
      exact (Function.update_of_ne hq ..).trans (Function.update_of_ne hq ..)
  · show m'.replies ++ _ = _
    rw [hreplies]

section Create

variable {id : String} {config : VmConfig}

/-- The entry that `create_vm` inserts. -/
def newEntry (m : Manager) (config : VmConfig) : VmEntry :=
  { config, state := .created, incarnation := m.next }

/-- After the section under the lock of a `create_vm` that is accepted. -/
def accepted (m : Manager) (p : ℕ) (id : String) (config : VmConfig) : Manager :=
  { m with vms := m.vms.insert id (m.newEntry config), next := m.next + 1 }.enqueue p
    (.saveConfig ((m.newEntry config).toInfo id))

/-- After its `save_config`. -/
def configSaved (m : Manager) (p : ℕ) (id : String) (config : VmConfig) : Manager :=
  { (m.accepted p id config).goOn p (.saveCreated ((m.newEntry config).toInfo id)) with
    store := m.store.saveConfig id config }

theorem createVm_accepted (hinvalid : invalidId id = false)
    (hvalid : validateConfig files config = .ok ()) (hlookup : m.vms.lookup id = none) :
    m.createVm p files id config = m.accepted p id config := by
  simp only [createVm, hinvalid, hvalid, createLock, hlookup, accepted, newEntry,
    Bool.false_eq_true, if_false]

theorem accepted_other {q : ℕ} (hq : q ≠ p) : (m.accepted p id config).ops q = m.ops q :=
  Function.update_of_ne hq ..

theorem configSaved_other {q : ℕ} (hq : q ≠ p) : (m.configSaved p id config).ops q = m.ops q :=
  (Function.update_of_ne hq ..).trans (accepted_other hq)

/-- `save_config` fails. -/
theorem accepted_fails {e : DaemonError} (hlookup : m.vms.lookup id = none)
    (hfault : faults.saveConfig = some e) (n : ℕ) :
    Ended m (finishAlone p files faults (n + 2) (m.accepted p id config)) p m.store := by
  have hop : (m.accepted p id config).ops p = some (.saveConfig _) := Function.update_self ..
  rw [finishAlone_store hop rfl (by rw [hfault]; rfl)]
  exact ended_of_rollback id e (m.newEntry config) rfl hlookup (fun _ => accepted_other) rfl rfl n

theorem finishAlone_accepted (hfault : faults.saveConfig = none) (n : ℕ) :
    finishAlone p files faults (n + 1) (m.accepted p id config) =
      finishAlone p files faults n (m.configSaved p id config) := by
  have hop : (m.accepted p id config).ops p = some (.saveConfig _) := Function.update_self ..
  exact finishAlone_store hop rfl (by rw [hfault]; rfl) n

/-- `save_state` fails, and the configuration stays on disk. -/
theorem configSaved_fails {e : DaemonError} (hlookup : m.vms.lookup id = none)
    (hfault : faults.saveState = some e) (n : ℕ) :
    Ended m (finishAlone p files faults (n + 2) (m.configSaved p id config)) p
      (m.store.saveConfig id config) := by
  have hop : (m.configSaved p id config).ops p = some (.saveCreated _) := Function.update_self ..
  rw [finishAlone_store hop rfl (by rw [hfault]; rfl)]
  exact ended_of_rollback id e (m.newEntry config) rfl hlookup (fun _ => configSaved_other) rfl rfl n

theorem configSaved_replies (hfault : faults.saveState = none) (n : ℕ) :
    (finishAlone p files faults (n + 1) (m.configSaved p id config)).replies =
      m.replies ++ [(p, .ok (some ((m.newEntry config).toInfo id)))] := by
  have hop : (m.configSaved p id config).ops p = some (.saveCreated _) := Function.update_self ..
  rw [finishAlone_last hop rfl (by rw [hfault]; rfl) (Function.update_self ..)]
  rfl

/-- `create_vm` from its first section under the lock to its reply. -/
theorem createVm_outcome (n : ℕ) :
    Outcome m (finishAlone p files faults (n + 3) (m.createVm p files id config)) p
      (m.CreateLeaves files faults id config) := by
  -- the reply comes before anything is changed
  have hearly : ∀ e, m.createVm p files id config = (m.finish p).reply p (.error e) →
      ¬ m.CreateLeaves files faults id config →
      Outcome m (finishAlone p files faults (n + 3) (m.createVm p files id config)) p
        (m.CreateLeaves files faults id config) := by
    intro e heq hleaves
    rw [heq, finishAlone_of_done (Function.update_self ..)]
    exact (Ended.of_finish e).outcome (iff_of_true (List.Perm.refl _) hleaves)
  by_cases hinvalid : invalidId id = true
  · refine hearly _ (by rw [createVm, if_pos hinvalid]) fun h => ?_
    rw [h.1] at hinvalid
    cases hinvalid
  cases hvalid : validateConfig files config with
  | error e =>
    refine hearly (.vmm e) (by simp only [createVm, if_neg hinvalid, hvalid]) fun h => ?_
    exact absurd (hvalid.symm.trans h.2.1) (by simp)
  | ok _ =>
    cases hlookup : m.vms.lookup id with
    | some entry =>
      refine hearly (.alreadyExists id)
        (by simp only [createVm, if_neg hinvalid, hvalid, createLock, hlookup]) fun h => ?_
      exact absurd (hlookup.symm.trans h.2.2.1) (by simp)
    | none =>
      rw [Bool.not_eq_true] at hinvalid
      rw [createVm_accepted hinvalid hvalid hlookup]
      rcases Option.eq_none_or_eq_some faults.saveConfig with hconfig | ⟨e, hconfig⟩
      · rw [finishAlone_accepted hconfig]
        rcases Option.eq_none_or_eq_some faults.saveState with hstate | ⟨e, hstate⟩
        · exact .answered _ (configSaved_replies hstate _) fun h => h.2.2.2.2.1 hstate
        · refine (configSaved_fails hlookup hstate n).outcome ?_
          rw [StateStore.loadAll_saveConfig, not_iff_not]
          constructor
          · exact fun h => ⟨hinvalid, hvalid, hlookup, hconfig, by simp [hstate], h⟩
          · exact fun h => h.2.2.2.2.2
      · refine (accepted_fails hlookup hconfig _).outcome (iff_of_true (List.Perm.refl _) ?_)
        intro h
        exact absurd (hconfig.symm.trans h.2.2.2.1) (by simp)

end Create

/-- An operation that only answers with an error. -/
theorem outcome_of_reply (hfresh : m.ops p = none) (e : DaemonError) {leaves : Prop}
    (hleaves : ¬ leaves) :
    Outcome m (finishAlone p files faults 4 (m.reply p (.error e))) p leaves := by
  rw [finishAlone_of_done (by exact hfresh)]
  have hended : Ended m (m.reply p (.error e)) p m.store := by
    refine ⟨fun _ => rfl, rfl, ?_, e, rfl⟩
    rw [← hfresh, Function.update_eq_self]
    rfl
  exact hended.outcome (iff_of_true (List.Perm.refl _) hleaves)

theorem unchanged_goOn {m' : Manager} (hfresh : m.ops p = none) (op : Op)
    (hop : ∀ task, op ≠ .boot task) : Unchanged (m.goOn p op) m' ↔ Unchanged m m' := by
  have hboot : ∀ q task, (m.goOn p op).ops q = some (.boot task) ↔ m.ops q = some (.boot task) := by
    intro q task
    by_cases hq : q = p
    · subst hq
      have hself : (m.goOn q op).ops q = some op := Function.update_self ..
      rw [hself, hfresh, Option.some_inj]
      exact iff_of_false (hop task) (by simp)
    · have hother : (m.goOn p op).ops q = m.ops q := Function.update_of_ne hq ..
      rw [hother]
  constructor
  · exact fun h => ⟨h.vms, h.loadAll, fun q task hq => (hboot q task).1 (h.tasks q task hq)⟩
  · exact fun h => ⟨h.vms, h.loadAll, fun q task hq => (hboot q task).2 (h.tasks q task hq)⟩

theorem clone_outcome (hfresh : m.ops p = none) (src dest : String) :
    Outcome m (m.perform p files faults (.clone src dest)) p
      (m.Leaves files faults (.clone src dest)) := by
  unfold perform
  simp only [Operation.request, call, getVm, Leaves]
  cases hlookup : m.vms.lookup src with
  | none => exact outcome_of_reply hfresh _ (by simp)
  | some entry =>
    simp only [Option.some.injEq, exists_eq_left']
    rw [finishAlone_lock (Function.update_self ..) rfl rfl]
    have hcreate : Outcome (m.goOn p (.cloneCreate dest entry.config))
        (finishAlone p files faults 3 (createVm _ p files dest entry.config)) p
        (m.CreateLeaves files faults dest entry.config) := createVm_outcome 0
    cases hcreate with
    | failed h hiff =>
      rw [unchanged_goOn hfresh (.cloneCreate dest entry.config) (by simp)] at hiff
      exact .failed h hiff
    | answered info h hleaves => exact .answered info h hleaves

/-- `start_vm` after its section under the lock, and `save_state` fails. -/
theorem saveRunning_fails {m' : Manager} {info : VmInfo} {task : Task} {e : DaemonError}
    (hop : m'.ops p = some (.saveRunning info task)) (hfault : faults.saveState = some e) (n : ℕ) :
    finishAlone p files faults (n + 1) m' = ((m'.finish p).dequeue p).reply p (.error e) := by
  rw [finishAlone_last hop rfl (by rw [hfault]; rfl) (Function.update_self ..)]

theorem saveRunning_replies {m' : Manager} {info : VmInfo} {task : Task}
    (hop : m'.ops p = some (.saveRunning info task)) (hfault : faults.saveState = none) (n : ℕ) :
    (finishAlone p files faults (n + 1) m').replies = m'.replies ++ [(p, .ok (some info))] := by
  rw [finishAlone_store hop rfl (by rw [hfault]; rfl)]
  rw [finishAlone_of_boot (Function.update_self ..)]
  rfl

/-- `delete_vm` after its section under the lock, and `delete` fails. -/
theorem deleteDir_fails {m' : Manager} {id : String} {e : DaemonError}
    (hop : m'.ops p = some (.deleteDir id)) (hfault : faults.delete = some e) (n : ℕ) :
    finishAlone p files faults (n + 1) m' = ((m'.finish p).dequeue p).reply p (.error e) := by
  rw [finishAlone_last hop rfl (by rw [hfault]; rfl) (Function.update_self ..)]

theorem deleteDir_replies {m' : Manager} {id : String}
    (hop : m'.ops p = some (.deleteDir id)) (hfault : faults.delete = none) (n : ℕ) :
    (finishAlone p files faults (n + 1) m').replies = m'.replies ++ [(p, .ok none)] := by
  rw [finishAlone_last hop rfl (by rw [hfault]; rfl) (Function.update_self ..)]
  rfl

theorem start_outcome (id : String) :
    Outcome m (m.perform p files faults (.start id)) p (m.Leaves files faults (.start id)) := by
  unfold perform
  simp only [Operation.request, call, startVm, startLock, Leaves]
  cases hlookup : m.vms.lookup id with
  | none =>
    dsimp only
    rw [finishAlone_of_done (Function.update_self ..)]
    exact (Ended.of_finish _).outcome (iff_of_true (List.Perm.refl _) (by simp))
  | some entry =>
    simp only [Option.some.injEq, exists_eq_left']
    by_cases hstate : entry.state = .created
    · simp only [hstate, ne_eq, not_true_eq_false, if_false, true_and]
      rcases Option.eq_none_or_eq_some faults.saveState with hfault | ⟨e, hfault⟩
      · exact .answered _ (saveRunning_replies (Function.update_self ..) hfault 3)
          (not_not.2 hfault)
      · -- the entry is running, and there is no task
        rw [saveRunning_fails (Function.update_self ..) hfault]
        refine .failed ⟨e, rfl⟩ (iff_of_false (fun h => ?_) (by simp [hfault]))
        have hvms : (AList.insert id _ m.vms).lookup id = _ := h.vms id
        rw [AList.lookup_insert, hlookup, Option.some_inj] at hvms
        rw [← hvms] at hstate
        cases hstate
    · simp only [hstate, ne_eq, not_false_eq_true, if_true]
      rw [finishAlone_of_done (Function.update_self ..)]
      exact (Ended.of_finish _).outcome (iff_of_true (List.Perm.refl _) (by simp))

theorem delete_outcome (hfresh : m.ops p = none) (id : String) :
    Outcome m (m.perform p files faults (.delete id)) p (m.Leaves files faults (.delete id)) := by
  unfold perform
  simp only [Operation.request, call, deleteLock, Leaves]
  cases hlookup : m.vms.lookup id with
  | none => exact outcome_of_reply hfresh _ (by simp)
  | some entry =>
    simp only [Option.some.injEq, exists_eq_left']
    by_cases hstate : entry.state = .running
    · simp only [hstate, if_true]
      exact outcome_of_reply hfresh _ (by simp)
    · simp only [hstate, if_false, ne_eq, not_false_eq_true, true_and]
      rcases Option.eq_none_or_eq_some faults.delete with hfault | ⟨e, hfault⟩
      · exact .answered _ (deleteDir_replies (Function.update_self ..) hfault 3) (not_not.2 hfault)
      · -- the entry is gone, and the directory is not
        rw [deleteDir_fails (Function.update_self ..) hfault]
        refine .failed ⟨e, rfl⟩ (iff_of_false (fun h => ?_) (by simp [hfault]))
        have hvms : (m.vms.erase id).lookup id = m.vms.lookup id := h.vms id
        rw [AList.lookup_erase, hlookup] at hvms
        cases hvms

theorem perform_outcome (hfresh : m.ops p = none) (operation : Operation) :
    Outcome m (m.perform p files faults operation) p (m.Leaves files faults operation) := by
  cases operation with
  | create id config => exact createVm_outcome 1
  | clone src dest => exact clone_outcome hfresh src dest
  | start id => exact start_outcome id
  | delete id => exact delete_outcome hfresh id

/-- Every operation is over within its four steps: it has answered once. -/
theorem perform_answers (hfresh : m.ops p = none) (operation : Operation) :
    ∃ r, (m.perform p files faults operation).replies = m.replies ++ [(p, r)] := by
  have houtcome : Outcome m (m.perform p files faults operation) p _ :=
    perform_outcome hfresh operation
  cases houtcome with
  | failed h _ =>
    obtain ⟨e, he⟩ := h
    exact ⟨_, he⟩
  | answered info h _ => exact ⟨_, h⟩

/-- `create_vm` of a VM, called first. -/
def createFirst (faults : Faults) : Manager :=
  (new {}).perform 0 (fun _ => true) faults
    (.create "vm" { kernelPath := "vmlinux", ramMib := 256 })

end Manager

end Hitz.Daemon
