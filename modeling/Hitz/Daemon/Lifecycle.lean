import Hitz.Daemon.VmManager

/-!
# The lifecycle of a VM

The exit task looks its entry up again by id, after an arbitrary delay.  That the entry it finds is
the one its start set running rests on the invariant below: as long as a start or exit task is
under way, the entry of its id is the incarnation it started and is running, and a running entry is
never removed.

`Life` is the part of the manager the lifecycle depends on, `Life.Move` what a step can do to it.
-/

namespace Hitz.Daemon

open Api

section Lookup

variable {vms : AList fun _ : String => VmEntry} {id id' : String} {e e' : VmEntry}

theorem lookup_insert_some (h : (vms.insert id e).lookup id' = some e') :
    (id' = id ∧ e' = e) ∨ (id' ≠ id ∧ vms.lookup id' = some e') := by
  by_cases hid : id' = id
  · subst hid
    rw [AList.lookup_insert] at h
    exact Or.inl ⟨rfl, (Option.some.inj h).symm⟩
  · rw [AList.lookup_insert_ne hid] at h
    exact Or.inr ⟨hid, h⟩

theorem lookup_erase_some (h : (vms.erase id).lookup id' = some e') :
    id' ≠ id ∧ vms.lookup id' = some e' := by
  by_cases hid : id' = id
  · subst hid
    rw [AList.lookup_erase] at h
    cases h
  · rw [AList.lookup_erase_ne hid] at h
    exact ⟨hid, h⟩

/-- Replacing an entry by one of the same incarnation adds no incarnation. -/
theorem incarnation_of_replaced {entry : VmEntry} (hentry : vms.lookup id = some entry)
    (hinc : e.incarnation = entry.incarnation) (h : (vms.insert id e).lookup id' = some e') :
    ∃ e'', vms.lookup id' = some e'' ∧ e''.incarnation = e'.incarnation := by
  rcases lookup_insert_some h with ⟨rfl, rfl⟩ | ⟨-, h⟩
  · exact ⟨entry, hentry, hinc.symm⟩
  · exact ⟨e', h, rfl⟩

/-- A key that tells the entries apart (where `P` holds of it) still does after an insert, when no
other entry has the key of the inserted one. -/
theorem inj_insert {α : Type} (key : VmEntry → α) (P : α → Prop)
    (hinj : ∀ {id₁ id₂ e₁ e₂}, vms.lookup id₁ = some e₁ → vms.lookup id₂ = some e₂ →
      P (key e₁) → key e₁ = key e₂ → id₁ = id₂)
    (hnew : ∀ {id' e'}, id' ≠ id → vms.lookup id' = some e' → P (key e) → key e' ≠ key e)
    {id₁ id₂ : String} {e₁ e₂ : VmEntry} (h₁ : (vms.insert id e).lookup id₁ = some e₁)
    (h₂ : (vms.insert id e).lookup id₂ = some e₂) (hP : P (key e₁)) (heq : key e₁ = key e₂) :
    id₁ = id₂ := by
  rcases lookup_insert_some h₁ with ⟨rfl, rfl⟩ | ⟨hne₁, h₁'⟩ <;>
    rcases lookup_insert_some h₂ with ⟨rfl, rfl⟩ | ⟨hne₂, h₂'⟩
  · rfl
  · exact absurd heq.symm (hnew hne₂ h₂' hP)
  · rw [heq] at hP
    exact absurd heq (hnew hne₁ h₁' hP)
  · exact hinj h₁' h₂' hP heq

theorem update_eq_some {α : Type} {f : ℕ → Option α} {p q : ℕ} {o : Option α} {a : α}
    (h : Function.update f p o q = some a) :
    (q = p ∧ o = some a) ∨ (q ≠ p ∧ f q = some a) := by
  by_cases hq : q = p
  · subst hq
    rw [Function.update_self] at h
    exact Or.inl ⟨rfl, h⟩
  · rw [Function.update_of_ne hq] at h
    exact Or.inr ⟨hq, h⟩

/-- A key that tells the values of a function apart still does after an update with a new key. -/
theorem inj_update {α β : Type} {f : ℕ → Option α} {p : ℕ} {a : α} (key : α → β)
    (hinj : ∀ {q r b c}, f q = some b → f r = some c → key b = key c → q = r)
    (hnew : ∀ {r c}, f r = some c → key c ≠ key a) {q r : ℕ} {b c : α}
    (hq : Function.update f p (some a) q = some b) (hr : Function.update f p (some a) r = some c)
    (heq : key b = key c) : q = r := by
  rcases update_eq_some hq with ⟨rfl, hq'⟩ | ⟨-, hq'⟩ <;>
    rcases update_eq_some hr with ⟨rfl, hr'⟩ | ⟨-, hr'⟩
  · rfl
  · cases hq'
    exact absurd heq.symm (hnew hr')
  · cases hr'
    exact absurd heq (hnew hq')
  · exact hinj hq' hr' heq

end Lookup

/-! ### The part of the manager that the lifecycle depends on -/

/-- The entries, the start and exit tasks under way, and the logs of both. -/
structure Life where
  vms : AList fun _ : String => VmEntry
  tasks : ℕ → Option Task
  closedBufs : ℕ → Bool
  next : ℕ
  started : List ℕ
  exited : List ℕ

/-- The lifecycle view of a manager. -/
def Manager.life (m : Manager) : Life where
  vms := m.vms
  tasks := fun p => (m.ops p).bind Op.task
  closedBufs := m.closedBufs
  next := m.next
  started := m.started
  exited := m.exited

namespace Life

/-- Insert a new incarnation. -/
def insert (s : Life) (id : String) (config : VmConfig) (state : VmState) : Life :=
  { s with
    vms := s.vms.insert id { config, state, incarnation := s.next }
    next := s.next + 1 }

/-- The entry that a start leaves behind. -/
def startedEntry (s : Life) (entry : VmEntry) : VmEntry :=
  { entry with state := .running, stopFlag := some s.next, serialBuf := some (s.next + 1) }

/-- The task `p` sets an entry running. -/
def start (s : Life) (p : ℕ) (id : String) (entry : VmEntry) : Life :=
  { s with
    vms := s.vms.insert id (s.startedEntry entry)
    tasks := Function.update s.tasks p (some ⟨id, entry.incarnation, s.next, s.next + 1⟩)
    closedBufs := Function.update s.closedBufs (s.next + 1) false
    next := s.next + 2
    started := s.started ++ [entry.incarnation] }

/-- The entry that an exit task leaves behind. -/
def exitedEntry (entry : VmEntry) (result : TaskResult) : VmEntry :=
  { entry with state := result.outcome.1, exitReason := some result.outcome.2, stopFlag := none }

/-- The task `p` makes its exit update. -/
def exit (s : Life) (p : ℕ) (task : Task) (entry : VmEntry) (result : TaskResult) : Life :=
  { s with
    vms := s.vms.insert task.id (exitedEntry entry result)
    tasks := Function.update s.tasks p none
    closedBufs := match entry.serialBuf with
      | none => s.closedBufs
      | some buf => Function.update s.closedBufs buf true
    exited := s.exited ++ [task.incarnation] }

/-- What a step of the operation `p` can do. -/
inductive Move (s : Life) (p : ℕ) : Life → Prop
  | same : Move s p s
  | create (id : String) (config : VmConfig) (hnone : s.vms.lookup id = none) :
      Move s p (s.insert id config .created)
  | start (hidle : s.tasks p = none) (id : String) (entry : VmEntry)
      (hentry : s.vms.lookup id = some entry) (hcreated : entry.state = .created) :
      Move s p (s.start p id entry)
  | remove (id : String) (entry : VmEntry) (hentry : s.vms.lookup id = some entry)
      (hstate : entry.state ≠ .running) : Move s p { s with vms := s.vms.erase id }
  | exit (task : Task) (htask : s.tasks p = some task) (entry : VmEntry)
      (hentry : s.vms.lookup task.id = some entry) (result : TaskResult) :
      Move s p (s.exit p task entry result)
  | exitGone (task : Task) (htask : s.tasks p = some task)
      (hnone : s.vms.lookup task.id = none) : Move s p { s with
        tasks := Function.update s.tasks p none }

end Life

section Refinement

variable {m m' : Manager} {p : ℕ} {dest : Option String}

/-- The tasks after the operation `p` has gone on. -/
theorem tasks_update (ops : ℕ → Option Op) (p : ℕ) (op : Option Op) :
    (fun q => (Function.update ops p op q).bind Op.task) =
      Function.update (fun q => (ops q).bind Op.task) p (op.bind Op.task) := by
  funext q
  by_cases hq : q = p
  · subst hq
    simp
  · simp [Function.update_of_ne hq]

theorem tasks_update_same {ops : ℕ → Option Op} {p : ℕ} {op : Option Op}
    (h : op.bind Op.task = (ops p).bind Op.task) :
    (fun q => (Function.update ops p op q).bind Op.task) = fun q => (ops q).bind Op.task := by
  rw [tasks_update, h]
  exact Function.update_eq_self p _

theorem task_of_light {op : Option Op} (h : Manager.Light op) : op.bind Op.task = none := by
  cases op with
  | none => rfl
  | some op =>
    cases op with
    | cloneCreate _ _ => rfl
    | awaitStop _ _ => rfl
    | restartStart _ => rfl
    | _ => cases h

/-- Every move of the manager is one of its lifecycle view, unless it is a rollback. -/
theorem life_move (hroll : ∀ id e, m.ops p ≠ some (.rollback id e)) (h : m.Move p dest m') :
    m.life.Move p m'.life := by
  unfold Manager.life
  cases h with
  | light hold op hnew hclone stopFlags replies =>
    rw [tasks_update_same ((task_of_light hnew).trans (task_of_light hold).symm)]
    exact Life.Move.same
  | create hold id config hnone info hid hconfig hdest =>
    rw [tasks_update_same (by rw [task_of_light hold]; rfl)]
    exact Life.Move.create (s := m.life) id config hnone
  | start hold id entry hentry hcreated info hid stopFlags =>
    rw [tasks_update]
    exact Life.Move.start (s := m.life) (task_of_light hold) id entry hentry hcreated
  | remove hold id entry hentry hstate =>
    rw [tasks_update_same (by rw [task_of_light hold]; rfl)]
    exact Life.Move.remove (s := m.life) id entry hentry hstate
  | savedConfig info hop =>
    rw [tasks_update_same (by rw [hop]; rfl)]
    exact Life.Move.same
  | savedCreated info hop replies =>
    rw [tasks_update_same (by rw [hop]; rfl)]
    exact Life.Move.same
  | savedRunning info task hop replies =>
    rw [tasks_update_same (by rw [hop]; rfl)]
    exact Life.Move.same
  | savedExit id state hop =>
    rw [tasks_update_same (by rw [hop]; rfl)]
    exact Life.Move.same
  | deleted id hop replies =>
    rw [tasks_update_same (by rw [hop]; rfl)]
    exact Life.Move.same
  | returned task hop result stopFlags =>
    rw [tasks_update_same (by rw [hop]; rfl)]
    exact Life.Move.same
  | exit task result hop entry hentry =>
    rw [tasks_update]
    have htask : m.life.tasks p = some task := by simp [Manager.life, hop, Op.task]
    exact Life.Move.exit (s := m.life) task htask entry hentry result
  | exitGone task result hop hnone =>
    rw [tasks_update]
    have htask : m.life.tasks p = some task := by simp [Manager.life, hop, Op.task]
    exact Life.Move.exitGone (s := m.life) task htask hnone
  | rollback id e hop replies => exact absurd hop (hroll id e)

end Refinement

/-! ### The invariant -/

/-- The entry is the one that the task set running. -/
structure VmEntry.RunBy (e : VmEntry) (task : Task) : Prop where
  state : e.state = .running
  incarnation : e.incarnation = task.incarnation
  stopFlag : e.stopFlag = some task.stopFlag
  serialBuf : e.serialBuf = some task.serialBuf

namespace Life

/-- What the logs say about an entry in each state. -/
def Logged (s : Life) (e : VmEntry) : Prop :=
  match e.state with
  | .created => e.incarnation ∉ s.started ∧ e.incarnation ∉ s.exited
  | .running => s.started.count e.incarnation = 1 ∧ e.incarnation ∉ s.exited
  | _ => e.stopFlag = none ∧ (e.incarnation ∈ s.started → e.incarnation ∈ s.exited) ∧
      (e.incarnation ∈ s.exited → ∃ buf, e.serialBuf = some buf ∧ s.closedBufs buf = true)

/-- The identities of an entry are in use. -/
structure InUse (s : Life) (e : VmEntry) : Prop where
  incarnation : e.incarnation < s.next
  stopFlag : ∀ flag, e.stopFlag = some flag → flag < s.next
  serialBuf : ∀ buf, e.serialBuf = some buf → buf < s.next

theorem InUse.mono {s s' : Life} {e : VmEntry} (h : s.InUse e) (hle : s.next ≤ s'.next) :
    s'.InUse e :=
  ⟨h.incarnation.trans_le hle, fun f hf => (h.stopFlag f hf).trans_le hle,
    fun b hb => (h.serialBuf b hb).trans_le hle⟩

/-- The lifecycle invariant. -/
structure Inv (s : Life) : Prop where
  inUse : ∀ {id e}, s.vms.lookup id = some e → s.InUse e
  logs : ∀ i, i ∈ s.started ∨ i ∈ s.exited → i < s.next
  incarnation_inj : ∀ {id id' e e'}, s.vms.lookup id = some e → s.vms.lookup id' = some e' →
    e.incarnation = e'.incarnation → id = id'
  flag_inj : ∀ {id id' e e'}, s.vms.lookup id = some e → s.vms.lookup id' = some e' →
    e.stopFlag ≠ none → e.stopFlag = e'.stopFlag → id = id'
  runBy : ∀ {p task}, s.tasks p = some task →
    ∃ e, s.vms.lookup task.id = some e ∧ e.RunBy task
  task_inj : ∀ {p q task task'}, s.tasks p = some task → s.tasks q = some task' →
    task.id = task'.id → p = q
  task_of_running : ∀ {id e}, s.vms.lookup id = some e → e.state = .running →
    ∃ p task, s.tasks p = some task ∧ task.id = id
  logged : ∀ {id e}, s.vms.lookup id = some e → s.Logged e

/-- No task is under way on an entry that is not running. -/
theorem Inv.no_task {s : Life} (h : s.Inv) {id : String} {e : VmEntry}
    (he : s.vms.lookup id = some e) (hstate : e.state ≠ .running) {p : ℕ} {task : Task}
    (htask : s.tasks p = some task) : task.id ≠ id := by
  rintro rfl
  obtain ⟨e', he', hrun⟩ := h.runBy htask
  obtain rfl := Option.some.inj (he.symm.trans he')
  exact hstate hrun.state

/-- The logs say the same of an entry when they and its buffer are as before. -/
theorem Logged.congr {s s' : Life} {e : VmEntry} (h : s.Logged e)
    (hstarted : s'.started.count e.incarnation = s.started.count e.incarnation)
    (hexited : e.incarnation ∈ s'.exited ↔ e.incarnation ∈ s.exited)
    (hclosed : ∀ buf, e.serialBuf = some buf → s.closedBufs buf = true →
      s'.closedBufs buf = true) : s'.Logged e := by
  have hmem : e.incarnation ∈ s'.started ↔ e.incarnation ∈ s.started := by
    rw [← List.count_pos_iff, ← List.count_pos_iff, hstarted]
  have hdone : (e.stopFlag = none ∧ (e.incarnation ∈ s.started → e.incarnation ∈ s.exited) ∧
      (e.incarnation ∈ s.exited → ∃ buf, e.serialBuf = some buf ∧ s.closedBufs buf = true)) →
      e.stopFlag = none ∧ (e.incarnation ∈ s'.started → e.incarnation ∈ s'.exited) ∧
      (e.incarnation ∈ s'.exited → ∃ buf, e.serialBuf = some buf ∧ s'.closedBufs buf = true) := by
    rintro ⟨hflag, hexit, hbuf⟩
    refine ⟨hflag, fun hs => hexited.2 (hexit (hmem.1 hs)), fun hx => ?_⟩
    obtain ⟨buf, hb, hc⟩ := hbuf (hexited.1 hx)
    exact ⟨buf, hb, hclosed buf hb hc⟩
  unfold Logged at *
  cases hstate : e.state with
  | created =>
    rw [hstate] at h
    exact ⟨fun hs => h.1 (hmem.1 hs), fun hx => h.2 (hexited.1 hx)⟩
  | running =>
    rw [hstate] at h
    exact ⟨hstarted.trans h.1, fun hx => h.2 (hexited.1 hx)⟩
  | stopped =>
    rw [hstate] at h
    exact hdone h
  | failed =>
    rw [hstate] at h
    exact hdone h

/-- Nothing is there yet. -/
theorem inv_empty : Inv ⟨∅, fun _ => none, fun _ => false, 0, [], []⟩ := by
  have hnone : ∀ id (e : VmEntry), (∅ : AList fun _ : String => VmEntry).lookup id ≠ some e := by
    intro id e he
    rw [AList.lookup_empty] at he
    cases he
  constructor
  case inUse => exact fun he => absurd he (hnone _ _)
  case logs => simp
  case incarnation_inj => exact fun he => absurd he (hnone _ _)
  case flag_inj => exact fun he => absurd he (hnone _ _)
  case runBy => exact nofun
  case task_inj => exact nofun
  case task_of_running => exact fun he => absurd he (hnone _ _)
  case logged => exact fun he => absurd he (hnone _ _)

variable {s : Life}

/-- A new incarnation, in place of an entry that is not running. -/
theorem Inv.insert (h : s.Inv) {id : String} {state : VmState} (config : VmConfig)
    (hold : ∀ e, s.vms.lookup id = some e → e.state ≠ .running) (hstate : state ≠ .running) :
    (s.insert id config state).Inv := by
  have hnew : ∀ {id' e}, s.vms.lookup id' = some e → e.incarnation ≠ s.next :=
    fun he => (h.inUse he).incarnation.ne
  have hlogs : s.next ∉ s.started ∧ s.next ∉ s.exited :=
    ⟨fun hi => (h.logs _ (Or.inl hi)).false, fun hi => (h.logs _ (Or.inr hi)).false⟩
  constructor
  case inUse =>
    intro id' e he
    rcases lookup_insert_some he with ⟨rfl, rfl⟩ | ⟨-, he⟩
    · exact ⟨Nat.lt_succ_self _, nofun, nofun⟩
    · exact (h.inUse he).mono (Nat.le_succ _)
  case logs => exact fun i hi => (h.logs i hi).trans (Nat.lt_succ_self _)
  case incarnation_inj =>
    intro id₁ id₂ e₁ e₂ h₁ h₂
    exact inj_insert VmEntry.incarnation (fun _ => True) (fun h₁ h₂ _ => h.incarnation_inj h₁ h₂)
      (fun _ he _ => hnew he) h₁ h₂ trivial
  case flag_inj =>
    exact inj_insert VmEntry.stopFlag (· ≠ none) h.flag_inj fun _ _ hsome => absurd rfl hsome
  case runBy =>
    intro p task htask
    obtain ⟨e, he, hrun⟩ := h.runBy htask
    have hne : task.id ≠ id := by
      rintro rfl
      exact hold e he hrun.state
    exact ⟨e, by rw [← he]; exact AList.lookup_insert_ne hne, hrun⟩
  case task_inj => exact h.task_inj
  case task_of_running =>
    intro id' e he hrun
    rcases lookup_insert_some he with ⟨rfl, rfl⟩ | ⟨-, he⟩
    · exact absurd hrun hstate
    · exact h.task_of_running he hrun
  case logged =>
    intro id' e he
    rcases lookup_insert_some he with ⟨rfl, rfl⟩ | ⟨-, he⟩
    · cases state with
      | created => exact hlogs
      | running => exact absurd rfl hstate
      | stopped => exact ⟨rfl, fun hs => absurd hs hlogs.1, fun hx => absurd hx hlogs.2⟩
      | failed => exact ⟨rfl, fun hs => absurd hs hlogs.1, fun hx => absurd hx hlogs.2⟩
    · exact (h.logged he).congr rfl Iff.rfl fun _ _ hc => hc

/-- An entry that is not running may be removed. -/
theorem Inv.remove (h : s.Inv) {id : String} {entry : VmEntry}
    (hentry : s.vms.lookup id = some entry) (hstate : entry.state ≠ .running) :
    Inv { s with vms := s.vms.erase id } := by
  have hold : ∀ {id' e}, (s.vms.erase id).lookup id' = some e → s.vms.lookup id' = some e :=
    fun he => (lookup_erase_some he).2
  constructor
  case inUse => exact fun he => (h.inUse (hold he)).mono le_rfl
  case logs => exact h.logs
  case incarnation_inj => exact fun h₁ h₂ => h.incarnation_inj (hold h₁) (hold h₂)
  case flag_inj => exact fun h₁ h₂ => h.flag_inj (hold h₁) (hold h₂)
  case runBy =>
    intro p task htask
    obtain ⟨e, he, hrun⟩ := h.runBy htask
    have hne : task.id ≠ id := h.no_task hentry hstate htask
    exact ⟨e, by rw [← he]; exact AList.lookup_erase_ne hne, hrun⟩
  case task_inj => exact h.task_inj
  case task_of_running => exact fun he hrun => h.task_of_running (hold he) hrun
  case logged => exact fun he => (h.logged (hold he)).congr rfl Iff.rfl fun _ _ hc => hc

/-- A start logs the incarnation of the created entry, which the logs did not have yet. -/
theorem Inv.logged_start (h : s.Inv) {p : ℕ} {id : String} {entry : VmEntry}
    (hentry : s.vms.lookup id = some entry) (hcreated : entry.state = .created)
    {id' : String} {e : VmEntry} (he : (s.start p id entry).vms.lookup id' = some e) :
    (s.start p id entry).Logged e := by
  have hlog : entry.incarnation ∉ s.started ∧ entry.incarnation ∉ s.exited := by
    have hlog := h.logged hentry
    unfold Logged at hlog
    rwa [hcreated] at hlog
  rcases lookup_insert_some he with ⟨rfl, rfl⟩ | ⟨hne, he'⟩
  · refine ⟨?_, hlog.2⟩
    simp [Life.start, startedEntry, List.count_eq_zero_of_not_mem hlog.1]
  · have hinc' : e.incarnation ≠ entry.incarnation :=
      fun heq => hne (h.incarnation_inj he' hentry heq)
    refine (h.logged he').congr ?_ Iff.rfl fun buf hbuf hclosed => ?_
    · simp [Life.start, List.count_append, Ne.symm hinc']
    · have hlt : buf < s.next := (h.inUse he').serialBuf buf hbuf
      simp only [Life.start]
      rwa [Function.update_of_ne (by omega)]

/-- A start of a created entry. -/
theorem Inv.start (h : s.Inv) {p : ℕ} (hidle : s.tasks p = none) {id : String} {entry : VmEntry}
    (hentry : s.vms.lookup id = some entry) (hcreated : entry.state = .created) :
    (s.start p id entry).Inv := by
  have hnotrun : entry.state ≠ .running := by
    rw [hcreated]
    decide
  have hflag : ∀ {id' e}, s.vms.lookup id' = some e → e.stopFlag ≠ some s.next :=
    fun he hf => ((h.inUse he).stopFlag _ hf).false
  constructor
  case inUse =>
    intro id' e he
    rcases lookup_insert_some he with ⟨rfl, rfl⟩ | ⟨-, he⟩
    · refine ⟨(h.inUse hentry).incarnation.trans (by simp [Life.start]), ?_, ?_⟩
      · rintro _ ⟨⟩
        simp [Life.start]
      · rintro _ ⟨⟩
        simp [Life.start]
    · exact (h.inUse he).mono (by simp [Life.start])
  case logs =>
    intro i hi
    have hle : s.next ≤ (s.start p id entry).next := by simp [Life.start]
    rcases hi with hi | hi
    · rcases List.mem_append.1 hi with hi | hi
      · exact (h.logs i (Or.inl hi)).trans_le hle
      · rw [List.mem_singleton.1 hi]
        exact (h.inUse hentry).incarnation.trans_le hle
    · exact (h.logs i (Or.inr hi)).trans_le hle
  case incarnation_inj =>
    intro id₁ id₂ e₁ e₂ h₁ h₂
    exact inj_insert (e := s.startedEntry entry) VmEntry.incarnation (fun _ => True)
      (fun h₁ h₂ _ => h.incarnation_inj h₁ h₂)
      (fun hne he _ heq => hne (h.incarnation_inj he hentry heq)) h₁ h₂ trivial
  case flag_inj =>
    exact inj_insert VmEntry.stopFlag (· ≠ none) h.flag_inj fun _ he _ => hflag he
  case runBy =>
    intro q task htask
    rcases update_eq_some htask with ⟨rfl, hnew⟩ | ⟨-, hold⟩
    · cases hnew
      exact ⟨s.startedEntry entry, AList.lookup_insert _, ⟨rfl, rfl, rfl, rfl⟩⟩
    · obtain ⟨e, he, hrun⟩ := h.runBy hold
      refine ⟨e, ?_, hrun⟩
      rw [← he]
      exact AList.lookup_insert_ne (h.no_task hentry hnotrun hold)
  case task_inj =>
    exact inj_update Task.id h.task_inj (h.no_task hentry hnotrun)
  case task_of_running =>
    intro id' e he hrun
    rcases lookup_insert_some he with ⟨rfl, rfl⟩ | ⟨-, he'⟩
    · exact ⟨p, _, Function.update_self .., rfl⟩
    · obtain ⟨q, task, htask, hid⟩ := h.task_of_running he' hrun
      have hq : q ≠ p := by
        rintro rfl
        rw [hidle] at htask
        cases htask
      exact ⟨q, task, (Function.update_of_ne hq ..).trans htask, hid⟩
  case logged => exact fun he => h.logged_start hentry hcreated he

/-- An exit logs the incarnation of the task and closes its buffer. -/
theorem Inv.logged_exit (h : s.Inv) {p : ℕ} {task : Task} {entry : VmEntry}
    (hentry : s.vms.lookup task.id = some entry) (hrun : entry.RunBy task) {result : TaskResult}
    {id' : String} {e : VmEntry} (he : (s.exit p task entry result).vms.lookup id' = some e) :
    (s.exit p task entry result).Logged e := by
  have hclosed : (s.exit p task entry result).closedBufs =
      Function.update s.closedBufs task.serialBuf true := by
    simp only [Life.exit, hrun.serialBuf]
  rcases lookup_insert_some he with ⟨rfl, rfl⟩ | ⟨hne, he'⟩
  · have hdone : (none : Option ℕ) = none ∧
        (entry.incarnation ∈ s.started → entry.incarnation ∈ s.exited ++ [task.incarnation]) ∧
        (entry.incarnation ∈ s.exited ++ [task.incarnation] → ∃ buf, entry.serialBuf = some buf ∧
          (s.exit p task entry result).closedBufs buf = true) := by
      refine ⟨rfl, fun _ => by simp [hrun.incarnation], fun _ => ?_⟩
      exact ⟨task.serialBuf, hrun.serialBuf, by rw [hclosed, Function.update_self]⟩
    unfold Logged
    rcases result.outcome_state with hs | hs
    · rw [show (exitedEntry entry result).state = .stopped from hs]
      exact hdone
    · rw [show (exitedEntry entry result).state = .failed from hs]
      exact hdone
  · have hinc' : e.incarnation ≠ task.incarnation := by
      rw [← hrun.incarnation]
      exact fun heq => hne (h.incarnation_inj he' hentry heq)
    refine (h.logged he').congr rfl ?_ fun buf hbuf hc => ?_
    · simp [Life.exit, hinc']
    · rw [hclosed]
      by_cases hb : buf = task.serialBuf
      · rw [hb, Function.update_self]
      · rwa [Function.update_of_ne hb]

/-- The exit update of a task: the entry it finds is the one the task set running. -/
theorem Inv.exit (h : s.Inv) {p : ℕ} {task : Task} (htask : s.tasks p = some task)
    {entry : VmEntry} (hentry : s.vms.lookup task.id = some entry) (result : TaskResult) :
    (s.exit p task entry result).Inv := by
  have hrun : entry.RunBy task := by
    obtain ⟨e, he, hrun⟩ := h.runBy htask
    rwa [Option.some.inj (hentry.symm.trans he)]
  have hstate : (exitedEntry entry result).state ≠ .running := by
    rcases result.outcome_state with hs | hs <;> simp [exitedEntry, hs]
  constructor
  case inUse =>
    intro id' e he
    rcases lookup_insert_some he with ⟨rfl, rfl⟩ | ⟨-, he'⟩
    · exact ⟨(h.inUse hentry).incarnation, nofun, (h.inUse hentry).serialBuf⟩
    · exact (h.inUse he').mono le_rfl
  case logs =>
    rintro i (hi | hi)
    · exact h.logs i (Or.inl hi)
    · rcases List.mem_append.1 hi with hi | hi
      · exact h.logs i (Or.inr hi)
      · rw [List.mem_singleton.1 hi, ← hrun.incarnation]
        exact (h.inUse hentry).incarnation
  case incarnation_inj =>
    intro id₁ id₂ e₁ e₂ h₁ h₂
    exact inj_insert (e := exitedEntry entry result) VmEntry.incarnation (fun _ => True)
      (fun h₁ h₂ _ => h.incarnation_inj h₁ h₂)
      (fun hne he _ heq => hne (h.incarnation_inj he hentry heq)) h₁ h₂ trivial
  case flag_inj =>
    exact inj_insert VmEntry.stopFlag (· ≠ none) h.flag_inj fun _ _ hsome => absurd rfl hsome
  case runBy =>
    intro q task' htask'
    rcases update_eq_some htask' with ⟨rfl, hnew⟩ | ⟨hne, hold⟩
    · cases hnew
    · obtain ⟨e, he, hrun'⟩ := h.runBy hold
      refine ⟨e, ?_, hrun'⟩
      rw [← he]
      exact AList.lookup_insert_ne fun hid => hne (h.task_inj hold htask hid)
  case task_inj =>
    intro q r t t' hq hr hid
    rcases update_eq_some hq with ⟨rfl, hq'⟩ | ⟨-, hq'⟩
    · cases hq'
    rcases update_eq_some hr with ⟨rfl, hr'⟩ | ⟨-, hr'⟩
    · cases hr'
    · exact h.task_inj hq' hr' hid
  case task_of_running =>
    intro id' e he hrunning
    rcases lookup_insert_some he with ⟨rfl, rfl⟩ | ⟨hne, he'⟩
    · exact absurd hrunning hstate
    · obtain ⟨q, t, ht, hid⟩ := h.task_of_running he' hrunning
      have hq : q ≠ p := by
        rintro rfl
        obtain rfl := Option.some.inj (htask.symm.trans ht)
        exact hne hid.symm
      exact ⟨q, t, (Function.update_of_ne hq ..).trans ht, hid⟩
  case logged => exact fun he => h.logged_exit hentry hrun he

theorem Inv.move (h : s.Inv) {p : ℕ} {s' : Life} (hmove : s.Move p s') : s'.Inv := by
  cases hmove with
  | same => exact h
  | create id config hnone =>
    refine h.insert config (fun e he => ?_) (by decide)
    rw [hnone] at he
    cases he
  | start hidle id entry hentry hcreated => exact h.start hidle hentry hcreated
  | remove id entry hentry hstate => exact h.remove hentry hstate
  | exit task htask entry hentry result => exact h.exit htask hentry result
  | exitGone task htask hnone =>
    obtain ⟨e, he, -⟩ := h.runBy htask
    rw [hnone] at he
    cases he

end Life

/-! ### Runs -/

namespace Manager

/-- The invariant of the manager. -/
structure Inv (m : Manager) : Prop where
  life : m.life.Inv
  noRollback : m.NoRollback

theorem Inv.step {m m' : Manager} (h : m.Inv) {event : Event} (hok : event.storeOk = true)
    (hstep : m.step event = some m') : m'.Inv := by
  have hmove := move_step hok hstep
  exact ⟨h.life.move (life_move (h.noRollback _) hmove), h.noRollback.move hmove⟩

theorem Inv.run {m m' : Manager} (h : m.Inv) {events : List Event}
    (hok : ∀ event ∈ events, event.storeOk = true) (hrun : m.run events = some m') : m'.Inv := by
  induction events generalizing m with
  | nil =>
    cases hrun
    exact h
  | cons event events ih =>
    obtain ⟨m₁, hstep, hrest⟩ := Option.bind_eq_some_iff.1 hrun
    have h₁ : m₁.Inv := h.step (hok event List.mem_cons_self) hstep
    exact ih h₁ (fun ev hev => hok ev (List.mem_cons_of_mem _ hev)) hrest

theorem recoveredState_ne_running (state : Option VmState) :
    StateStore.recoveredState state ≠ .running := by
  unfold StateStore.recoveredState
  split <;> simp_all

/-- A manager that has just recovered its VMs. -/
theorem inv_new (store : StateStore) : (new store).Inv := by
  -- while the entries are inserted, none of them is running and nothing is under way
  have hfold : ∀ (vms : List (String × VmConfig × VmState)) (m : Manager),
      (∀ vm ∈ vms, vm.2.2 ≠ .running) → m.Inv →
      (∀ id e, m.vms.lookup id = some e → e.state ≠ .running) →
      (vms.foldl recover m).Inv := by
    intro vms
    induction vms with
    | nil => exact fun m _ h _ => h
    | cons vm vms ih =>
      intro m hvms h hidle
      refine ih _ (fun vm' hvm' => hvms vm' (List.mem_cons_of_mem _ hvm')) ⟨?_, h.noRollback⟩ ?_
      · exact h.life.insert vm.2.1 (hidle vm.1) (hvms vm List.mem_cons_self)
      · intro id e he
        rcases lookup_insert_some he with ⟨rfl, rfl⟩ | ⟨-, he⟩
        · exact hvms vm List.mem_cons_self
        · exact hidle id e he
  refine hfold store.loadAll { store } (fun vm hvm => ?_) ⟨Life.inv_empty, fun _ _ _ => nofun⟩ ?_
  · obtain ⟨⟨id, files⟩, -, hmap⟩ := List.mem_filterMap.1 hvm
    obtain ⟨config, -, rfl⟩ := Option.map_eq_some_iff.1 hmap
    exact recoveredState_ne_running files.state
  · intro id e he
    rw [AList.lookup_empty] at he
    cases he

end Manager

/-! ### The lifecycle -/

/-- What one step may do to the entry at an id: a running entry is neither removed nor replaced. -/
inductive EntryStep : Option VmEntry → Option VmEntry → Prop
  | same (e : Option VmEntry) : EntryStep e e
  | insert {e : VmEntry} (h : e.state = .created) : EntryStep none (some e)
  | start {e e' : VmEntry} (hinc : e'.incarnation = e.incarnation) (h : e.state = .created)
      (h' : e'.state = .running) : EntryStep (some e) (some e')
  | exit {e e' : VmEntry} (hinc : e'.incarnation = e.incarnation) (h : e.state = .running)
      (h' : e'.state = .stopped ∨ e'.state = .failed) : EntryStep (some e) (some e')
  | remove {e : VmEntry} (h : e.state ≠ .running) : EntryStep (some e) none

theorem Life.Inv.entryStep {s s' : Life} (h : s.Inv) {p : ℕ} (hmove : s.Move p s') (id : String) :
    EntryStep (s.vms.lookup id) (s'.vms.lookup id) := by
  cases hmove with
  | same => exact EntryStep.same _
  | create id' config hnone =>
    by_cases hid : id = id'
    · subst hid
      simp only [Life.insert, hnone, AList.lookup_insert]
      exact EntryStep.insert rfl
    · simp only [Life.insert, AList.lookup_insert_ne hid]
      exact EntryStep.same _
  | start hidle id' entry hentry hcreated =>
    by_cases hid : id = id'
    · subst hid
      simp only [Life.start, hentry, AList.lookup_insert]
      exact EntryStep.start rfl hcreated rfl
    · simp only [Life.start, AList.lookup_insert_ne hid]
      exact EntryStep.same _
  | remove id' entry hentry hstate =>
    by_cases hid : id = id'
    · subst hid
      simp only [hentry, AList.lookup_erase]
      exact EntryStep.remove hstate
    · simp only [AList.lookup_erase_ne hid]
      exact EntryStep.same _
  | exit task htask entry hentry result =>
    by_cases hid : id = task.id
    · subst hid
      obtain ⟨e, he, hrun⟩ := h.runBy htask
      obtain rfl := Option.some.inj (hentry.symm.trans he)
      simp only [Life.exit, hentry, AList.lookup_insert]
      exact EntryStep.exit rfl hrun.state result.outcome_state
    · simp only [Life.exit, AList.lookup_insert_ne hid]
      exact EntryStep.same _
  | exitGone task htask hnone => exact EntryStep.same _

/-- The id that a stop request names. -/
def Event.stopTarget : Event → Option String
  | .call _ (.stop id) _ => some id
  | .call _ (.restart id) _ => some id
  | _ => none

namespace Manager

/-- The start or exit task that the operation `p` is. -/
def task (m : Manager) (p : ℕ) : Option Task := (m.ops p).bind Op.task

/-- What holds in every state of a run. -/
structure Lifecycle (m : Manager) : Prop where
  /-- An entry is running exactly when one start of its incarnation has passed its lock section and
  the exit task of that incarnation has not made its update. -/
  running_iff : ∀ id e, m.vms.lookup id = some e →
    (e.state = .running ↔ m.started.count e.incarnation = 1 ∧ e.incarnation ∉ m.exited)
  /-- That is, while such a task is under way. -/
  running_iff_task : ∀ id e, m.vms.lookup id = some e → (e.state = .running ↔
    ∃ p task, m.task p = some task ∧ task.id = id ∧ task.incarnation = e.incarnation)
  one_task : ∀ p q task task', m.task p = some task → m.task q = some task' →
    task.id = task'.id → p = q
  /-- The stop flag of an entry is shared with no task but the one that set it running. -/
  flag_owner : ∀ id e flag, m.vms.lookup id = some e → e.stopFlag = some flag →
    ∀ p task, m.task p = some task → task.stopFlag = flag →
      task.id = id ∧ task.incarnation = e.incarnation
  /-- What an exit task leaves behind, for as long as the entry exists. -/
  exited : ∀ id e, m.vms.lookup id = some e → e.incarnation ∈ m.exited →
    (e.state = .stopped ∨ e.state = .failed) ∧ e.stopFlag = none ∧
      ∃ buf, e.serialBuf = some buf ∧ m.closedBufs buf = true

/-- What holds of every step of a run. -/
structure LifecycleStep (m : Manager) (event : Event) (m' : Manager) : Prop where
  entries : ∀ id, EntryStep (m.vms.lookup id) (m'.vms.lookup id)
  /-- A stop request changes no flag but that of the entry that is running at its id. -/
  stop_only : ∀ id, event.stopTarget = some id → ∀ flag, m'.stopFlags flag ≠ m.stopFlags flag →
    ∃ e, m.vms.lookup id = some e ∧ e.state = .running ∧ e.stopFlag = some flag
  stop_sets : ∀ id, event.stopTarget = some id → ∀ e, m.vms.lookup id = some e →
    e.state = .running → ∃ flag, e.stopFlag = some flag ∧ m'.stopFlags flag = true
  stop_all : ∀ p files, event = .call p .stopAll files → ∀ flag, m'.stopFlags flag = true ↔
    m.stopFlags flag = true ∨
      ∃ id e, m.vms.lookup id = some e ∧ e.state = .running ∧ e.stopFlag = some flag

theorem Inv.lifecycle {m : Manager} (h : m.Inv) : m.Lifecycle := by
  have hlife := h.life
  constructor
  case running_iff =>
    intro id e he
    have hlog := hlife.logged he
    unfold Life.Logged at hlog
    constructor
    · intro hrun
      rw [hrun] at hlog
      exact hlog
    · rintro ⟨hcount, hexit⟩
      have hmem : e.incarnation ∈ m.started := List.count_pos_iff.1 (by omega)
      cases hstate : e.state with
      | created =>
        rw [hstate] at hlog
        exact absurd hmem hlog.1
      | running => rfl
      | stopped =>
        rw [hstate] at hlog
        exact absurd (hlog.2.1 hmem) hexit
      | failed =>
        rw [hstate] at hlog
        exact absurd (hlog.2.1 hmem) hexit
  case running_iff_task =>
    intro id e he
    constructor
    · intro hrun
      obtain ⟨p, task, htask, rfl⟩ := hlife.task_of_running he hrun
      obtain ⟨e', he', hrun'⟩ := hlife.runBy htask
      obtain rfl := Option.some.inj (he.symm.trans he')
      exact ⟨p, task, htask, rfl, hrun'.incarnation.symm⟩
    · rintro ⟨p, task, htask, rfl, -⟩
      obtain ⟨e', he', hrun'⟩ := hlife.runBy htask
      obtain rfl := Option.some.inj (he.symm.trans he')
      exact hrun'.state
  case one_task => exact fun p q task task' hp hq hid => hlife.task_inj hp hq hid
  case flag_owner =>
    rintro id e flag he hflag p task htask rfl
    obtain ⟨e', he', hrun⟩ := hlife.runBy htask
    have hid : id = task.id := by
      refine hlife.flag_inj he he' ?_ (hflag.trans hrun.stopFlag.symm)
      rw [hflag]
      exact Option.some_ne_none _
    subst hid
    obtain rfl := Option.some.inj (he.symm.trans he')
    exact ⟨rfl, hrun.incarnation.symm⟩
  case exited =>
    intro id e he hexit
    have hlog := hlife.logged he
    unfold Life.Logged at hlog
    cases hstate : e.state with
    | created =>
      rw [hstate] at hlog
      exact absurd hexit hlog.2
    | running =>
      rw [hstate] at hlog
      exact absurd hexit hlog.2
    | stopped =>
      rw [hstate] at hlog
      exact ⟨Or.inl rfl, hlog.1, hlog.2.2 hexit⟩
    | failed =>
      rw [hstate] at hlog
      exact ⟨Or.inr rfl, hlog.1, hlog.2.2 hexit⟩

/-- The lock section of a stop request. -/
theorem stopLock_flags (m : Manager) (id : String) :
    (∃ e, m.stopLock id = .error e ∧ ∀ e, m.vms.lookup id = some e → e.state ≠ .running) ∨
    (∃ e, m.vms.lookup id = some e ∧ e.state = .running ∧
      m.stopLock id = .ok (e.toInfo id, m.raiseFlag e)) := by
  unfold stopLock
  cases hid : m.vms.lookup id with
  | none =>
    refine Or.inl ⟨.notFound id, rfl, fun e he => ?_⟩
    cases he
  | some entry =>
    by_cases hrun : entry.state = .running
    · exact Or.inr ⟨entry, rfl, hrun, by simp [hrun]⟩
    · refine Or.inl ⟨.invalidState id entry.state "Running", by simp [hrun], ?_⟩
      rintro _ ⟨⟩
      exact hrun

/-- What a stop request does to the flags. -/
theorem stop_flags {m m' : Manager} {event : Event} {id : String}
    (htarget : event.stopTarget = some id) (h : m.step event = some m') :
    (m'.stopFlags = m.stopFlags ∧ ∀ e, m.vms.lookup id = some e → e.state ≠ .running) ∨
    (∃ e, m.vms.lookup id = some e ∧ e.state = .running ∧
      m'.stopFlags = fun flag => m.stopFlags flag || decide (e.stopFlag = some flag)) := by
  cases event with
  | call p request files =>
    unfold step at h
    dsimp only at h
    split_ifs at h with hop
    cases request with
    | stop id' =>
      cases htarget
      rcases stopLock_flags m id with ⟨e, hlock, hnot⟩ | ⟨e, he, hrun, hlock⟩
      · simp only [call, hlock] at h
        cases h
        exact Or.inl ⟨rfl, hnot⟩
      · simp only [call, hlock, raiseFlag_eq] at h
        cases h
        exact Or.inr ⟨e, he, hrun, rfl⟩
    | restart id' =>
      cases htarget
      rcases stopLock_flags m id with ⟨e, hlock, hnot⟩ | ⟨e, he, hrun, hlock⟩
      · simp only [call, hlock] at h
        cases h
        exact Or.inl ⟨rfl, hnot⟩
      · simp only [call, hlock, raiseFlag_eq] at h
        cases h
        exact Or.inr ⟨e, he, hrun, rfl⟩
    | _ => cases htarget
  | _ => cases htarget

theorem Inv.lifecycleStep {m m' : Manager} (h : m.Inv) {event : Event}
    (hok : event.storeOk = true) (hstep : m.step event = some m') :
    m.LifecycleStep event m' := by
  constructor
  case entries => exact h.life.entryStep (life_move (h.noRollback _) (move_step hok hstep))
  case stop_only =>
    intro id htarget flag hne
    rcases stop_flags htarget hstep with ⟨hflags, -⟩ | ⟨e, he, hrun, hflags⟩
    · exact absurd (by rw [hflags]) hne
    · refine ⟨e, he, hrun, ?_⟩
      by_contra hflag
      simp [hflags, hflag] at hne
  case stop_sets =>
    intro id htarget e he hrun
    obtain ⟨p, task, htask, hid⟩ := h.life.task_of_running he hrun
    subst hid
    obtain ⟨e', he', hrun'⟩ := h.life.runBy htask
    obtain rfl := Option.some.inj (he.symm.trans he')
    refine ⟨task.stopFlag, hrun'.stopFlag, ?_⟩
    rcases stop_flags htarget hstep with ⟨-, hnot⟩ | ⟨e', he', -, hflags⟩
    · exact absurd hrun (hnot e he)
    · obtain rfl := Option.some.inj (he.symm.trans he')
      simp [hflags, hrun'.stopFlag]
  case stop_all =>
    rintro p files rfl flag
    unfold Manager.step at hstep
    dsimp only at hstep
    split_ifs at hstep with hop
    cases hstep
    simp only [call, stopAll_eq, Bool.or_eq_true, List.any_eq_true, decide_eq_true_eq]
    constructor
    · rintro (hset | ⟨⟨id, e⟩, hmem, hrun, hflag⟩)
      · exact Or.inl hset
      · exact Or.inr ⟨id, e, AList.mem_lookup_iff.2 hmem, hrun, hflag⟩
    · rintro (hset | ⟨id, e, he, hrun, hflag⟩)
      · exact Or.inl hset
      · exact Or.inr ⟨⟨id, e⟩, AList.mem_lookup_iff.1 he, hrun, hflag⟩

/-- **The lifecycle invariant.**  In every interleaving of operations and VM exits, from any
recovered state, as long as no store call fails. -/
theorem vm_lifecycle (store : StateStore) (events : List Event) (m : Manager)
    (hok : ∀ event ∈ events, event.storeOk = true) (hrun : (new store).run events = some m) :
    m.Lifecycle ∧ ∀ event m', event.storeOk = true → m.step event = some m' →
      m.LifecycleStep event m' := by
  have h : m.Inv := (inv_new store).run hok hrun
  exact ⟨h.lifecycle, fun event m' hok' hstep => h.lifecycleStep hok' hstep⟩

/-- Two clients: one creates and starts a VM, the other stops it; the VM exits and is deleted, and
its id is created again before the first client's exit task has saved its state. -/
def twoClients : List Event :=
  [.call 0 (.create "vm" { kernelPath := "vmlinux", ramMib := 256 }) fun _ => true,
    .store 0 none, .store 0 none,
    .call 0 (.start "vm") fun _ => true, .store 0 none,
    .call 1 (.stop "vm") fun _ => true,
    .returns 0 (.exited .canceled), .lock 0 fun _ => true,
    .call 1 (.delete "vm") fun _ => true, .store 1 none,
    .call 1 (.create "vm" { kernelPath := "vmlinux", ramMib := 128 }) fun _ => true]

/-- The two clients share one run. -/
theorem vm_lifecycle_two_clients : ∃ m, (new {}).run twoClients = some m ∧ m.Lifecycle ∧
    (m.vms.lookup "vm").map VmEntry.state = some .created ∧
    m.ops 0 = some (.saveExit "vm" .stopped) ∧ m.stopFlags 1 = true := by
  refine ⟨_, rfl, (vm_lifecycle {} twoClients _ (by decide) rfl).1, ?_⟩
  decide +kernel

end Manager

end Hitz.Daemon
