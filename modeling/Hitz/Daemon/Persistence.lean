import Hitz.Daemon.VmManager

/-!
# The state directory and the map

Every operation changes the map under the lock and the state directory after it has let the lock
go.  The directory follows the map as long as the store calls on an id are made in the order in
which their operations took the lock (`InTurn`) and no id names the base directory itself.

The invariant is that the files of an id would match its entry once the store calls that are still
to be made on it had been made in that order (`settled`).
-/

namespace Hitz.Daemon

open Api StateStore

/-- What the remaining store calls of an operation make of the files of its VM. -/
def Op.apply : Op → VmFiles → VmFiles
  | .saveConfig info, _ => { config := some info.config, state := some .created }
  | .saveCreated _, files => { files with state := some .created }
  | .saveRunning _ _, files => { files with state := some .running }
  | .saveExit _ state, files => { files with state := some state }
  | .deleteDir _, _ => {}
  | _, files => files

/-- The files of a VM match its entry. -/
def Matches (entry : Option VmEntry) (files : VmFiles) : Prop :=
  match entry with
  | none => files.config = none
  | some e => files.config = some e.config ∧ files.state = some e.state

instance (entry : Option VmEntry) (files : VmFiles) : Decidable (Matches entry files) :=
  match entry with
  | none => inferInstanceAs (Decidable (_ = _))
  | some _ => inferInstanceAs (Decidable (_ ∧ _))

/-- The id of a new VM names a directory of its own. -/
def Request.Proper : Request → Prop
  | .create id _ => ProperId id
  | .clone _ dest => ProperId dest
  | _ => True

namespace Manager

/-- No operation or exit task is in progress. -/
def AtRest (m : Manager) : Prop := ∀ p, m.ops p = none

/-- The directories with a configuration are those of the VMs in the map, and hold their
configuration and state. -/
def Persisted (m : Manager) : Prop := ∀ id, Matches (m.vms.lookup id) (m.store.dir id)

/-- The VM whose files the operation `p` writes next. -/
def target (m : Manager) (p : ℕ) : Option String := (m.ops p).bind Op.target

/-- No operation that took the lock before `p` has a store call to make on the same id. -/
def InTurn (m : Manager) (p : ℕ) : Prop :=
  m.queue.find? (fun q => m.target q = m.target p) = some p

/-- A step that keeps the order: a store call that does not fail is made in its turn, and a new VM
gets a directory of its own. -/
def Orderly (m : Manager) : Event → Prop
  | .store p fault => fault = none ∧ m.InTurn p
  | .call _ request _ => request.Proper
  | _ => True

/-- Every step of a run keeps the order. -/
def OrderlyRun (m : Manager) : List Event → Prop
  | [] => True
  | event :: events => m.Orderly event ∧ ∀ m' ∈ m.step event, m'.OrderlyRun events

instance (request : Request) : Decidable request.Proper :=
  match request with
  | .create _ _ => inferInstanceAs (Decidable (ProperId _))
  | .clone _ _ => inferInstanceAs (Decidable (ProperId _))
  | .start _ | .stop _ | .restart _ | .delete _ | .stopAll => inferInstanceAs (Decidable True)

instance (m : Manager) (p : ℕ) : Decidable (m.InTurn p) := inferInstanceAs (Decidable (_ = _))

instance (m : Manager) (event : Event) : Decidable (m.Orderly event) :=
  match event with
  | .store _ _ => inferInstanceAs (Decidable (_ ∧ _))
  | .call _ request _ => inferInstanceAs (Decidable request.Proper)
  | .lock _ _ | .returns _ _ => inferInstanceAs (Decidable True)

instance decidableOrderlyRun : (m : Manager) → (events : List Event) →
    Decidable (m.OrderlyRun events)
  | _, [] => inferInstanceAs (Decidable True)
  | m, event :: events =>
    have := fun m' : Manager => decidableOrderlyRun m' events
    inferInstanceAs (Decidable (m.Orderly event ∧ ∀ m' ∈ m.step event, m'.OrderlyRun events))

/-! ### The store calls still to be made -/

/-- The operations of a queue with a store call to make on an id. -/
def pendingOps (ops : ℕ → Option Op) (queue : List ℕ) (id : String) : List Op :=
  queue.filterMap fun p => (ops p).filter fun op => op.target = some id

/-- The files of an id once its pending calls have been made in the order of their lock sections. -/
def settled (m : Manager) (id : String) : VmFiles :=
  (pendingOps m.ops m.queue id).foldl (fun files op => op.apply files) (m.store.dir id)

section Pending

variable {ops : ℕ → Option Op} {queue l r : List ℕ} {p : ℕ} {id : String}

theorem pendingOps_append :
    pendingOps ops (l ++ r) id = pendingOps ops l id ++ pendingOps ops r id :=
  List.filterMap_append

theorem pendingOps_singleton {op : Op} (hop : ops p = some op) :
    pendingOps ops [p] id = if op.target = some id then [op] else [] := by
  unfold pendingOps
  rw [List.filterMap_cons, List.filterMap_nil, hop]
  by_cases htarget : op.target = some id <;> simp [Option.filter, htarget]

theorem pendingOps_congr {ops' : ℕ → Option Op} (h : ∀ q ∈ queue, ops' q = ops q) :
    pendingOps ops' queue id = pendingOps ops queue id :=
  List.filterMap_congr fun q hq => by rw [h q hq]

theorem pendingOps_update (hp : p ∉ queue) (op : Option Op) :
    pendingOps (Function.update ops p op) queue id = pendingOps ops queue id :=
  pendingOps_congr fun _ hq => Function.update_of_ne (ne_of_mem_of_not_mem hq hp) _ _

theorem pendingOps_eq_nil (h : ∀ q ∈ queue, (ops q).bind Op.target ≠ some id) :
    pendingOps ops queue id = [] := by
  refine List.filterMap_eq_nil_iff.2 fun q hq => Option.filter_eq_none_iff.2 fun op hop => ?_
  have hne := h q hq
  rw [Option.mem_def.1 hop] at hne
  simpa using hne

/-- The queue around an operation in it. -/
theorem pendingOps_split {op : Op} (hop : ops p = some op) :
    pendingOps ops (l ++ p :: r) id = pendingOps ops l id ++
      (if op.target = some id then [op] else []) ++ pendingOps ops r id := by
  rw [List.append_cons, pendingOps_append, pendingOps_append, pendingOps_singleton hop]

end Pending

/-- The invariant. -/
structure Follows (m : Manager) : Prop where
  matches_settled : ∀ id, Matches (m.vms.lookup id) (m.settled id)
  nodup : m.queue.Nodup
  mem_queue : ∀ p, p ∈ m.queue ↔ m.target p ≠ none
  proper : ∀ id e, m.vms.lookup id = some e → ProperId id
  proper_target : ∀ p id, m.target p = some id → ProperId id
  proper_clone : ∀ p id config, m.ops p = some (.cloneCreate id config) → ProperId id

theorem target_of_light {op : Option Op} (h : Light op) : op.bind Op.target = none := by
  cases op with
  | none => rfl
  | some op =>
    cases op with
    | cloneCreate _ _ => rfl
    | awaitStop _ _ => rfl
    | restartStart _ => rfl
    | _ => cases h

section Steps

variable {m : Manager} {p : ℕ}

/-- The operation whose turn it is, in the queue: nothing is pending on its id before it. -/
theorem Follows.split (h : m.Follows) {op : Op} {id : String} (hop : m.ops p = some op)
    (htarget : op.target = some id) (hturn : m.InTurn p) : ∃ l r, m.queue = l ++ p :: r ∧
      p ∉ l ∧ p ∉ r ∧ pendingOps m.ops l id = [] := by
  obtain ⟨-, l, r, hqueue, hl⟩ := List.find?_eq_some_iff_append.1 hturn
  have hnodup := h.nodup
  rw [hqueue, List.nodup_append, List.nodup_cons] at hnodup
  obtain ⟨-, ⟨hpr, -⟩, hdisj⟩ := hnodup
  refine ⟨l, r, hqueue, fun hmem => hdisj p hmem p List.mem_cons_self rfl, hpr, ?_⟩
  refine pendingOps_eq_nil fun q hq htq => ?_
  have hne : m.target q ≠ m.target p := by simpa using hl q hq
  rw [target, htq, target, hop] at hne
  exact hne htarget.symm

/-- A step of the operation `p` to `op`. -/
theorem Follows.goOn (h : m.Follows) {op : Option Op} {vms : AList fun _ : String => VmEntry}
    {store : StateStore} {queue : List ℕ}
    (hsettled : ∀ id, Matches (vms.lookup id) ((pendingOps (Function.update m.ops p op) queue
      id).foldl (fun files op => op.apply files) (store.dir id)))
    (hnodup : queue.Nodup) (hp : p ∈ queue ↔ op.bind Op.target ≠ none)
    (hqueue : ∀ q, q ≠ p → (q ∈ queue ↔ q ∈ m.queue))
    (hproper : ∀ id e, vms.lookup id = some e → ProperId id)
    (htarget : ∀ id, op.bind Op.target = some id → ProperId id)
    (hclone : ∀ id config, op = some (.cloneCreate id config) → ProperId id)
    {stopFlags closedBufs : ℕ → Bool} {next : ℕ} {replies : List (ℕ × Reply)}
    {started exited : List ℕ} :
    Follows ⟨vms, store, stopFlags, closedBufs, next, Function.update m.ops p op, replies, queue,
      started, exited⟩ := by
  have hself : Function.update m.ops p op p = op := Function.update_self ..
  have hother : ∀ q, q ≠ p → Function.update m.ops p op q = m.ops q :=
    fun q hq => Function.update_of_ne hq ..
  constructor
  case matches_settled => exact hsettled
  case nodup => exact hnodup
  case mem_queue =>
    intro q
    unfold target
    dsimp only
    by_cases hq : q = p
    · rw [hq, hself]
      exact hp
    · rw [hother q hq, hqueue q hq]
      exact h.mem_queue q
  case proper => exact hproper
  case proper_target =>
    intro q id hq
    unfold target at hq
    dsimp only at hq
    by_cases hqp : q = p
    · rw [hqp, hself] at hq
      exact htarget id hq
    · rw [hother q hqp] at hq
      exact h.proper_target q id hq
  case proper_clone =>
    intro q id config hq
    dsimp only at hq
    by_cases hqp : q = p
    · rw [hqp, hself] at hq
      exact hclone id config hq
    · rw [hother q hqp] at hq
      exact h.proper_clone q id config hq

/-- A step that makes no store call and leaves none to make. -/
theorem Follows.light (h : m.Follows) (hold : m.target p = none) {op : Option Op}
    (hnew : op.bind Op.target = none)
    (hclone : ∀ id config, op = some (.cloneCreate id config) → ProperId id)
    {stopFlags : ℕ → Bool} {replies : List (ℕ × Reply)} :
    Follows { m with ops := Function.update m.ops p op, stopFlags, replies } := by
  have hp : p ∉ m.queue := fun hmem => (h.mem_queue p).1 hmem hold
  refine h.goOn (fun id => ?_) h.nodup ?_ (fun _ _ => Iff.rfl) h.proper ?_ hclone
  · rw [pendingOps_update hp]
    exact h.matches_settled id
  · rw [hnew]
    exact ⟨fun hmem => absurd hmem hp, fun hne => absurd rfl hne⟩
  · rw [hnew]
    exact nofun

/-- A section under the lock that changes the entry of an id and leaves store calls on that id to
make: enough that these, made after all others, take the files to match the new entry. -/
theorem Follows.lock (h : m.Follows) (hold : m.target p = none) {op : Op} {id : String}
    (htarget : op.target = some id) (hproper : ProperId id) {vms : AList fun _ : String => VmEntry}
    (hother : ∀ id', id' ≠ id → vms.lookup id' = m.vms.lookup id')
    (happly : ∀ files, Matches (m.vms.lookup id) files → Matches (vms.lookup id) (op.apply files))
    {stopFlags closedBufs : ℕ → Bool} {next : ℕ} {started exited : List ℕ} :
    Follows { m with
      vms, stopFlags, closedBufs, next, started, exited
      ops := Function.update m.ops p (some op)
      queue := m.queue ++ [p] } := by
  have hp : p ∉ m.queue := fun hmem => (h.mem_queue p).1 hmem hold
  refine h.goOn (fun id' => ?_) ?_ ?_ (fun q hq => by simp [hq]) ?_ ?_ ?_
  · rw [pendingOps_append, pendingOps_update hp, pendingOps_singleton (Function.update_self ..)]
    have hsettled := h.matches_settled id'
    by_cases hid : id' = id
    · subst hid
      rw [if_pos htarget, List.foldl_append]
      exact happly _ hsettled
    · rw [if_neg (by rw [htarget]; simpa using Ne.symm hid), List.append_nil, hother id' hid]
      exact hsettled
  · refine List.nodup_append.2 ⟨h.nodup, List.nodup_singleton p, fun q hq r hr => ?_⟩
    rw [List.mem_singleton.1 hr]
    exact ne_of_mem_of_not_mem hq hp
  · simp [htarget]
  · intro id' e he
    by_cases hid : id' = id
    · exact hid ▸ hproper
    · exact h.proper id' e ((hother id' hid).symm.trans he)
  · rintro id' hid'
    cases htarget.symm.trans hid'
    exact hproper
  · rintro id' config ⟨⟩
    cases htarget

/-- A store call by the operation whose turn it is, after which it has another one to make. -/
theorem Follows.storeCall (h : m.Follows) {op op' : Op} {id : String} (hop : m.ops p = some op)
    (htarget : op.target = some id) (htarget' : op'.target = some id) (hturn : m.InTurn p)
    {store : StateStore} (hother : ∀ id', id' ≠ id → store.dir id' = m.store.dir id')
    (happly : op'.apply (store.dir id) = op.apply (m.store.dir id)) :
    Follows { m with store, ops := Function.update m.ops p (some op') } := by
  obtain ⟨l, r, hqueue, hpl, hpr, hfirst⟩ := h.split hop htarget hturn
  have hproper : ProperId id := h.proper_target p id (by simp [target, hop, htarget])
  refine h.goOn (fun id' => ?_) h.nodup ?_ (fun _ _ => Iff.rfl) h.proper ?_ ?_
  · have hsettled := h.matches_settled id'
    unfold settled at hsettled
    rw [hqueue, pendingOps_split hop] at hsettled
    rw [hqueue, pendingOps_split (Function.update_self ..), pendingOps_update hpl,
      pendingOps_update hpr]
    by_cases hid : id' = id
    · subst hid
      rw [hfirst, if_pos htarget] at hsettled
      rw [hfirst, if_pos htarget']
      simpa [happly] using hsettled
    · have hne : some id ≠ some id' := fun heq => hid (Option.some.inj heq).symm
      rw [htarget, if_neg hne] at hsettled
      rwa [htarget', if_neg hne, hother id' hid]
  · simp [h.mem_queue, target, hop, htarget, htarget']
  · rintro id' hid'
    cases htarget'.symm.trans hid'
    exact hproper
  · rintro id' config ⟨⟩
    cases htarget'

/-- The last store call of an operation, made in its turn. -/
theorem Follows.lastStoreCall (h : m.Follows) {op : Op} {op' : Option Op} {id : String}
    (hop : m.ops p = some op) (htarget : op.target = some id) (htarget' : op'.bind Op.target = none)
    (hclone : ∀ id config, op' ≠ some (.cloneCreate id config)) (hturn : m.InTurn p)
    {store : StateStore} (hother : ∀ id', id' ≠ id → store.dir id' = m.store.dir id')
    (happly : store.dir id = op.apply (m.store.dir id)) {replies : List (ℕ × Reply)} :
    Follows { m with
      store
      ops := Function.update m.ops p op'
      queue := m.queue.erase p
      replies } := by
  obtain ⟨l, r, hqueue, hpl, hpr, hfirst⟩ := h.split hop htarget hturn
  have herase : m.queue.erase p = l ++ r := by
    rw [hqueue, List.erase_append_right _ hpl, List.erase_cons_head]
  refine h.goOn (fun id' => ?_) (h.nodup.erase p) ?_ (fun q hq => List.mem_erase_of_ne hq)
    h.proper ?_ (fun id config hc => absurd hc (hclone id config))
  · have hsettled := h.matches_settled id'
    unfold settled at hsettled
    rw [hqueue, pendingOps_split hop] at hsettled
    rw [herase, pendingOps_append, pendingOps_update hpl, pendingOps_update hpr]
    by_cases hid : id' = id
    · subst hid
      rw [hfirst, if_pos htarget] at hsettled
      rw [hfirst, List.nil_append, happly]
      exact hsettled
    · have hne : some id ≠ some id' := fun heq => hid (Option.some.inj heq).symm
      rw [htarget, if_neg hne, List.append_nil] at hsettled
      rwa [hother id' hid]
  · rw [htarget']
    exact ⟨fun hmem => absurd hmem h.nodup.not_mem_erase, fun hne => absurd rfl hne⟩
  · rw [htarget']
    exact nofun

/-- A last store call that saves a state. -/
theorem Follows.savedState (h : m.Follows) {op : Op} {op' : Option Op} {id : String}
    {state : VmState} (hop : m.ops p = some op) (htarget : op.target = some id)
    (happly : ∀ files, op.apply files = { files with state := some state })
    (htarget' : op'.bind Op.target = none)
    (hclone : ∀ id config, op' ≠ some (.cloneCreate id config))
    (hturn : m.InTurn p) {replies : List (ℕ × Reply)} :
    Follows { m with
      store := m.store.saveState id state
      ops := Function.update m.ops p op'
      queue := m.queue.erase p
      replies } := by
  have hproper : ProperId id := h.proper_target p id (by simp [target, hop, htarget])
  refine h.lastStoreCall hop htarget htarget' hclone hturn (fun id' hne => ?_) ?_
  · rw [saveState, dir_update hproper, if_neg hne]
  · rw [saveState, dir_update hproper, if_pos rfl, happly]

/-- Every step keeps the invariant when its store call is made in turn and the VM it creates has a
directory of its own. -/
theorem Follows.move {m' : Manager} {dest : Option String} (h : m.Follows)
    (hroll : ∀ id e, m.ops p ≠ some (.rollback id e)) (hmove : m.Move p dest m')
    (hturn : m.target p ≠ none → m.InTurn p) (hdest : ∀ id, dest = some id → ProperId id) :
    m'.Follows := by
  have hturn' : ∀ {op id}, m.ops p = some op → op.target = some id → m.InTurn p :=
    fun hop htarget => hturn (by simp [target, hop, htarget])
  have hproper : ∀ {op id}, m.ops p = some op → op.target = some id → ProperId id :=
    fun hop htarget => h.proper_target p _ (by simp [target, hop, htarget])
  cases hmove with
  | light hold op hnew hclone stopFlags replies =>
    exact h.light (target_of_light hold) (target_of_light hnew)
      fun id config hop => hdest id (hclone id config hop)
  | create hold id config hnone info hid hconfig hcreate =>
    subst hid hconfig
    refine h.lock (target_of_light hold) rfl (hdest _ hcreate)
      (fun id' hne => AList.lookup_insert_ne hne) fun files _ => ?_
    rw [AList.lookup_insert]
    exact ⟨rfl, rfl⟩
  | start hold id entry hentry hcreated info hid stopFlags =>
    subst hid
    refine h.lock (target_of_light hold) rfl (h.proper _ entry hentry)
      (fun id' hne => AList.lookup_insert_ne hne) fun files hfiles => ?_
    rw [hentry] at hfiles
    rw [AList.lookup_insert]
    exact ⟨hfiles.1, rfl⟩
  | remove hold id entry hentry hstate =>
    refine h.lock (target_of_light hold) rfl (h.proper _ entry hentry)
      (fun id' hne => AList.lookup_erase_ne hne) fun files _ => ?_
    rw [AList.lookup_erase]
    rfl
  | savedConfig info hop =>
    refine h.storeCall hop rfl rfl (hturn' hop rfl) (fun id' hne => ?_) ?_
    · rw [saveConfig, dir_update (hproper hop rfl), if_neg hne]
    · rw [saveConfig, dir_update (hproper hop rfl), if_pos rfl]
      rfl
  | savedCreated info hop replies =>
    exact h.savedState hop rfl (fun _ => rfl) rfl (by simp) (hturn' hop rfl)
  | savedRunning info task hop replies =>
    exact h.savedState hop rfl (fun _ => rfl) rfl (by simp) (hturn' hop rfl)
  | savedExit id state hop =>
    exact h.savedState hop rfl (fun _ => rfl) rfl (by simp) (hturn' hop rfl)
  | deleted id hop replies =>
    refine h.lastStoreCall hop rfl rfl (by simp) (hturn' hop rfl) (fun id' hne => ?_) ?_
    · rw [dir_delete (hproper hop rfl), if_neg hne]
    · rw [dir_delete (hproper hop rfl), if_pos rfl]
      rfl
  | returned task hop result stopFlags =>
    exact h.light (by simp [target, hop, Op.target]) rfl (by simp)
  | exit task result hop entry hentry =>
    refine h.lock (by simp [target, hop, Op.target]) rfl (h.proper _ entry hentry)
      (fun id' hne => AList.lookup_insert_ne hne) fun files hfiles => ?_
    rw [hentry] at hfiles
    rw [AList.lookup_insert]
    exact ⟨hfiles.1, rfl⟩
  | exitGone task result hop hnone =>
    exact h.light (by simp [target, hop, Op.target]) rfl (by simp)
  | rollback id e hop replies => exact absurd hop (hroll id e)

end Steps

/-! ### Runs -/

/-- An orderly step keeps the invariant. -/
theorem Follows.step {m m' : Manager} (h : m.Follows) (hroll : m.NoRollback) {event : Event}
    (horder : m.Orderly event) (hstep : m.step event = some m') :
    m'.Follows ∧ m'.NoRollback := by
  have hok : event.storeOk = true := by
    cases event with
    | store p fault =>
      rw [horder.1]
      rfl
    | _ => rfl
  have hmove := move_step hok hstep
  refine ⟨h.move (hroll _) hmove (fun htarget => ?_) (fun id hdest => ?_), hroll.move hmove⟩
  · cases event with
    | store p fault => exact horder.2
    | call p request files =>
      -- a call is made by a client that has no operation under way
      unfold Manager.step at hstep
      dsimp only at hstep
      split_ifs at hstep with hop
      simp [target, Event.op, hop] at htarget
    | lock p files =>
      obtain ⟨op, hop, hlock⟩ := Option.bind_eq_some_iff.1 hstep
      refine absurd ?_ htarget
      rw [target, Event.op, hop]
      cases op <;> first | rfl | cases hlock
    | returns p result =>
      obtain ⟨op, hop, hret⟩ := Option.bind_eq_some_iff.1 hstep
      refine absurd ?_ htarget
      rw [target, Event.op, hop]
      cases op <;> first | rfl | cases hret
  · cases event with
    | call p request files =>
      cases request with
      | create id' config =>
        cases hdest
        exact horder
      | clone src dest =>
        cases hdest
        exact horder
      | _ => cases hdest
    | lock p files =>
      unfold destination at hdest
      dsimp only at hdest
      split at hdest
      · rename_i dest config hop
        cases hdest
        exact h.proper_clone p id config hop
      · cases hdest
    | _ => cases hdest

theorem Follows.run {m m' : Manager} (h : m.Follows) (hroll : m.NoRollback) {events : List Event}
    (horder : m.OrderlyRun events) (hrun : m.run events = some m') : m'.Follows := by
  induction events generalizing m with
  | nil =>
    cases hrun
    exact h
  | cons event events ih =>
    obtain ⟨m₁, hstep, hrest⟩ := Option.bind_eq_some_iff.1 hrun
    obtain ⟨h₁, hroll₁⟩ := h.step hroll horder.1 hstep
    exact ih h₁ hroll₁ (horder.2 m₁ hstep) hrest

/-- A manager between operations whose directory matches its map. -/
structure Settled (m : Manager) : Prop where
  atRest : m.AtRest
  queue : m.queue = []
  persisted : m.Persisted
  proper : ∀ id e, m.vms.lookup id = some e → ProperId id

theorem Settled.follows {m : Manager} (h : m.Settled) : m.Follows := by
  have htarget : ∀ p, m.target p = none := fun p => by rw [target, h.atRest p]; rfl
  constructor
  case matches_settled =>
    intro id
    rw [settled, h.queue]
    exact h.persisted id
  case nodup =>
    rw [h.queue]
    exact List.nodup_nil
  case mem_queue => simp [h.queue, htarget]
  case proper => exact h.proper
  case proper_target => simp [htarget]
  case proper_clone => simp [h.atRest _]

theorem settled_new : (new {}).Settled where
  atRest _ := rfl
  queue := rfl
  persisted _ := rfl
  proper _ _ h := by cases h

/-- A VM is deleted and created again under the same id before the deletion has reached the disk;
`last` are the store calls that are left then. -/
def deleteAndCreate (last : List Event) : List Event :=
  [.call 0 (.create "vm" { kernelPath := "vmlinux", ramMib := 256 }) fun _ => true,
    .store 0 none, .store 0 none,
    .call 0 (.delete "vm") fun _ => true,
    .call 1 (.create "vm" { kernelPath := "vmlinux", ramMib := 128 }) fun _ => true] ++ last

end Manager

end Hitz.Daemon
