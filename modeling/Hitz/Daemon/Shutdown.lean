import Hitz.Daemon.Lifecycle
import Hitz.Lib.Runs

/-!
# Graceful shutdown (`hitz-daemon/src/vm_manager.rs`, `stop_all_and_wait`)

Every exit task ends with a message on the completion channel, after its update of the map and of
the store.  `stop_all_and_wait` counts the running VMs under the lock and then takes that many
messages from the channel, whoever they are from.

* `Shutdown` is the manager with the channel and any number of such calls, `step` its steps;
* a completion has the incarnation of its VM as identity, which no step reads;
* `Ledger` is the part that the counting depends on, `Ledger.Move` what a step of the manager can
  do to it, `Ledger.Inv` that every started VM completes at most once;
* `waited_for_running`: a call that returns without a timeout has waited for the VMs it counted,
  along every run in which no other completion can come in between.

Store calls may fail here.
-/

namespace Hitz.Daemon

open Api

/-- Where a call of `stop_all_and_wait` is: in front of the receiver's mutex, receiving, or back. -/
inductive WaitPhase
  | locking
  | receiving
  | returned
  | timedOut
  deriving DecidableEq, Repr

/-- A call of `stop_all_and_wait`: the VMs it has counted, how many completions there had been by
then, and how many it has received. -/
structure Wait where
  running : List ℕ
  mark : ℕ
  stopped : ℕ
  phase : WaitPhase
  deriving DecidableEq, Repr

/-- The call has not come back. -/
def Wait.Active (w : Wait) : Prop := w.phase = .locking ∨ w.phase = .receiving

/-- The manager, the completions on their way and the calls that wait for them. -/
structure Shutdown where
  manager : Manager
  /-- The exit tasks in their store call. -/
  leaving : ℕ → Option ℕ
  /-- The exit tasks that have nothing left to do but to send. -/
  unsent : List ℕ
  channel : List ℕ
  /-- Everything that was sent. -/
  sends : List ℕ
  waits : List Wait

/-- The steps: one of the manager, the message of an exit task, and those of
`stop_all_and_wait`. -/
inductive ShutdownEvent
  | manager (event : Event)
  | send (k : ℕ)
  | stopAllAndWait
  | lockReceiver (w : ℕ)
  | recv (w : ℕ)
  | timeout (w : ℕ)

namespace Shutdown

/-- A manager with nothing in progress. -/
def new (store : StateStore) : Shutdown where
  manager := Manager.new store
  leaving _ := none
  unsent := []
  channel := []
  sends := []
  waits := []

/-- The running VMs. -/
def running (m : Manager) : List ℕ :=
  (m.vms.entries.filter fun e => e.2.state = .running).map fun e => e.2.incarnation

/-- The operation `p` takes the manager to `m`; an exit task leaves the lock or its store call. -/
def goOn (d : Shutdown) (p : ℕ) (m : Manager) : Shutdown :=
  match d.manager.ops p with
  | some (.exitUpdate task _) =>
    if (m.ops p).isNone then { d with manager := m, unsent := d.unsent ++ [task.incarnation] }
    else { d with
      manager := m, leaving := Function.update d.leaving p (some task.incarnation) }
  | some (.saveExit _ _) => { d with
      manager := m
      unsent := d.unsent ++ (d.leaving p).toList
      leaving := Function.update d.leaving p none }
  | _ => { d with manager := m }

/-- A completion for a call: with the last one it returns. -/
def Wait.receive (w : Wait) : Wait :=
  { w with
    stopped := w.stopped + 1
    phase := if w.stopped + 1 < w.running.length then .receiving else .returned }

/-- One step; a step that is not due changes nothing. -/
def step (d : Shutdown) : ShutdownEvent → Shutdown
  | .manager event =>
    match d.manager.step event with
    | none => d
    | some m => d.goOn event.op m
  | .send k =>
    match d.unsent[k]? with
    | none => d
    | some i => { d with
        unsent := d.unsent.eraseIdx k
        channel := d.channel ++ [i]
        sends := d.sends ++ [i] }
  | .stopAllAndWait => { d with
      manager := d.manager.stopAll
      waits := d.waits ++ [⟨running d.manager, d.sends.length, 0,
        if running d.manager = [] then .returned else .locking⟩] }
  | .lockReceiver k =>
    match d.waits[k]? with
    | none => d
    | some w =>
      if w.phase = .locking ∧ ∀ w' ∈ d.waits, w'.phase ≠ .receiving then
        { d with waits := d.waits.set k { w with phase := .receiving } }
      else d
  | .recv k =>
    match d.waits[k]?, d.channel with
    | some w, _ :: channel =>
      if w.phase = .receiving then
        { d with channel, waits := d.waits.set k (Wait.receive w) }
      else d
    | _, _ => d
  | .timeout k =>
    match d.waits[k]? with
    | none => d
    | some w =>
      if w.phase = .receiving then
        { d with waits := d.waits.set k { w with phase := .timedOut } }
      else d

/-- The VM has sent its completion since the call counted it, and its exit task is over. -/
def Finished (d : Shutdown) (w : Wait) (i : ℕ) : Prop :=
  i ∈ d.sends.drop w.mark ∧ (∀ p task, d.manager.task p = some task → task.incarnation ≠ i) ∧
    ∀ p, d.leaving p ≠ some i

/-- A call that came back without a timeout has waited for the VMs it counted. -/
def Waited (d : Shutdown) : Prop :=
  ∀ w ∈ d.waits, w.phase = .returned → ∀ i ∈ w.running, d.Finished w i

/-- The step starts a VM. -/
def StartsVm (m : Manager) : Event → Prop
  | .call _ (.start id) _ => ∃ entry, m.vms.lookup id = some entry ∧ entry.state = .created
  | .lock p _ => ∃ id entry, m.ops p = some (.restartStart id) ∧
      m.vms.lookup id = some entry ∧ entry.state = .created
  | _ => False

/-- No completion is on its way but those of the running VMs. -/
structure Quiet (d : Shutdown) : Prop where
  channel : d.channel = []
  unsent : d.unsent = []
  leaving : ∀ p, d.leaving p = none
  task : ∀ p task, d.manager.task p = some task → ∃ entry,
    d.manager.vms.lookup task.id = some entry ∧ entry.state = .running ∧
      entry.incarnation = task.incarnation

/-- `stop_all_and_wait` is called when no other completion is on its way, and no VM is started
while it waits. -/
def Good (d : Shutdown) : ShutdownEvent → Prop
  | .stopAllAndWait => d.Quiet
  | .manager event => (∃ w ∈ d.waits, w.Active) → ¬StartsVm d.manager event
  | _ => True

end Shutdown

/-! ### The part that the counting depends on -/

/-- The entries, the VMs that have still to complete (by operation), and the completions. -/
structure Ledger where
  vms : AList fun _ : String => VmEntry
  next : ℕ
  holder : ℕ → Option ℕ
  unsent : List ℕ
  channel : List ℕ
  sends : List ℕ

namespace Ledger

/-- What a step of the manager can do; `starts` says that it starts a VM. -/
inductive Move (s : Ledger) (starts : Prop) : Ledger → Prop
  | same : Move s starts s
  | create (id : String) (config : VmConfig) : Move s starts { s with
      vms := s.vms.insert id { config, state := .created, incarnation := s.next }
      next := s.next + 1 }
  | start (hstarts : starts) (p : ℕ) (hfree : s.holder p = none) (id : String)
      (entry entry' : VmEntry) (hentry : s.vms.lookup id = some entry)
      (hcreated : entry.state = .created) (hinc : entry'.incarnation = entry.incarnation)
      (hstate : entry'.state ≠ .created) : Move s starts { s with
        vms := s.vms.insert id entry'
        next := s.next + 2
        holder := Function.update s.holder p (some entry.incarnation) }
  | erase (id : String) : Move s starts { s with vms := s.vms.erase id }
  | restate (id : String) (entry entry' : VmEntry) (hentry : s.vms.lookup id = some entry)
      (hinc : entry'.incarnation = entry.incarnation) (hstate : entry'.state ≠ .created) :
      Move s starts { s with vms := s.vms.insert id entry' }
  | drop (p : ℕ) : Move s starts { s with holder := Function.update s.holder p none }
  | done (p i : ℕ) (hholder : s.holder p = some i) : Move s starts { s with
        holder := Function.update s.holder p none
        unsent := s.unsent ++ [i] }

/-- The VM has been started. -/
def Used (s : Ledger) (i : ℕ) : Prop := (∃ p, s.holder p = some i) ∨ i ∈ s.unsent ∨ i ∈ s.sends

/-- Every VM completes at most once. -/
structure Inv (s : Ledger) : Prop where
  entry_lt : ∀ {id e}, s.vms.lookup id = some e → e.incarnation < s.next
  entry_inj : ∀ {id id' e e'}, s.vms.lookup id = some e → s.vms.lookup id' = some e' →
    e.incarnation = e'.incarnation → id = id'
  used_lt : ∀ {i}, s.Used i → i < s.next
  fresh : ∀ {id e}, s.vms.lookup id = some e → e.state = .created → ¬s.Used e.incarnation
  holder_inj : ∀ {p q i}, s.holder p = some i → s.holder q = some i → p = q
  holder_out : ∀ {p i}, s.holder p = some i → i ∉ s.unsent ++ s.sends
  nodup : (s.unsent ++ s.sends).Nodup

variable {s s' : Ledger} {starts : Prop}

theorem Inv.create (h : s.Inv) (id : String) (config : VmConfig) : Inv { s with
    vms := s.vms.insert id { config, state := .created, incarnation := s.next }
    next := s.next + 1 } := by
  have hlt : ∀ {i}, s.Used i → i < s.next := h.used_lt
  constructor
  case entry_lt =>
    intro id' e he
    rcases lookup_insert_some he with ⟨-, rfl⟩ | ⟨-, he⟩
    · exact Nat.lt_succ_self _
    · exact (h.entry_lt he).trans (Nat.lt_succ_self _)
  case entry_inj =>
    intro id₁ id₂ e₁ e₂ h₁ h₂
    exact inj_insert VmEntry.incarnation (fun _ => True) (fun h₁ h₂ _ => h.entry_inj h₁ h₂)
      (fun _ he _ => (h.entry_lt he).ne) h₁ h₂ trivial
  case used_lt => exact fun hi => (hlt hi).trans (Nat.lt_succ_self _)
  case fresh =>
    intro id' e he hcreated hused
    rcases lookup_insert_some he with ⟨-, rfl⟩ | ⟨-, he⟩
    · exact (hlt hused).false
    · exact h.fresh he hcreated hused
  case holder_inj => exact h.holder_inj
  case holder_out => exact h.holder_out
  case nodup => exact h.nodup

/-- Replacing an entry by a later one of the same incarnation. -/
theorem Inv.replace (h : s.Inv) {id : String} {entry entry' : VmEntry}
    (hentry : s.vms.lookup id = some entry) (hinc : entry'.incarnation = entry.incarnation)
    (hstate : entry'.state ≠ .created) : Inv { s with vms := s.vms.insert id entry' } := by
  constructor
  case entry_lt =>
    intro id' e he
    obtain ⟨e', he', heq⟩ := incarnation_of_replaced hentry hinc he
    rw [← heq]
    exact h.entry_lt he'
  case entry_inj =>
    intro id₁ id₂ e₁ e₂ h₁ h₂ heq
    obtain ⟨e₁', h₁', hi₁⟩ := incarnation_of_replaced hentry hinc h₁
    obtain ⟨e₂', h₂', hi₂⟩ := incarnation_of_replaced hentry hinc h₂
    exact h.entry_inj h₁' h₂' (by rw [hi₁, hi₂, heq])
  case used_lt => exact h.used_lt
  case fresh =>
    intro id' e he hcreated
    rcases lookup_insert_some he with ⟨-, rfl⟩ | ⟨-, he⟩
    · exact absurd hcreated hstate
    · exact h.fresh he hcreated
  case holder_inj => exact h.holder_inj
  case holder_out => exact h.holder_out
  case nodup => exact h.nodup

theorem Inv.erase (h : s.Inv) (id : String) : Inv { s with vms := s.vms.erase id } where
  entry_lt he := h.entry_lt (lookup_erase_some he).2
  entry_inj h₁ h₂ := h.entry_inj (lookup_erase_some h₁).2 (lookup_erase_some h₂).2
  used_lt := h.used_lt
  fresh he := h.fresh (lookup_erase_some he).2
  holder_inj := h.holder_inj
  holder_out := h.holder_out
  nodup := h.nodup

/-- A VM that is started is used from then on; another entry has another incarnation. -/
theorem Inv.start (h : s.Inv) {p : ℕ} {id : String} {entry entry' : VmEntry}
    (hentry : s.vms.lookup id = some entry) (hcreated : entry.state = .created)
    (hinc : entry'.incarnation = entry.incarnation) (hstate : entry'.state ≠ .created) :
    Inv { s with
      vms := s.vms.insert id entry'
      next := s.next + 2
      holder := Function.update s.holder p (some entry.incarnation) } := by
  have hnew := h.fresh hentry hcreated
  have hrep := h.replace hentry hinc hstate
  have hused : ∀ {i}, Used { s with
      vms := s.vms.insert id entry'
      next := s.next + 2
      holder := Function.update s.holder p (some entry.incarnation) } i →
      i = entry.incarnation ∨ s.Used i := by
    rintro i (⟨q, hq⟩ | hi)
    · rcases update_eq_some hq with ⟨-, heq⟩ | ⟨-, hq⟩
      · exact Or.inl (Option.some.inj heq).symm
      · exact Or.inr (Or.inl ⟨q, hq⟩)
    · exact Or.inr (Or.inr hi)
  constructor
  case entry_lt => exact fun he => (hrep.entry_lt he).trans (Nat.lt_add_of_pos_right (by decide))
  case entry_inj => exact hrep.entry_inj
  case used_lt =>
    intro i hi
    have hlt : i < s.next := by
      rcases hused hi with rfl | hi
      · exact h.entry_lt hentry
      · exact h.used_lt hi
    exact hlt.trans (Nat.lt_add_of_pos_right (by decide))
  case fresh =>
    intro id' e he hc hi
    rcases lookup_insert_some he with ⟨-, rfl⟩ | ⟨hne, he⟩
    · exact hstate hc
    rcases hused hi with heq | hi
    · exact hne (h.entry_inj he hentry heq)
    · exact h.fresh he hc hi
  case holder_inj =>
    intro q r i hq hr
    refine inj_update (fun i => i) (fun hq hr heq => ?_) (fun hr heq => ?_) hq hr rfl
    · obtain rfl := heq
      exact h.holder_inj hq hr
    · obtain rfl := heq
      exact hnew (Or.inl ⟨_, hr⟩)
  case holder_out =>
    intro q i hq
    rcases update_eq_some hq with ⟨-, hq⟩ | ⟨-, hq⟩
    · cases hq
      intro hmem
      exact hnew (Or.inr (List.mem_append.1 hmem))
    · exact h.holder_out hq
  case nodup => exact h.nodup

theorem Inv.drop (h : s.Inv) (p : ℕ) :
    Inv { s with holder := Function.update s.holder p none } := by
  have hsub : ∀ {q i}, Function.update s.holder p none q = some i → s.holder q = some i := by
    intro q i hq
    rcases update_eq_some hq with ⟨-, hq⟩ | ⟨-, hq⟩
    · cases hq
    · exact hq
  have hused : ∀ {i}, Used { s with holder := Function.update s.holder p none } i → s.Used i :=
    fun hi => hi.imp_left fun ⟨q, hq⟩ => ⟨q, hsub hq⟩
  exact ⟨h.entry_lt, h.entry_inj, fun hi => h.used_lt (hused hi),
    fun he hc hi => h.fresh he hc (hused hi), fun hq hr => h.holder_inj (hsub hq) (hsub hr),
    fun hq => h.holder_out (hsub hq), h.nodup⟩

theorem Inv.done (h : s.Inv) {p i : ℕ} (hholder : s.holder p = some i) :
    Inv { s with
      holder := Function.update s.holder p none
      unsent := s.unsent ++ [i] } := by
  have hsub : ∀ {q j}, Function.update s.holder p none q = some j →
      s.holder q = some j ∧ q ≠ p := by
    intro q j hq
    rcases update_eq_some hq with ⟨-, hq⟩ | ⟨hne, hq⟩
    · cases hq
    · exact ⟨hq, hne⟩
  have hout := h.holder_out hholder
  have hused : ∀ {j}, Used { s with
      holder := Function.update s.holder p none
      unsent := s.unsent ++ [i] } j → s.Used j := by
    rintro j (⟨q, hq⟩ | hj | hj)
    · exact Or.inl ⟨q, (hsub hq).1⟩
    · rcases List.mem_append.1 hj with hj | hj
      · exact Or.inr (Or.inl hj)
      · rw [List.mem_singleton.1 hj]
        exact Or.inl ⟨p, hholder⟩
    · exact Or.inr (Or.inr hj)
  have hperm : (s.unsent ++ [i] ++ s.sends).Perm (i :: (s.unsent ++ s.sends)) := by
    rw [List.append_assoc, List.singleton_append]
    exact List.perm_middle
  refine ⟨h.entry_lt, h.entry_inj, fun hj => h.used_lt (hused hj),
    fun he hc hj => h.fresh he hc (hused hj),
    fun hq hr => h.holder_inj (hsub hq).1 (hsub hr).1, ?_, ?_⟩
  · intro q j hq hmem
    obtain ⟨hq', hne⟩ := hsub hq
    rcases List.mem_cons.1 (hperm.mem_iff.1 hmem) with rfl | hmem
    · exact hne (h.holder_inj hq' hholder)
    · exact h.holder_out hq' hmem
  · exact hperm.nodup_iff.2 (List.nodup_cons.2 ⟨hout, h.nodup⟩)

theorem Inv.move (h : s.Inv) (hmove : s.Move starts s') : s'.Inv := by
  cases hmove with
  | same => exact h
  | create id config => exact h.create id config
  | start hstarts p hfree id entry entry' hentry hcreated hinc hstate =>
    exact h.start hentry hcreated hinc hstate
  | erase id => exact h.erase id
  | restate id entry entry' hentry hinc hstate => exact h.replace hentry hinc hstate
  | drop p => exact h.drop p
  | done p i hholder => exact h.done hholder

/-- A completion that is sent stays the only one of its VM. -/
theorem Inv.send (h : s.Inv) {k i : ℕ} (hk : s.unsent[k]? = some i) (channel : List ℕ) :
    Inv { s with
      unsent := s.unsent.eraseIdx k
      channel
      sends := s.sends ++ [i] } := by
  have hperm : (s.unsent.eraseIdx k ++ (s.sends ++ [i])).Perm (s.unsent ++ s.sends) := by
    obtain ⟨hlt, rfl⟩ := List.getElem?_eq_some_iff.1 hk
    have hunsent := List.getElem_cons_eraseIdx_perm hlt
    rw [← List.append_assoc]
    refine List.perm_append_comm.trans ?_
    rw [List.singleton_append, ← List.cons_append]
    exact hunsent.append_right _
  have hmem : ∀ {j}, j ∈ s.unsent.eraseIdx k ∨ j ∈ s.sends ++ [i] ↔ j ∈ s.unsent ∨ j ∈ s.sends := by
    intro j
    rw [← List.mem_append, ← List.mem_append]
    exact hperm.mem_iff
  have hused : ∀ {j}, Used { s with
      unsent := s.unsent.eraseIdx k
      channel
      sends := s.sends ++ [i] } j → s.Used j := fun hj => hj.imp_right hmem.1
  exact ⟨h.entry_lt, h.entry_inj, fun hj => h.used_lt (hused hj),
    fun he hc hj => h.fresh he hc (hused hj), h.holder_inj,
    fun hq hj => h.holder_out hq (hperm.mem_iff.1 hj), hperm.nodup_iff.2 h.nodup⟩

/-! ### A call that waits -/

/-- Nothing but the VMs that the call has counted can complete, and what it has received and can
receive was sent since. -/
structure Covers (s : Ledger) (w : Wait) : Prop where
  holder : ∀ {p i}, s.holder p = some i → i ∈ w.running
  unsent : ∀ i ∈ s.unsent, i ∈ w.running
  sends : ∀ i ∈ s.sends.drop w.mark, i ∈ w.running
  count : w.stopped + s.channel.length + w.mark ≤ s.sends.length
  waiting : w.stopped < w.running.length

theorem Covers.move {w : Wait} (h : s.Covers w) (hmove : s.Move False s') : s'.Covers w := by
  have hdrop : ∀ {p q i}, Function.update s.holder p none q = some i → s.holder q = some i := by
    intro p q i hq
    rcases update_eq_some hq with ⟨-, hq⟩ | ⟨-, hq⟩
    · cases hq
    · exact hq
  cases hmove with
  | same => exact h
  | create id config => exact ⟨h.holder, h.unsent, h.sends, h.count, h.waiting⟩
  | start hstarts => exact hstarts.elim
  | erase id => exact ⟨h.holder, h.unsent, h.sends, h.count, h.waiting⟩
  | restate id entry entry' hentry hinc hstate =>
    exact ⟨h.holder, h.unsent, h.sends, h.count, h.waiting⟩
  | drop p => exact ⟨fun hq => h.holder (hdrop hq), h.unsent, h.sends, h.count, h.waiting⟩
  | done p i hholder =>
    refine ⟨fun hq => h.holder (hdrop hq), ?_, h.sends, h.count, h.waiting⟩
    intro j hj
    rcases List.mem_append.1 hj with hj | hj
    · exact h.unsent j hj
    · rw [List.mem_singleton.1 hj]
      exact h.holder hholder

theorem mem_drop_append {l : List ℕ} {n : ℕ} (hn : n ≤ l.length) (i j : ℕ) :
    j ∈ (l ++ [i]).drop n ↔ j ∈ l.drop n ∨ j = i := by
  rw [List.drop_append_of_le_length hn, List.mem_append, List.mem_singleton]

theorem Covers.send {w : Wait} (h : s.Covers w) {k i : ℕ} (hk : s.unsent[k]? = some i) :
    Covers { s with
      unsent := s.unsent.eraseIdx k
      channel := s.channel ++ [i]
      sends := s.sends ++ [i] } w := by
  have hcount := h.count
  refine ⟨h.holder, fun j hj => h.unsent j (List.mem_of_mem_eraseIdx hj), ?_, ?_, h.waiting⟩
  · intro j hj
    rcases (mem_drop_append (by omega) i j).1 hj with hj | rfl
    · exact h.sends j hj
    · exact h.unsent j (List.mem_of_getElem? hk)
  · simp only [List.length_append, List.length_singleton]
    omega

/-- With the last completion every VM that was counted has completed: as many different ones were
sent as there are. -/
theorem Covers.all_sent {w : Wait} (h : s.Covers w) (hinv : s.Inv)
    (hlast : w.running.length ≤ w.stopped + 1) (hchannel : s.channel ≠ []) :
    ∀ i ∈ w.running, i ∈ s.sends.drop w.mark := by
  have hcount := h.count
  have hlen : w.running.length ≤ (s.sends.drop w.mark).length := by
    have := List.length_pos_iff.2 hchannel
    rw [List.length_drop]
    omega
  have hnodup : (s.sends.drop w.mark).Nodup :=
    (List.nodup_append.1 hinv.nodup).2.1.sublist (List.drop_sublist _ _)
  have hperm := (List.subperm_of_subset hnodup h.sends).perm_of_length_le hlen
  exact fun i hi => hperm.mem_iff.2 hi

end Ledger

namespace Shutdown

variable {d : Shutdown}

/-- The VM of the start or exit task that the operation `p` is. -/
def holder (d : Shutdown) (p : ℕ) : Option ℕ :=
  ((d.manager.task p).map (·.incarnation)).or (d.leaving p)

/-- The counting view. -/
def ledger (d : Shutdown) : Ledger where
  vms := d.manager.vms
  next := d.manager.next
  holder := d.holder
  unsent := d.unsent
  channel := d.channel
  sends := d.sends

/-- Only an exit task in its store call is leaving. -/
def LeavingOk (d : Shutdown) : Prop :=
  ∀ p, (d.leaving p).isSome → ∃ id state, d.manager.ops p = some (.saveExit id state)

theorem LeavingOk.none (h : d.LeavingOk) {p : ℕ}
    (hop : ∀ id state, d.manager.ops p ≠ some (.saveExit id state)) : d.leaving p = none := by
  by_contra hne
  obtain ⟨id, state, heq⟩ := h p (Option.isSome_iff_ne_none.2 hne)
  exact hop id state heq

section GoOn

variable {m : Manager} {p : ℕ} (op : Option Op)
  (hops : m.ops = Function.update d.manager.ops p op)

include hops

/-- The holders after the operation `p` has gone on. -/
theorem holder_update (unsent : List ℕ) (l : Option ℕ) :
    holder { d with manager := m, unsent, leaving := Function.update d.leaving p l } =
      Function.update d.holder p (((op.bind Op.task).map (·.incarnation)).or l) := by
  funext q
  by_cases hq : q = p
  · subst hq
    simp [holder, Manager.task, hops]
  · simp [holder, Manager.task, hops, Function.update_of_ne hq]

theorem leavingOk_update (hl : d.LeavingOk) (unsent : List ℕ) {l : Option ℕ}
    (hnew : l.isSome → ∃ id state, op = some (.saveExit id state)) :
    LeavingOk { d with manager := m, unsent, leaving := Function.update d.leaving p l } := by
  intro q hq
  by_cases hqp : q = p
  · subst hqp
    simp only [Function.update_self] at hq
    simpa [hops] using hnew hq
  · simp only [Function.update_of_ne hqp] at hq
    simpa [hops, Function.update_of_ne hqp] using hl q hq

variable {starts : Prop} (hl : d.LeavingOk)

include hl

/-- An operation that is not an exit task past the end of its VM. -/
theorem goOn_other (hexit : ∀ task result, d.manager.ops p ≠ some (.exitUpdate task result))
    (hsave : ∀ id state, d.manager.ops p ≠ some (.saveExit id state))
    (hmove : d.ledger.Move starts { d.ledger with
      vms := m.vms
      next := m.next
      holder := Function.update d.holder p ((op.bind Op.task).map (·.incarnation)) }) :
    d.ledger.Move starts (d.goOn p m).ledger ∧ (d.goOn p m).LeavingOk := by
  have hgo : d.goOn p m = { d with manager := m } := by
    unfold goOn
    split
    · next heq => exact absurd heq (hexit _ _)
    · next heq => exact absurd heq (hsave _ _)
    · rfl
  have hleave : Function.update d.leaving p none = d.leaving :=
    Function.update_eq_self_iff.2 (hl.none hsave).symm
  have hholder := holder_update op hops d.unsent none
  have hok := leavingOk_update op hops hl d.unsent (l := none) (by simp)
  rw [hleave] at hholder hok
  rw [Option.or_none] at hholder
  rw [hgo]
  refine ⟨?_, hok⟩
  unfold ledger
  rw [hholder]
  exact hmove

/-- An operation that stays the task it is, or none. -/
theorem goOn_vms (hexit : ∀ task result, d.manager.ops p ≠ some (.exitUpdate task result))
    (hsave : ∀ id state, d.manager.ops p ≠ some (.saveExit id state))
    (htask : op.bind Op.task = (d.manager.ops p).bind Op.task)
    (hmove : d.ledger.Move starts { d.ledger with vms := m.vms, next := m.next }) :
    d.ledger.Move starts (d.goOn p m).ledger ∧ (d.goOn p m).LeavingOk := by
  refine goOn_other op hops hl hexit hsave ?_
  have hholder : d.holder p = ((d.manager.ops p).bind Op.task).map (·.incarnation) := by
    rw [holder, hl.none hsave, Option.or_none]
    rfl
  rw [htask, ← hholder, Function.update_eq_self]
  exact hmove

/-- An exit task leaves the lock for its store call. -/
theorem goOn_exit {task : Task} {result : TaskResult}
    (hop : d.manager.ops p = some (.exitUpdate task result)) {id : String} {state : VmState}
    (hsome : op = some (.saveExit id state))
    (hmove : d.ledger.Move starts { d.ledger with vms := m.vms, next := m.next }) :
    d.ledger.Move starts (d.goOn p m).ledger ∧ (d.goOn p m).LeavingOk := by
  have hgo : d.goOn p m = { d with
      manager := m, leaving := Function.update d.leaving p (some task.incarnation) } := by
    simp [goOn, hop, hops, hsome]
  have hself : d.holder p = some task.incarnation := by
    simp [holder, Manager.task, hop, Op.task]
  have hsame : Function.update d.holder p (((op.bind Op.task).map (·.incarnation)).or
      (some task.incarnation)) = d.holder := by
    rw [hsome]
    exact Function.update_eq_self_iff.2 hself.symm
  have hholder := holder_update op hops d.unsent (some task.incarnation)
  rw [hsame] at hholder
  rw [hgo]
  refine ⟨?_, leavingOk_update op hops hl d.unsent fun _ => ⟨id, state, hsome⟩⟩
  unfold ledger
  rw [hholder]
  exact hmove

/-- An exit task that finds no entry has only to send. -/
theorem goOn_exitGone {task : Task} {result : TaskResult}
    (hop : d.manager.ops p = some (.exitUpdate task result)) (hnone : op = none)
    (hvms : m.vms = d.manager.vms) (hnext : m.next = d.manager.next) :
    d.ledger.Move starts (d.goOn p m).ledger ∧ (d.goOn p m).LeavingOk := by
  have hsave : ∀ id state, d.manager.ops p ≠ some (.saveExit id state) := by simp [hop]
  have hleave : Function.update d.leaving p none = d.leaving :=
    Function.update_eq_self_iff.2 (hl.none hsave).symm
  have hgo : d.goOn p m = { d with
      manager := m
      unsent := d.unsent ++ [task.incarnation]
      leaving := Function.update d.leaving p none } := by
    simp [goOn, hop, hops, hnone, hleave]
  have hself : d.holder p = some task.incarnation := by
    simp [holder, Manager.task, hop, Op.task]
  have hholder := holder_update op hops (d.unsent ++ [task.incarnation]) none
  rw [hnone] at hholder
  rw [hgo]
  refine ⟨?_, leavingOk_update op hops hl _ (by simp)⟩
  unfold ledger
  rw [hholder, hvms, hnext]
  exact Ledger.Move.done p _ hself

/-- An exit task is back from its store call. -/
theorem goOn_saved {id : String} {state : VmState}
    (hop : d.manager.ops p = some (.saveExit id state)) (hnone : op = none)
    (hvms : m.vms = d.manager.vms) (hnext : m.next = d.manager.next) :
    d.ledger.Move starts (d.goOn p m).ledger ∧ (d.goOn p m).LeavingOk := by
  have hself : d.holder p = d.leaving p := by
    simp [holder, Manager.task, hop, Op.task]
  have hgo : d.goOn p m = { d with
      manager := m
      unsent := d.unsent ++ (d.holder p).toList
      leaving := Function.update d.leaving p none } := by
    simp [goOn, hop, hself]
  have hholder := holder_update op hops (d.unsent ++ (d.holder p).toList) none
  rw [hnone] at hholder
  rw [hgo]
  refine ⟨?_, leavingOk_update op hops hl _ (by simp)⟩
  unfold ledger
  rw [hholder, hvms, hnext]
  cases hp : d.holder p with
  | none =>
    have hsame : Function.update d.holder p none = d.holder :=
      Function.update_eq_self_iff.2 hp.symm
    simp only [Option.bind_none, Option.map_none, Option.or_none, Option.toList_none,
      List.append_nil, hsame]
    exact Ledger.Move.same
  | some i => exact Ledger.Move.done p i hp

end GoOn

theorem light_ne {op : Option Op} (h : Manager.Light op) :
    (∀ task result, op ≠ some (.exitUpdate task result)) ∧
      ∀ id state, op ≠ some (.saveExit id state) := by
  constructor
  · rintro task result rfl
    exact h
  · rintro id state rfl
    exact h

/-- A step of the manager in which the store answers. -/
theorem goOn_move (hl : d.LeavingOk) {m : Manager} {p : ℕ} {dest : Option String}
    (h : d.manager.Move p dest m) :
    d.ledger.Move (m.started ≠ d.manager.started) (d.goOn p m).ledger ∧
      (d.goOn p m).LeavingOk := by
  cases h with
  | light hold op hnew hclone stopFlags replies =>
    obtain ⟨hexit, hsave⟩ := light_ne hold
    refine goOn_vms op ?_ hl hexit hsave ?_ Ledger.Move.same
    · rfl
    · exact (task_of_light hnew).trans (task_of_light hold).symm
  | create hold id config hnone info hid hconfig hdest =>
    obtain ⟨hexit, hsave⟩ := light_ne hold
    refine goOn_vms (some (.saveConfig info)) ?_ hl hexit hsave ?_ (Ledger.Move.create id config)
    · rfl
    · rw [task_of_light hold]
      rfl
  | start hold id entry hentry hcreated info hid stopFlags =>
    obtain ⟨hexit, hsave⟩ := light_ne hold
    have hfree : d.holder p = none := by
      rw [holder, hl.none hsave, Manager.task, task_of_light hold]
      rfl
    have hrunning : VmState.running ≠ .created := by decide
    refine goOn_other (some (.saveRunning info
      ⟨id, entry.incarnation, d.manager.next, d.manager.next + 1⟩)) ?_ hl hexit hsave ?_
    · rfl
    · exact Ledger.Move.start (s := d.ledger) (by simp) p hfree id entry _ hentry hcreated rfl
        hrunning
  | remove hold id entry hentry hstate =>
    obtain ⟨hexit, hsave⟩ := light_ne hold
    refine goOn_vms (some (.deleteDir id)) ?_ hl hexit hsave ?_ (Ledger.Move.erase id)
    · rfl
    · rw [task_of_light hold]
      rfl
  | savedConfig info hop =>
    refine goOn_vms (some (.saveCreated info)) ?_ hl ?_ ?_ ?_ Ledger.Move.same
    all_goals simp [hop, Op.task]
  | savedCreated info hop replies =>
    refine goOn_vms none ?_ hl ?_ ?_ ?_ Ledger.Move.same
    all_goals simp [hop, Op.task]
  | savedRunning info task hop replies =>
    refine goOn_vms (some (.boot task)) ?_ hl ?_ ?_ ?_ Ledger.Move.same
    all_goals simp [hop, Op.task]
  | savedExit id state hop =>
    refine goOn_saved none ?_ hl hop rfl ?_ ?_
    all_goals rfl
  | deleted id hop replies =>
    refine goOn_vms none ?_ hl ?_ ?_ ?_ Ledger.Move.same
    all_goals simp [hop, Op.task]
  | returned task hop result stopFlags =>
    refine goOn_vms (some (.exitUpdate task result)) ?_ hl ?_ ?_ ?_ Ledger.Move.same
    all_goals simp [hop, Op.task]
  | exit task result hop entry hentry =>
    refine goOn_exit (some (.saveExit task.id result.outcome.1)) ?_ hl hop rfl
      (Ledger.Move.restate task.id entry _ hentry ?_ ?_)
    · rfl
    · rfl
    · rcases result.outcome_state with h | h
      · simp [h]
      · simp [h]
  | exitGone task result hop hnone =>
    refine goOn_exitGone none ?_ hl hop rfl ?_ ?_
    all_goals rfl
  | rollback id e hop replies =>
    refine goOn_vms none ?_ hl ?_ ?_ ?_ (Ledger.Move.erase id)
    all_goals simp [hop, Op.task]

/-- A store call that fails: a start gives up, and an exit task goes on. -/
theorem goOn_fault (hl : d.LeavingOk) {m : Manager} {p : ℕ} {op : Op} {e : DaemonError}
    (hop : d.manager.ops p = some op) (h : d.manager.storeCall p op (some e) = some m)
    (starts : Prop) :
    d.ledger.Move starts (d.goOn p m).ledger ∧ (d.goOn p m).LeavingOk := by
  cases op with
  | saveConfig info =>
    cases h
    refine goOn_vms (some (.rollback info.id e)) ?_ hl ?_ ?_ ?_ Ledger.Move.same
    · rfl
    all_goals simp [hop, Op.task]
  | saveCreated info =>
    cases h
    refine goOn_vms (some (.rollback info.id e)) ?_ hl ?_ ?_ ?_ Ledger.Move.same
    · rfl
    all_goals simp [hop, Op.task]
  | saveRunning info task =>
    cases h
    refine goOn_other none ?_ hl ?_ ?_ (Ledger.Move.drop p)
    · rfl
    all_goals simp [hop]
  | saveExit id state =>
    cases h
    refine goOn_saved none ?_ hl hop rfl ?_ ?_
    all_goals rfl
  | deleteDir id =>
    cases h
    refine goOn_vms none ?_ hl ?_ ?_ ?_ Ledger.Move.same
    · rfl
    all_goals simp [hop, Op.task]
  | _ => cases h

/-- Every step of the manager is a move of the ledger. -/
theorem goOn_step (hl : d.LeavingOk) {m : Manager} {event : Event}
    (h : d.manager.step event = some m) :
    d.ledger.Move (m.started ≠ d.manager.started) (d.goOn event.op m).ledger ∧
      (d.goOn event.op m).LeavingOk := by
  cases hok : event.storeOk with
  | true => exact goOn_move hl (Manager.move_step hok h)
  | false =>
    cases event with
    | store p fault =>
      cases fault with
      | none => cases hok
      | some e =>
        obtain ⟨op, hop, h⟩ := Option.bind_eq_some_iff.1 h
        exact goOn_fault hl hop h _
    | _ => cases hok

theorem started_createVm (m : Manager) (p : ℕ) (files : String → Bool) (id : String)
    (config : VmConfig) : (m.createVm p files id config).started = m.started := by
  unfold Manager.createVm Manager.createLock
  split_ifs
  · rfl
  split
  · rfl
  cases m.vms.lookup id with
  | none => rfl
  | some entry => rfl

theorem started_startVm {m : Manager} {id : String} (p : ℕ)
    (h : ¬∃ entry, m.vms.lookup id = some entry ∧ entry.state = .created) :
    (m.startVm p id).started = m.started := by
  unfold Manager.startVm Manager.startLock
  cases hid : m.vms.lookup id with
  | none => rfl
  | some entry =>
    have hstate : entry.state ≠ .created := fun hc => h ⟨entry, hid, hc⟩
    simp only [ne_eq, hstate, not_false_eq_true, if_true]
    rfl

theorem started_stopLock {m m' : Manager} {id : String} {info : VmInfo}
    (h : m.stopLock id = .ok (info, m')) : m'.started = m.started := by
  unfold Manager.stopLock at h
  cases hid : m.vms.lookup id with
  | none =>
    rw [hid] at h
    cases h
  | some entry =>
    rw [hid] at h
    dsimp only at h
    split_ifs at h
    cases h
    rw [Manager.raiseFlag_eq]

theorem started_deleteLock {m m' : Manager} {id : String} (h : m.deleteLock id = .ok m') :
    m'.started = m.started := by
  unfold Manager.deleteLock at h
  cases hid : m.vms.lookup id with
  | none =>
    rw [hid] at h
    cases h
  | some entry =>
    rw [hid] at h
    dsimp only at h
    split_ifs at h
    cases h
    rfl

theorem started_call {m : Manager} (p : ℕ) (files : String → Bool) {request : Request}
    (hstart : ∀ id, request = .start id →
      ¬∃ entry, m.vms.lookup id = some entry ∧ entry.state = .created) :
    (m.call p files request).started = m.started := by
  unfold Manager.call
  cases request with
  | create id config => exact started_createVm m p files id config
  | clone src dest =>
    dsimp only
    split
    · rfl
    · rfl
  | start id => exact started_startVm p (hstart id rfl)
  | stop id =>
    dsimp only
    split
    · rfl
    · next hstop =>
      rw [← started_stopLock hstop]
      rfl
  | restart id =>
    dsimp only
    split
    · rfl
    · next hstop =>
      rw [← started_stopLock hstop]
      rfl
  | delete id =>
    dsimp only
    split
    · rfl
    · next hdelete =>
      rw [← started_deleteLock hdelete]
      rfl
  | stopAll =>
    dsimp only
    rw [Manager.stopAll_eq]

theorem started_poll (m : Manager) (p : ℕ) (id : String) (polls : ℕ) :
    (m.poll p id polls).started = m.started := by
  unfold Manager.poll
  split
  · rfl
  split_ifs
  · rfl
  cases polls with
  | zero => rfl
  | succ polls => rfl

theorem started_lockSection {m m' : Manager} {p : ℕ} {files : String → Bool} {op : Op}
    (hstart : ∀ id, op = .restartStart id →
      ¬∃ entry, m.vms.lookup id = some entry ∧ entry.state = .created)
    (h : m.lockSection p files op = some m') : m'.started = m.started := by
  cases op with
  | cloneCreate dest config =>
    cases h
    exact started_createVm m p files dest config
  | rollback id e =>
    cases h
    rfl
  | exitUpdate task result =>
    simp only [Manager.lockSection, Manager.exitLock] at h
    cases hid : m.vms.lookup task.id with
    | none =>
      rw [hid] at h
      cases h
      rfl
    | some entry =>
      rw [hid] at h
      cases h
      rfl
  | awaitStop id polls =>
    cases h
    exact started_poll m p id polls
  | restartStart id =>
    cases h
    exact started_startVm p (hstart id rfl)
  | _ => cases h

/-- A step that is not a start leaves the log of starts alone. -/
theorem started_eq {m m' : Manager} {event : Event} (hstart : ¬StartsVm m event)
    (h : m.step event = some m') : m'.started = m.started := by
  cases event with
  | call p request files =>
    unfold Manager.step at h
    dsimp only at h
    split_ifs at h
    cases h
    refine started_call p files ?_
    rintro id rfl
    exact hstart
  | lock p files =>
    obtain ⟨op, hop, h⟩ := Option.bind_eq_some_iff.1 h
    refine started_lockSection ?_ h
    rintro id rfl ⟨entry, hid, hc⟩
    exact hstart ⟨id, entry, hop, hid, hc⟩
  | store p fault =>
    obtain ⟨op, hop, h⟩ := Option.bind_eq_some_iff.1 h
    cases fault with
    | none => cases op <;> cases h <;> rfl
    | some e => cases op <;> cases h <;> rfl
  | returns p result =>
    obtain ⟨op, hop, h⟩ := Option.bind_eq_some_iff.1 h
    cases op with
    | boot task => cases result <;> cases h <;> rfl
    | _ => cases h

/-! ### Whole runs -/

/-- What every good step keeps. -/
structure Inv (d : Shutdown) : Prop where
  ledger : d.ledger.Inv
  leaving : d.LeavingOk
  active : ∀ w ∈ d.waits, w.Active → d.ledger.Covers w
  returned : ∀ w ∈ d.waits, w.phase = .returned → ∀ i ∈ w.running, i ∈ d.sends.drop w.mark

theorem Inv.waited (h : d.Inv) : d.Waited := by
  intro w hw hphase i hi
  have hsent := h.returned w hw hphase i hi
  have hfree : ∀ p, d.holder p ≠ some i := by
    intro p hp
    exact h.ledger.holder_out hp (List.mem_append_right _ (List.mem_of_mem_drop hsent))
  refine ⟨hsent, ?_, ?_⟩
  · rintro p task htask rfl
    exact hfree p (by simp [holder, htask])
  · intro p hp
    obtain ⟨id, state, hop⟩ := h.leaving p (by rw [hp]; rfl)
    exact hfree p (by simp [holder, Manager.task, hop, Op.task, hp])

theorem ops_new (store : StateStore) : (Manager.new store).ops = fun _ => none := by
  have hfold : ∀ (vms : List (String × VmConfig × VmState)) (m : Manager),
      (vms.foldl Manager.recover m).ops = m.ops := by
    intro vms
    induction vms with
    | nil => exact fun _ => rfl
    | cons vm vms ih => exact fun m => ih (m.recover vm)
  exact hfold _ _

theorem inv_new (store : StateStore) : (new store).Inv := by
  have hlife := (Manager.inv_new store).life
  have hfree : ∀ p, (new store).holder p = none := by
    intro p
    simp [holder, new, Manager.task, ops_new]
  have hused : ∀ i, ¬(new store).ledger.Used i := by
    rintro i (⟨p, hp⟩ | hi | hi)
    · rw [show (new store).ledger.holder p = none from hfree p] at hp
      cases hp
    · cases hi
    · cases hi
  refine ⟨⟨fun he => (hlife.inUse he).incarnation, hlife.incarnation_inj,
    fun hi => absurd hi (hused _), fun _ _ => hused _, ?_, ?_, List.nodup_nil⟩, ?_, ?_, ?_⟩
  · intro p q i hp
    rw [show (new store).ledger.holder p = none from hfree p] at hp
    cases hp
  · intro p i hp
    rw [show (new store).ledger.holder p = none from hfree p] at hp
    cases hp
  · intro p hp
    cases hp
  · intro w hw
    cases hw
  · intro w hw
    cases hw

theorem goOn_frame (d : Shutdown) (p : ℕ) (m : Manager) :
    (d.goOn p m).waits = d.waits ∧ (d.goOn p m).sends = d.sends := by
  unfold goOn
  split
  · split_ifs
    · exact ⟨rfl, rfl⟩
    · exact ⟨rfl, rfl⟩
  · exact ⟨rfl, rfl⟩
  · exact ⟨rfl, rfl⟩

theorem Inv.manager (h : d.Inv) {m : Manager} {event : Event}
    (hgood : d.Good (.manager event)) (hstep : d.manager.step event = some m) :
    (d.goOn event.op m).Inv := by
  obtain ⟨hmove, hok⟩ := goOn_step h.leaving hstep
  obtain ⟨hwaits, hsends⟩ := goOn_frame d event.op m
  refine ⟨h.ledger.move hmove, hok, ?_, ?_⟩
  · intro w hw hactive
    rw [hwaits] at hw
    have hstarted := started_eq (hgood ⟨w, hw, hactive⟩) hstep
    have hnot : (m.started ≠ d.manager.started) = False := eq_false (not_not.2 hstarted)
    rw [hnot] at hmove
    exact (h.active w hw hactive).move hmove
  · intro w hw hphase i hi
    rw [hwaits] at hw
    rw [hsends]
    exact h.returned w hw hphase i hi

theorem Inv.send (h : d.Inv) {k i : ℕ} (hk : d.unsent[k]? = some i) :
    Inv { d with
      unsent := d.unsent.eraseIdx k
      channel := d.channel ++ [i]
      sends := d.sends ++ [i] } := by
  refine ⟨h.ledger.send hk _, h.leaving, fun w hw hactive => (h.active w hw hactive).send hk, ?_⟩
  intro w hw hphase j hj
  rw [List.drop_append]
  exact List.mem_append_left _ (h.returned w hw hphase j hj)

theorem Quiet.covers (h : d.Quiet) (hne : running d.manager ≠ []) (phase : WaitPhase) :
    d.ledger.Covers ⟨running d.manager, d.sends.length, 0, phase⟩ := by
  refine ⟨?_, ?_, ?_, ?_, List.length_pos_iff.2 hne⟩
  · intro p i hp
    -- a holder is the task of a running VM
    have hmap : (d.manager.task p).map (·.incarnation) = some i := by
      have : d.holder p = some i := hp
      rwa [holder, h.leaving p, Option.or_none] at this
    obtain ⟨task, htask, rfl⟩ := Option.map_eq_some_iff.1 hmap
    obtain ⟨entry, hentry, hrun, hinc⟩ := h.task p task htask
    refine List.mem_map.2 ⟨⟨task.id, entry⟩, List.mem_filter.2 ⟨?_, by simpa using hrun⟩, hinc⟩
    exact AList.mem_lookup_iff.1 hentry
  · intro i hi
    have : i ∈ d.unsent := hi
    rw [h.unsent] at this
    cases this
  · intro i hi
    have : i ∈ d.sends.drop d.sends.length := hi
    rw [List.drop_length] at this
    cases this
  · show 0 + d.channel.length + d.sends.length ≤ d.sends.length
    rw [h.channel]
    simp

/-- Only flags and the calls change. -/
theorem Inv.congr_waits (h : d.Inv) {manager : Manager}
    (hmanager : manager = { d.manager with stopFlags := manager.stopFlags }) {waits : List Wait}
    (hactive : ∀ w ∈ waits, w ∉ d.waits → w.Active → d.ledger.Covers w)
    (hreturned : ∀ w ∈ waits, w ∉ d.waits → w.phase = .returned →
      ∀ i ∈ w.running, i ∈ d.sends.drop w.mark) :
    Inv { d with manager, waits } := by
  have hledger : Shutdown.ledger { d with manager, waits } = d.ledger := by
    rw [hmanager]
    rfl
  refine ⟨hledger ▸ h.ledger, ?_, ?_, ?_⟩
  · intro p hp
    rw [hmanager]
    exact h.leaving p hp
  · intro w hw hact
    rw [hledger]
    by_cases hold : w ∈ d.waits
    · exact h.active w hold hact
    · exact hactive w hw hold hact
  · intro w hw hphase
    by_cases hold : w ∈ d.waits
    · exact h.returned w hold hphase
    · exact hreturned w hw hold hphase

theorem Inv.stopAllAndWait (h : d.Inv) (hquiet : d.Quiet) : (d.step .stopAllAndWait).Inv := by
  have hnew : ∀ w ∈ d.waits ++ [⟨running d.manager, d.sends.length, 0,
      if running d.manager = [] then .returned else .locking⟩], w ∉ d.waits →
        w = ⟨running d.manager, d.sends.length, 0,
          if running d.manager = [] then .returned else .locking⟩ := by
    intro w hw hold
    rcases List.mem_append.1 hw with hw | hw
    · exact absurd hw hold
    · exact List.mem_singleton.1 hw
  refine h.congr_waits ?_ ?_ ?_
  · rw [Manager.stopAll_eq]
  · intro w hw hold hactive
    rw [hnew w hw hold] at hactive ⊢
    refine hquiet.covers ?_ _
    intro hnil
    rw [if_pos hnil] at hactive
    rcases hactive with hphase | hphase
    · cases hphase
    · cases hphase
  · intro w hw hold hphase i hi
    rw [hnew w hw hold] at hphase hi
    by_cases hnil : running d.manager = []
    · rw [hnil] at hi
      cases hi
    · rw [if_neg hnil] at hphase
      cases hphase

/-- A call moves on without a completion. -/
theorem Inv.set_phase (h : d.Inv) {k : ℕ} {w : Wait} (hk : d.waits[k]? = some w) (hw : w.Active)
    {phase : WaitPhase} (hphase : phase ≠ .returned) :
    Inv { d with waits := d.waits.set k { w with phase } } := by
  have hcovers := h.active w (List.mem_of_getElem? hk) hw
  have hnew : ∀ w' ∈ d.waits.set k { w with phase }, w' ∉ d.waits → w' = { w with phase } :=
    fun w' hw' hold => (List.mem_or_eq_of_mem_set hw').resolve_left hold
  refine h.congr_waits rfl ?_ ?_
  · intro w' hw' hold _
    rw [hnew w' hw' hold]
    exact ⟨hcovers.holder, hcovers.unsent, hcovers.sends, hcovers.count, hcovers.waiting⟩
  · intro w' hw' hold hret
    rw [hnew w' hw' hold] at hret
    exact absurd hret hphase

theorem Inv.recv (h : d.Inv) {k i : ℕ} {w : Wait} {channel : List ℕ} (hk : d.waits[k]? = some w)
    (hchannel : d.channel = i :: channel) (hphase : w.phase = .receiving) :
    Inv { d with channel, waits := d.waits.set k (Wait.receive w) } := by
  have hcovers := h.active w (List.mem_of_getElem? hk) (Or.inr hphase)
  have hlen : d.ledger.channel.length = channel.length + 1 := by
    show d.channel.length = _
    rw [hchannel, List.length_cons]
  refine ⟨⟨h.ledger.entry_lt, h.ledger.entry_inj, h.ledger.used_lt, h.ledger.fresh,
    h.ledger.holder_inj, h.ledger.holder_out, h.ledger.nodup⟩, h.leaving, ?_, ?_⟩
  · intro w' hw' hactive
    rcases List.mem_or_eq_of_mem_set hw' with hold | rfl
    · have hc := h.active w' hold hactive
      have := hc.count
      refine ⟨hc.holder, hc.unsent, hc.sends, ?_, hc.waiting⟩
      show w'.stopped + channel.length + w'.mark ≤ d.sends.length
      have : d.ledger.sends.length = d.sends.length := rfl
      omega
    · have := hcovers.count
      refine ⟨hcovers.holder, hcovers.unsent, hcovers.sends, ?_, ?_⟩
      · show w.stopped + 1 + channel.length + w.mark ≤ d.sends.length
        have : d.ledger.sends.length = d.sends.length := rfl
        omega
      · by_contra hge
        have hret : (Wait.receive w).phase = .returned := if_neg hge
        rcases hactive with hact | hact
        · rw [hret] at hact
          cases hact
        · rw [hret] at hact
          cases hact
  · intro w' hw' hret
    rcases List.mem_or_eq_of_mem_set hw' with hold | rfl
    · exact h.returned w' hold hret
    · refine hcovers.all_sent h.ledger ?_ ?_
      · by_contra hlt
        have hrec : (Wait.receive w).phase = .receiving := if_pos (not_le.1 hlt)
        rw [hrec] at hret
        cases hret
      · show d.channel ≠ []
        rw [hchannel]
        exact List.cons_ne_nil _ _

theorem Inv.step (h : d.Inv) {e : ShutdownEvent} (hgood : d.Good e) : (d.step e).Inv := by
  cases e with
  | manager event =>
    unfold Shutdown.step
    dsimp only
    split
    · exact h
    · next hstep => exact h.manager hgood hstep
  | send k =>
    unfold Shutdown.step
    dsimp only
    split
    · exact h
    · next hk => exact h.send hk
  | stopAllAndWait => exact h.stopAllAndWait hgood
  | lockReceiver k =>
    unfold Shutdown.step
    dsimp only
    split
    · exact h
    · next hk =>
      split_ifs with hphase
      · exact h.set_phase hk (Or.inl hphase.1) (by decide)
      · exact h
  | recv k =>
    unfold Shutdown.step
    dsimp only
    split
    · next hk hchannel =>
      split_ifs with hphase
      · exact h.recv hk hchannel hphase
      · exact h
    · exact h
  | timeout k =>
    unfold Shutdown.step
    dsimp only
    split
    · exact h
    · next hk =>
      split_ifs with hphase
      · exact h.set_phase hk (Or.inr hphase) (by decide)
      · exact h

/-- **Graceful shutdown.**  Along every run in which `stop_all_and_wait` is called with no other
completion on its way and no VM is started while it waits, a call that returns without a timeout has
waited for every VM it counted. -/
theorem waited_for_running (store : StateStore) (events : List ShutdownEvent)
    (h : Runs.EachStep step (new store) Good events) : Runs.Always step (new store) Waited events := by
  have hinv : Runs.Always step (new store) Inv events :=
    h.always (inv_new store) fun _ _ hinv hgood => hinv.step hgood
  exact fun before after heq => (hinv before after heq).waited

/-- Before the first call there is nothing to keep. -/
theorem eachStep_manager {events : List Event} {m : Manager} (hwaits : d.waits = [])
    (hrun : d.manager.run events = some m) :
    Runs.EachStep step d Good (events.map .manager) ∧
      ((events.map ShutdownEvent.manager).foldl step d).manager = m := by
  induction events generalizing d with
  | nil =>
    cases hrun
    exact ⟨Runs.eachStep_nil, rfl⟩
  | cons event events ih =>
    obtain ⟨m₁, hstep, hrest⟩ := Option.bind_eq_some_iff.1 hrun
    have hnext : d.step (.manager event) = d.goOn event.op m₁ := by
      simp only [Shutdown.step, hstep]
    have hgood : d.Good (.manager event) := by
      rintro ⟨w, hw, -⟩
      rw [hwaits] at hw
      cases hw
    have hmanager : (d.goOn event.op m₁).manager = m₁ := by
      unfold goOn
      split
      · split_ifs
        · rfl
        · rfl
      · rfl
      · rfl
    obtain ⟨heach, hlast⟩ := ih (d := d.goOn event.op m₁)
      ((goOn_frame d event.op m₁).1.trans hwaits) (by rw [hmanager]; exact hrest)
    rw [List.map_cons, Runs.eachStep_cons, List.foldl_cons, hnext]
    exact ⟨⟨hgood, heach⟩, hlast⟩

/-- The operation `p` creates and starts a VM. -/
def startVm (p : ℕ) (id : String) : List Event :=
  [.call p (.create id { kernelPath := "vmlinux", ramMib := 256 }) fun _ => true,
    .store p none, .store p none, .call p (.start id) fun _ => true, .store p none]

/-- The VM of the operation `p` halts. -/
def exitVm (p : ℕ) : List ShutdownEvent :=
  [.manager (.returns p (.exited .halt)), .manager (.lock p fun _ => true),
    .manager (.store p none), .send 0]

/-- A VM halts after the daemon has been told to stop. -/
def gracefulStop : List ShutdownEvent :=
  (startVm 0 "vm").map .manager ++ .stopAllAndWait :: (exitVm 0 ++ [.lockReceiver 0, .recv 0])

theorem graceful_stop_waits : Runs.Always step (new {}) Waited gracefulStop ∧
    (gracefulStop.foldl step (new {})).waits = [⟨[0], 0, 1, .returned⟩] := by
  obtain ⟨m, hrun⟩ : ∃ m, (Manager.new {}).run (startVm 0 "vm") = some m := ⟨_, rfl⟩
  have hinv : m.Inv := (Manager.inv_new {}).run (by decide) hrun
  obtain ⟨hstart, hm⟩ := eachStep_manager (d := new {}) rfl hrun
  have hquiet : (((startVm 0 "vm").map ShutdownEvent.manager).foldl step (new {})).Quiet := by
    refine ⟨by decide +kernel, by decide +kernel, fun p => rfl, ?_⟩
    intro p task htask
    rw [hm] at htask ⊢
    obtain ⟨entry, hentry, hby⟩ := hinv.life.runBy htask
    exact ⟨entry, hentry, hby.state, hby.incarnation⟩
  have hop : (((((startVm 0 "vm").map ShutdownEvent.manager).foldl step (new {})).step
      .stopAllAndWait).step (.manager (.returns 0 (.exited .halt)))).manager.ops 0 =
        some (.exitUpdate ⟨"vm", 0, 1, 2⟩ (.exited .halt)) := by decide +kernel
  refine ⟨waited_for_running {} gracefulStop (Runs.eachStep_append.2 ⟨hstart, ?_⟩),
    by decide +kernel⟩
  refine Runs.eachStep_cons.2 ⟨hquiet, Runs.eachStep_cons.2 ⟨fun _ h => h,
    Runs.eachStep_cons.2 ⟨?_, Runs.eachStep_cons.2 ⟨fun _ h => h, Runs.eachStep_cons.2 ⟨trivial,
      Runs.eachStep_cons.2 ⟨trivial, Runs.eachStep_cons.2 ⟨trivial, Runs.eachStep_nil⟩⟩⟩⟩⟩⟩⟩
  rintro - ⟨id, entry, hrestart, -⟩
  cases hop.symm.trans hrestart

/-- One VM halts on its own and another is running when the daemon is told to stop. -/
def selfStopped : List ShutdownEvent :=
  ((startVm 0 "first" ++ startVm 1 "second").map .manager ++ exitVm 0) ++
    [.stopAllAndWait, .lockReceiver 0, .recv 0]

/-- The call returns with the message of the first VM, and the second has not exited. -/
theorem stale_completion_counts : ¬(selfStopped.foldl step (new {})).Waited := by
  have hwaits : (selfStopped.foldl step (new {})).waits = [⟨[3], 1, 1, .returned⟩] := by
    decide +kernel
  have hsends : (selfStopped.foldl step (new {})).sends = [0] := by decide +kernel
  intro h
  obtain ⟨hmem, -⟩ := h ⟨[3], 1, 1, .returned⟩ (by rw [hwaits]; simp) rfl 3 (by simp)
  rw [hsends] at hmem
  cases hmem

end Shutdown

end Hitz.Daemon
