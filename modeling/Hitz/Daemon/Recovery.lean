import Hitz.Daemon.FileStore
import Mathlib.Data.List.DropRight

/-!
# Recovery from the files (`hitz-daemon/src/state_store.rs`)

After a restart the daemon has only what `load_all` finds.  The files of the store on disk
(`FileStore`) are those of the parsed store (`StateStore`), call by call, and the parsed store holds
what was saved last.

* `Refines`: the files on disk are the parsed ones;
* `Refines.apply`: every call for a plain id succeeds and keeps that;
* `lastConfig`, `lastState`: what was saved since the last delete;
* `recovers_last_saved`: `load_all` after any calls.
-/

namespace Hitz.Daemon

open Api FileTree
open scoped List

/-- The id is one normal component of a path. -/
def Plain (platform : Platform) (id : String) : Prop :=
  (splitDrive platform id.toList).1 = none ∧ id ≠ "" ∧ id ≠ "." ∧ id ≠ ".." ∧
    '/' ∉ id.toList ∧ (platform = .windows → '\\' ∉ id.toList)

theorem splitDrive_none {platform : Platform} {text : List Char}
    (h : (splitDrive platform text).1 = none) : (splitDrive platform text).2 = text := by
  unfold splitDrive at h ⊢
  split at h
  · split_ifs at h ⊢
    rfl
  · rfl

theorem Plain.vmDir {τ : Type} {store : FileStore τ} {id : String} (h : Plain store.platform id) :
    store.vmDir id = store.baseDir.child id := by
  obtain ⟨hdrive, hne, hdot, -⟩ := h
  have hname : store.idName id = id.toList := splitDrive_none hdrive
  have hchild : store.NamesChild id := by
    refine ⟨?_, ?_, ?_⟩
    · rw [hname]
      simpa using hne
    · rw [hname]
      intro heq
      exact hdot (String.toList_injective heq)
    · intro c hc
      rw [hdrive] at hc
      cases hc
  rw [store.vmDir_of_namesChild hchild, hname, String.ofList_toList]

/-- A call on the parsed store. -/
def StateStore.apply (s : StateStore) : StoreCall → StateStore
  | .saveConfig id config => s.saveConfig id config
  | .saveState id state _ => s.saveState id state
  | .delete id => s.delete id

namespace FileStore

variable {τ : Type} {store : FileStore τ} {fs fs' : FileSys τ} {id name : String}

/-- The file of a state, with some time stamps. -/
def StateFile (store : FileStore τ) : Option (Node τ) → Option VmState → Prop
  | n, none => n = none
  | n, some state => ∃ createdAt updatedAt,
      n = some (.file (store.codec.encodeState ⟨state, createdAt, updatedAt⟩))

/-- What is in the directory of a VM; `none` if there is none. -/
def Holds (store : FileStore τ) (fs : FileSys τ) (name : String) : Option VmFiles → Prop
  | none => ∀ p, Under (store.baseDir.child name) p → look fs p = none
  | some files =>
    look fs (store.baseDir.child name) = some .dir ∧
    look fs ((store.baseDir.child name).child "config.json") =
      files.config.map (fun config => .file (store.codec.encodeConfig config)) ∧
    store.StateFile (look fs ((store.baseDir.child name).child "state.json")) files.state

/-- The files on disk are those of the parsed store. -/
structure Refines (store : FileStore τ) (fs : FileSys τ) (s : StateStore) : Prop where
  present : Present fs store.baseDir
  plain : ∀ name ∈ s.dirs, Plain store.platform name
  holds : ∀ name, store.Holds fs name (s.dirs.lookup name)

theorem Holds.congr {files : Option VmFiles} (h : store.Holds fs name files)
    (heq : ∀ p, Under (store.baseDir.child name) p → look fs' p = look fs p) :
    store.Holds fs' name files := by
  cases files with
  | none =>
    intro p hp
    rw [heq p hp, h p hp]
  | some files =>
    obtain ⟨hdir, hconfig, hstate⟩ := h
    refine ⟨?_, ?_, ?_⟩
    · rw [heq _ (Under.refl _), hdir]
    · rw [heq _ (under_child _ _), hconfig]
    · rw [heq _ (under_child _ _)]
      exact hstate

/-- The directory of a VM is never a file. -/
theorem Holds.not_file {files : Option VmFiles} (h : store.Holds fs name files) (c : τ) :
    look fs (store.baseDir.child name) ≠ some (.file c) := by
  intro hfile
  cases files with
  | none =>
    rw [h _ (Under.refl _)] at hfile
    cases hfile
  | some files =>
    rw [h.1] at hfile
    cases hfile

theorem Holds.config_ne_dir {files : Option VmFiles} (h : store.Holds fs name files) :
    look fs ((store.baseDir.child name).child "config.json") ≠ some .dir := by
  cases files with
  | none =>
    rw [h _ (under_child _ _)]
    exact (Option.some_ne_none _).symm
  | some files =>
    rw [h.2.1]
    cases files.config with
    | none => exact (Option.some_ne_none _).symm
    | some config => simp

theorem Holds.state_ne_dir {files : Option VmFiles} (h : store.Holds fs name files) :
    look fs ((store.baseDir.child name).child "state.json") ≠ some .dir := by
  cases files with
  | none =>
    rw [h _ (under_child _ _)]
    exact (Option.some_ne_none _).symm
  | some files =>
    intro hdir
    obtain ⟨-, -, hstate⟩ := h
    rw [hdir] at hstate
    cases hs : files.state with
    | none =>
      rw [hs] at hstate
      cases hstate
    | some state =>
      rw [hs] at hstate
      obtain ⟨_, _, hfile⟩ := hstate
      cases hfile

/-- Creating the directory of a VM and writing a file in it. -/
theorem Holds.create_write {files : Option VmFiles} (h : store.Holds fs name files)
    (hfs : Present fs store.baseDir) {file : String}
    (hno : look fs ((store.baseDir.child name).child file) ≠ some .dir) :
    ∃ fs₁, createDirAll fs (store.baseDir.child name) = (.ok (), fs₁) ∧
      (∀ p, look fs₁ p = if p = store.baseDir.child name then some .dir else look fs p) ∧
      ∀ content, ∃ fs₂,
        write fs₁ (store.baseDir.child name) file content = (.ok (), fs₂) ∧
        ∀ p, look fs₂ p = if p = (store.baseDir.child name).child file then some (.file content)
          else if p = store.baseDir.child name then some .dir else look fs p := by
  obtain ⟨fs₁, hcreate, hlook₁⟩ := createDirAll_ok hfs h.not_file
  refine ⟨fs₁, hcreate, hlook₁, fun content => ?_⟩
  have hdir : look fs₁ (store.baseDir.child name) = some .dir := by rw [hlook₁, if_pos rfl]
  have hno' : look fs₁ ((store.baseDir.child name).child file) ≠ some .dir := by
    rw [hlook₁, if_neg (child_ne_self _ _)]
    exact hno
  obtain ⟨fs₂, hwrite, hlook₂⟩ := write_ok hdir hno' content
  refine ⟨fs₂, hwrite, fun p => ?_⟩
  rw [hlook₂, hlook₁]

/-- What was there, or nothing. -/
theorem Holds.getD {files : Option VmFiles} (h : store.Holds fs name files) :
    look fs ((store.baseDir.child name).child "config.json") =
      (files.getD {}).config.map (fun config => .file (store.codec.encodeConfig config)) ∧
    store.StateFile (look fs ((store.baseDir.child name).child "state.json"))
      (files.getD {}).state := by
  cases files with
  | none => exact ⟨h _ (under_child _ _), h _ (under_child _ _)⟩
  | some files => exact h.2

theorem Holds.saveConfig {files : Option VmFiles} (h : store.Holds fs id files)
    (hfs : Present fs store.baseDir) (hid : Plain store.platform id) (config : VmConfig) :
    ∃ fs', store.saveConfig fs id config = (.ok (), fs') ∧
      store.Holds fs' id (some { files.getD {} with config := some config }) ∧
      look fs' ((store.baseDir.child id).child "state.json") =
        look fs ((store.baseDir.child id).child "state.json") := by
  obtain ⟨fs₁, hcreate, -, hwrite⟩ := h.create_write hfs h.config_ne_dir
  obtain ⟨fs₂, hwrite, hlook⟩ := hwrite (store.codec.encodeConfig config)
  have hstate : look fs₂ ((store.baseDir.child id).child "state.json") =
      look fs ((store.baseDir.child id).child "state.json") := by
    have hne : (store.baseDir.child id).child "state.json" ≠
        (store.baseDir.child id).child "config.json" :=
      fun heq => absurd (child_inj heq) (by decide)
    rw [hlook, if_neg hne, if_neg (child_ne_self _ _)]
  refine ⟨fs₂, ?_, ⟨?_, ?_, ?_⟩, hstate⟩
  · rw [FileStore.saveConfig, hid.vmDir, hcreate]
    exact hwrite
  · rw [hlook, if_neg (child_ne_self _ _).symm, if_pos rfl]
  · rw [hlook, if_pos rfl]
    rfl
  · rw [hstate]
    exact h.getD.2

/-- The time stamps do not matter to what the directory holds. -/
theorem Holds.saveState {files : Option VmFiles} (h : store.Holds fs id files)
    (hfs : Present fs store.baseDir) (hid : Plain store.platform id) (state : VmState)
    (now : UInt64) :
    ∃ fs', store.saveState fs id state now = (.ok (), fs') ∧
      store.Holds fs' id (some { files.getD {} with state := some state }) ∧
      look fs' ((store.baseDir.child id).child "state.json") = some (.file
        (store.codec.encodeState
          ⟨state, (store.loadRawState fs id).elim now (·.createdAt), now⟩)) := by
  obtain ⟨fs₁, hcreate, hlook₁, hwrite⟩ := h.create_write hfs h.state_ne_dir
  have hraw : store.loadRawState fs₁ id = store.loadRawState fs id := by
    unfold loadRawState readToString
    rw [hid.vmDir, hlook₁, if_neg (child_ne_self _ _)]
  obtain ⟨fs₂, hwrite, hlook⟩ := hwrite (store.codec.encodeState
    ⟨state, (store.loadRawState fs id).elim now (·.createdAt), now⟩)
  have hstate := hlook ((store.baseDir.child id).child "state.json")
  rw [if_pos rfl] at hstate
  refine ⟨fs₂, ?_, ⟨?_, ?_, ?_⟩, hstate⟩
  · rw [FileStore.saveState, hid.vmDir, hcreate]
    simp only
    rw [hraw]
    exact hwrite
  · rw [hlook, if_neg (child_ne_self _ _).symm, if_pos rfl]
  · have hne : (store.baseDir.child id).child "config.json" ≠
        (store.baseDir.child id).child "state.json" :=
      fun heq => absurd (child_inj heq) (by decide)
    rw [hlook, if_neg hne, if_neg (child_ne_self _ _)]
    exact h.getD.1
  · rw [hstate]
    exact ⟨_, _, rfl⟩

theorem Holds.delete {files : Option VmFiles} (h : store.Holds fs id files)
    (hid : Plain store.platform id) :
    ∃ fs', store.delete fs id = (.ok (), fs') ∧ store.Holds fs' id none := by
  unfold FileStore.delete
  rw [hid.vmDir]
  cases files with
  | none =>
    -- there is no directory to remove
    rw [removeDirAll_notFound (h _ (Under.refl _))]
    exact ⟨fs, rfl, h⟩
  | some files =>
    obtain ⟨fs', hremove, hlook⟩ := removeDirAll_ok h.1
    rw [hremove]
    refine ⟨fs', rfl, fun p hp => ?_⟩
    rw [hlook, if_pos hp]

end FileStore

theorem Plain.properId {platform : Platform} {id : String} (h : Plain platform id) :
    StateStore.ProperId id := by
  unfold StateStore.ProperId StateStore.vmDir
  rw [if_neg (not_or.2 ⟨h.2.1, h.2.2.1⟩)]
  exact Option.some_ne_none id

theorem StateStore.lookup_apply_ne {s : StateStore} {call : StoreCall} (h : ProperId call.id)
    {name : String} (hne : name ≠ call.id) :
    (s.apply call).dirs.lookup name = s.dirs.lookup name := by
  cases call with
  | saveConfig id config => exact (lookup_update h _ _).trans (if_neg hne)
  | saveState id state now => exact (lookup_update h _ _).trans (if_neg hne)
  | delete id => exact (lookup_delete h _).trans (if_neg hne)

namespace FileStore

variable {τ : Type} {store : FileStore τ} {fs fs' : FileSys τ} {s : StateStore}

/-- A call does in the directory of its VM what it does in the parsed store. -/
theorem Refines.apply_own (h : store.Refines fs s) {call : StoreCall}
    (hid : Plain store.platform call.id) :
    ∃ fs', store.apply fs call = (.ok (), fs') ∧
      store.Holds fs' call.id ((s.apply call).dirs.lookup call.id) := by
  have hholds := h.holds call.id
  cases call with
  | saveConfig id config =>
    have hid : Plain store.platform id := hid
    obtain ⟨fs', heq, hfs', -⟩ := hholds.saveConfig h.present hid config
    refine ⟨fs', heq, ?_⟩
    have hlookup : (s.saveConfig id config).dirs.lookup id =
        some { s.dir id with config := some config } :=
      (StateStore.lookup_update hid.properId _ id).trans (if_pos rfl)
    show store.Holds fs' id ((s.saveConfig id config).dirs.lookup id)
    rw [hlookup]
    exact hfs'
  | saveState id state now =>
    have hid : Plain store.platform id := hid
    obtain ⟨fs', heq, hfs', -⟩ := hholds.saveState h.present hid state now
    refine ⟨fs', heq, ?_⟩
    have hlookup : (s.saveState id state).dirs.lookup id =
        some { s.dir id with state := some state } :=
      (StateStore.lookup_update hid.properId _ id).trans (if_pos rfl)
    show store.Holds fs' id ((s.saveState id state).dirs.lookup id)
    rw [hlookup]
    exact hfs'
  | delete id =>
    have hid : Plain store.platform id := hid
    obtain ⟨fs', heq, hfs'⟩ := hholds.delete hid
    refine ⟨fs', heq, ?_⟩
    have hlookup : (s.delete id).dirs.lookup id = none :=
      (StateStore.lookup_delete hid.properId id).trans (if_pos rfl)
    show store.Holds fs' id ((s.delete id).dirs.lookup id)
    rw [hlookup]
    exact hfs'

/-- **Refinement.**  A call for a plain id succeeds, and the files stay those of the parsed
store. -/
theorem Refines.apply (h : store.Refines fs s) {call : StoreCall}
    (hid : Plain store.platform call.id) :
    ∃ fs', store.apply fs call = (.ok (), fs') ∧ store.Refines fs' (s.apply call) := by
  obtain ⟨fs', heq, hown⟩ := h.apply_own hid
  have hframe : ∀ p, ¬Under (store.baseDir.child call.id) p → look fs' p = look fs p := by
    intro p hp
    have := store.look_apply call hid.vmDir h.present hp
    rw [heq] at this
    exact this
  refine ⟨fs', heq, ?_, ?_, ?_⟩
  · intro ns hne hns
    rw [hframe _ (not_under_child_of_le hns), h.present ns hne hns]
  · intro name hname
    by_cases heq : name = call.id
    · rw [heq]
      exact hid
    · refine h.plain name (AList.lookup_isSome.1 ?_)
      rw [← StateStore.lookup_apply_ne hid.properId heq]
      exact AList.lookup_isSome.2 hname
  · intro name
    by_cases heq : name = call.id
    · rw [heq]
      exact hown
    · rw [StateStore.lookup_apply_ne hid.properId heq]
      refine (h.holds name).congr fun p hp => hframe p fun hp' => heq ?_
      exact child_eq_of_under hp hp'

/-! ### Loading -/

theorem Refines.loadRawState (h : store.Refines fs s) {id : String}
    (hid : Plain store.platform id) :
    (store.loadRawState fs id).map (·.state) = (s.dir id).state := by
  have hstate : store.StateFile (look fs ((store.baseDir.child id).child "state.json"))
      (s.dir id).state := (h.holds id).getD.2
  unfold FileStore.loadRawState readToString
  rw [hid.vmDir]
  cases hs : (s.dir id).state with
  | none =>
    rw [hs] at hstate
    rw [show look fs ((store.baseDir.child id).child "state.json") = none from hstate]
    rfl
  | some state =>
    rw [hs] at hstate
    obtain ⟨createdAt, updatedAt, hfile⟩ := hstate
    rw [hfile]
    simp [store.codec.decodeState_encode]

theorem Refines.loadEntry (h : store.Refines fs s) {id : String} :
    store.loadEntry fs id = (s.dir id).config.bind fun config =>
      some (id, config, StateStore.recoveredState (s.dir id).state) := by
  have hholds := h.holds id
  unfold FileStore.loadEntry
  cases hlookup : s.dirs.lookup id with
  | none =>
    rw [hlookup] at hholds
    have hdir : isDir fs (store.baseDir.child id) = false := by
      unfold isDir
      rw [hholds _ (Under.refl _)]
      simp [Loc.child]
    simp [hdir, StateStore.dir, hlookup]
  | some files =>
    rw [hlookup] at hholds
    have hid : Plain store.platform id :=
      h.plain id (AList.lookup_isSome.1 (by rw [hlookup]; rfl))
    have hraw := h.loadRawState hid
    have hfiles : s.dir id = files := by simp [StateStore.dir, hlookup]
    rw [hfiles] at hraw ⊢
    rw [if_pos (isDir_of_look hholds.1), readToString, hholds.2.1, hraw]
    cases files.config with
    | none => rfl
    | some config => simp [store.codec.decodeConfig_encode]

/-- `load_all` finds the VMs of the parsed store, each once. -/
theorem Refines.loadAll (h : store.Refines fs s) : ∃ vms, store.loadAll fs = .ok vms ∧
    (vms.map (·.1)).Nodup ∧ ∀ id config state, (id, config, state) ∈ vms ↔
      (s.dir id).config = some config ∧ state = StateStore.recoveredState (s.dir id).state := by
  obtain ⟨names, hread, hnodup, hnames⟩ := readDir_ok h.present.isDir
  have hfst : ∀ id vm, store.loadEntry fs id = some vm → vm.1 = id := by
    intro id vm hvm
    rw [h.loadEntry] at hvm
    obtain ⟨config, -, hvm⟩ := Option.bind_eq_some_iff.1 hvm
    cases hvm
    rfl
  refine ⟨names.filterMap (store.loadEntry fs), by rw [FileStore.loadAll, hread], ?_, ?_⟩
  · -- an entry carries the name it was found under
    rw [List.map_filterMap]
    refine hnodup.filterMap fun a a' b hb hb' => ?_
    obtain ⟨vm, hvm, rfl⟩ := Option.map_eq_some_iff.1 hb
    obtain ⟨vm', hvm', heq⟩ := Option.map_eq_some_iff.1 hb'
    rw [← hfst a vm hvm, ← hfst a' vm' hvm', heq]
  · intro id config state
    rw [List.mem_filterMap]
    constructor
    · rintro ⟨name, -, hvm⟩
      obtain rfl : id = name := hfst _ _ hvm
      rw [h.loadEntry] at hvm
      obtain ⟨config', hconfig, hvm⟩ := Option.bind_eq_some_iff.1 hvm
      obtain ⟨-, rfl, rfl⟩ : id = id ∧ config' = config ∧
          StateStore.recoveredState (s.dir id).state = state := by simpa using hvm
      exact ⟨hconfig, rfl⟩
    · rintro ⟨hconfig, rfl⟩
      refine ⟨id, ?_, by rw [h.loadEntry, hconfig]; rfl⟩
      rw [hnames]
      have hholds := h.holds id
      cases hlookup : s.dirs.lookup id with
      | none => simp [StateStore.dir, hlookup] at hconfig
      | some files =>
        rw [hlookup] at hholds
        rw [hholds.1]
        rfl

/-! ### Histories -/

/-- Calls one after the other. -/
def run (store : FileStore τ) : FileSys τ → List StoreCall → Except IoError (FileSys τ)
  | fs, [] => .ok fs
  | fs, call :: calls =>
    match store.apply fs call with
    | (.error e, _) => .error e
    | (.ok (), fs) => run store fs calls

end FileStore

/-- The calls since the last delete of a VM. -/
def sinceDelete (id : String) (calls : List StoreCall) : List StoreCall :=
  calls.rtakeWhile fun call => call ≠ .delete id

/-- The configuration that a call saves for a VM. -/
def StoreCall.config? (id : String) : StoreCall → Option VmConfig
  | .saveConfig id' config => if id' = id then some config else none
  | _ => none

/-- The state that a call saves for a VM. -/
def StoreCall.state? (id : String) : StoreCall → Option VmState
  | .saveState id' state _ => if id' = id then some state else none
  | _ => none

/-- The configuration saved last since the last delete. -/
def lastConfig (id : String) (calls : List StoreCall) : Option VmConfig :=
  ((sinceDelete id calls).filterMap (StoreCall.config? id)).getLast?

/-- The state saved last since the last delete. -/
def lastState (id : String) (calls : List StoreCall) : Option VmState :=
  ((sinceDelete id calls).filterMap (StoreCall.state? id)).getLast?

theorem last_concat {α : Type} (f : StoreCall → Option α) (id : String) (calls : List StoreCall)
    (call : StoreCall) :
    ((sinceDelete id (calls ++ [call])).filterMap f).getLast? =
      if call = .delete id then none
      else (f call).or ((sinceDelete id calls).filterMap f).getLast? := by
  unfold sinceDelete
  rw [List.rtakeWhile_concat]
  split_ifs with h1 h2 h2
  · simp [h2] at h1
  · rw [List.filterMap_append, List.getLast?_append]
    cases hf : f call with
    | none => simp [hf]
    | some a => simp [hf]
  · rfl
  · simp [h2] at h1

/-- The parsed store after some calls. -/
def StateStore.run (calls : List StoreCall) : StateStore := calls.foldl StateStore.apply {}

/-- The parsed store holds what was saved last. -/
theorem StateStore.dir_run {platform : Platform} {calls : List StoreCall}
    (hplain : ∀ call ∈ calls, Plain platform call.id) (id : String) :
    (StateStore.run calls).dir id = ⟨lastConfig id calls, lastState id calls⟩ := by
  induction calls using List.reverseRecOn with
  | nil => rfl
  | append_singleton calls call ih =>
    have ih := ih fun c hc => hplain c (List.mem_append_left _ hc)
    have hid := (hplain call (by simp)).properId
    have hrun : StateStore.run (calls ++ [call]) = (StateStore.run calls).apply call := by
      simp [StateStore.run]
    rw [hrun, lastConfig, lastState, last_concat, last_concat]
    cases call with
    | saveConfig id' config =>
      rw [show ((StateStore.run calls).apply (.saveConfig id' config)).dir id = _ from
        dir_update hid _ id]
      by_cases heq : id = id'
      · subst heq
        simp [StoreCall.id, StoreCall.config?, StoreCall.state?, ih, lastState]
      · simp [StoreCall.id, StoreCall.config?, StoreCall.state?, ih, heq, Ne.symm heq, lastConfig,
          lastState]
    | saveState id' state now =>
      rw [show ((StateStore.run calls).apply (.saveState id' state now)).dir id = _ from
        dir_update hid _ id]
      by_cases heq : id = id'
      · subst heq
        simp [StoreCall.id, StoreCall.config?, StoreCall.state?, ih, lastConfig]
      · simp [StoreCall.id, StoreCall.config?, StoreCall.state?, ih, heq, Ne.symm heq, lastConfig,
          lastState]
    | delete id' =>
      rw [show ((StateStore.run calls).apply (.delete id')).dir id = _ from dir_delete hid id]
      by_cases heq : id = id'
      · subst heq
        simp [StoreCall.id]
      · simp [StoreCall.id, StoreCall.config?, StoreCall.state?, ih, heq, Ne.symm heq, lastConfig,
          lastState]

/-- An empty state directory, as `StateStore::new` leaves it. -/
structure FreshStore (τ : Type) extends FileStore τ where
  fs : FileSys τ
  present : Present fs baseDir
  empty : ∀ p, Under baseDir p → p ≠ baseDir → look fs p = none

/-- `StateStore::new`, where there is nothing in the base directory. -/
def FileStore.new {τ : Type} (store : FileStore τ) (fs : FileSys τ)
    (hempty : ∀ p, Under store.baseDir p → p ≠ store.baseDir → look fs p = none)
    (hok : (createDirAll fs store.baseDir).1 = .ok ()) : FreshStore τ where
  toFileStore := store
  fs := (createDirAll fs store.baseDir).2
  present := present_createDirAll hok
  empty p hp hne := by rw [look_createDirAll_below hp hne, hempty p hp hne]

/-- A call for a plain id. -/
abbrev PlainCall (platform : Platform) := { call : StoreCall // Plain platform call.id }

namespace FreshStore

variable {τ : Type} (init : FreshStore τ)

theorem refines_empty : init.Refines init.fs {} := by
  refine ⟨init.present, fun name hname => ?_, fun name p hp => ?_⟩
  · exact absurd hname (AList.notMem_empty name)
  · refine init.empty p ((under_child _ _).trans hp) ?_
    rintro rfl
    exact not_under_child_of_le List.prefix_rfl hp

end FreshStore

namespace FileStore

variable {τ : Type} {store : FileStore τ} {fs : FileSys τ} {s : StateStore}

/-- The files after any calls. -/
theorem Refines.run (h : store.Refines fs s) {calls : List StoreCall}
    (hplain : ∀ call ∈ calls, Plain store.platform call.id) :
    ∃ fs', store.run fs calls = .ok fs' ∧ store.Refines fs' (calls.foldl StateStore.apply s) := by
  induction calls generalizing fs s with
  | nil => exact ⟨fs, rfl, h⟩
  | cons call calls ih =>
    obtain ⟨fs₁, heq, h₁⟩ := h.apply (hplain call List.mem_cons_self)
    obtain ⟨fs₂, hrun, h₂⟩ := ih h₁ fun c hc => hplain c (List.mem_cons_of_mem call hc)
    refine ⟨fs₂, ?_, h₂⟩
    rw [FileStore.run, heq]
    exact hrun

/-! ### Time stamps -/

theorem loadRawState_congr {fs' : FileSys τ} {id : String} (hid : Plain store.platform id)
    (h : look fs' ((store.baseDir.child id).child "state.json") =
      look fs ((store.baseDir.child id).child "state.json")) :
    store.loadRawState fs' id = store.loadRawState fs id := by
  unfold FileStore.loadRawState readToString
  rw [hid.vmDir, h]

/-- A call other than a delete leaves the time of creation alone. -/
theorem Refines.createdAt_apply (h : store.Refines fs s) {call : StoreCall} {fs' : FileSys τ}
    (hplain : Plain store.platform call.id) (hcall : store.apply fs call = (.ok (), fs'))
    {id : String} (hid : Plain store.platform id) (hne : call ≠ .delete id) {raw : PersistedState}
    (hraw : store.loadRawState fs id = some raw) :
    ∃ raw', store.loadRawState fs' id = some raw' ∧ raw'.createdAt = raw.createdAt := by
  by_cases heq : call.id = id
  · subst heq
    cases call with
    | saveConfig id config =>
      obtain ⟨fs₁, heq, -, hstate⟩ := (h.holds id).saveConfig h.present hid config
      obtain rfl : fs₁ = fs' := congrArg Prod.snd (heq.symm.trans hcall)
      exact ⟨raw, (loadRawState_congr hid hstate).trans hraw, rfl⟩
    | saveState id state now =>
      obtain ⟨fs₁, heq, -, hstate⟩ := (h.holds id).saveState h.present hid state now
      obtain rfl : fs₁ = fs' := congrArg Prod.snd (heq.symm.trans hcall)
      refine ⟨⟨state, raw.createdAt, now⟩, ?_, rfl⟩
      have hraw : store.loadRawState fs id = some raw := hraw
      have hdir : store.vmDir (StoreCall.saveState id state now).id = store.baseDir.child id :=
        hid.vmDir
      rw [hraw] at hstate
      unfold FileStore.loadRawState readToString
      rw [hdir, hstate]
      exact store.codec.decodeState_encode _
    | delete id => exact absurd rfl hne
  · -- the file of another VM
    have hunder : ¬Under (store.baseDir.child call.id) ((store.baseDir.child id).child "state.json") :=
      fun hu => heq (child_eq_of_under hu (under_child _ _))
    have hlook := store.look_apply call hplain.vmDir h.present hunder
    rw [hcall] at hlook
    exact ⟨raw, (loadRawState_congr hid hlook).trans hraw, rfl⟩

theorem Refines.createdAt_run (h : store.Refines fs s) {calls : List StoreCall}
    (hplain : ∀ call ∈ calls, Plain store.platform call.id) {fs' : FileSys τ}
    (hrun : store.run fs calls = .ok fs') {id : String} (hid : Plain store.platform id)
    (hne : ∀ call ∈ calls, call ≠ .delete id) {raw : PersistedState}
    (hraw : store.loadRawState fs id = some raw) :
    ∃ raw', store.loadRawState fs' id = some raw' ∧ raw'.createdAt = raw.createdAt := by
  induction calls generalizing fs s raw with
  | nil =>
    cases hrun
    exact ⟨raw, hraw, rfl⟩
  | cons call calls ih =>
    have hcall := hplain call List.mem_cons_self
    obtain ⟨fs₁, heq, h₁⟩ := h.apply hcall
    rw [FileStore.run, heq] at hrun
    obtain ⟨raw₁, hraw₁, hcreated⟩ :=
      h.createdAt_apply hcall heq hid (hne call List.mem_cons_self) hraw
    obtain ⟨raw₂, hraw₂, hcreated'⟩ := ih h₁
      (fun c hc => hplain c (List.mem_cons_of_mem call hc)) hrun
      (fun c hc => hne c (List.mem_cons_of_mem call hc)) hraw₁
    exact ⟨raw₂, hraw₂, hcreated'.trans hcreated⟩

theorem run_append {fs₁ fs₂ : FileSys τ} {calls₁ calls₂ : List StoreCall}
    (h₁ : store.run fs calls₁ = .ok fs₁) (h : store.run fs (calls₁ ++ calls₂) = .ok fs₂) :
    store.run fs₁ calls₂ = .ok fs₂ := by
  induction calls₁ generalizing fs with
  | nil =>
    cases h₁
    exact h
  | cons call calls₁ ih =>
    rw [List.cons_append, FileStore.run] at h
    rw [FileStore.run] at h₁
    split at h₁
    · cases h₁
    · next hcall =>
      rw [hcall] at h
      exact ih h₁ h

end FileStore

/-- **Recovery.**  After any calls for plain ids `load_all` finds exactly the VMs with a
configuration saved since their last delete, once each, with the configuration and the state saved
last, and the time of creation stays the same until the VM is deleted. -/
theorem FreshStore.recovers_last_saved {τ : Type} (init : FreshStore τ)
    (calls : List (PlainCall init.platform)) :
    ∃ fs vms, init.run init.fs (calls.map (·.1)) = .ok fs ∧ init.loadAll fs = .ok vms ∧
      (vms.map (·.1)).Nodup ∧
      (∀ id config state, (id, config, state) ∈ vms ↔
        lastConfig id (calls.map (·.1)) = some config ∧
          state = StateStore.recoveredState (lastState id (calls.map (·.1)))) ∧
      ∀ before after, calls = before ++ after → ∀ id, Plain init.platform id →
        (∀ call ∈ after, call.1 ≠ .delete id) → ∀ fs' raw,
          init.run init.fs (before.map (·.1)) = .ok fs' → init.loadRawState fs' id = some raw →
            ∃ raw', init.loadRawState fs id = some raw' ∧ raw'.createdAt = raw.createdAt := by
  have hplain : ∀ (cs : List (PlainCall init.platform)), ∀ call ∈ cs.map (·.1),
      Plain init.platform call.id := by
    intro cs call hcall
    obtain ⟨c, -, rfl⟩ := List.mem_map.1 hcall
    exact c.2
  obtain ⟨fs, hrun, hfs⟩ := init.refines_empty.run (hplain calls)
  obtain ⟨vms, hload, hnodup, hvms⟩ := hfs.loadAll
  refine ⟨fs, vms, hrun, hload, hnodup, ?_, ?_⟩
  · intro id config state
    rw [hvms, show (calls.map (·.1)).foldl StateStore.apply {} = StateStore.run _ from rfl,
      StateStore.dir_run (hplain calls)]
  · rintro before after rfl id hid hne fs' raw hbefore hraw
    obtain ⟨fs₁, hrun₁, hfs₁⟩ := init.refines_empty.run (hplain before)
    obtain rfl : fs₁ = fs' := Except.ok.inj (hrun₁.symm.trans hbefore)
    rw [List.map_append] at hrun
    refine hfs₁.createdAt_run (hplain after) (FileStore.run_append hbefore hrun) hid ?_ hraw
    intro call hcall
    obtain ⟨c, hc, rfl⟩ := List.mem_map.1 hcall
    exact hne c hc

end Hitz.Daemon
