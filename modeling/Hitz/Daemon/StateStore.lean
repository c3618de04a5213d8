import Hitz.Api.Types

/-!
# The state store (`hitz-daemon/src/state_store.rs`)

A VM is kept in the directory `base_dir.join(id)`.  `vmDir` names that directory: the empty id and
`"."` resolve to the base directory itself, which holds the directories of all VMs.

The time stamps of `state.json` are left out: nothing but `save_state` reads them.
-/

namespace Hitz.Daemon

open Api

/-- The files of one directory, parsed. -/
structure VmFiles where
  config : Option VmConfig := none
  state : Option VmState := none
  deriving DecidableEq, Repr

/-- The state directory: the files in the base directory, and its subdirectories. -/
structure StateStore where
  base : VmFiles := {}
  dirs : AList fun _ : String => VmFiles := ∅

namespace StateStore

/-- `vm_dir`: the subdirectory of a VM, `none` for the base directory. -/
def vmDir (id : String) : Option String :=
  if id = "" ∨ id = "." then none else some id

/-- The files in a subdirectory. -/
def dir (store : StateStore) (name : String) : VmFiles := (store.dirs.lookup name).getD {}

/-- Change the files in the directory of a VM, which is created when it does not exist. -/
def update (store : StateStore) (id : String) (f : VmFiles → VmFiles) : StateStore :=
  match vmDir id with
  | none => { store with base := f store.base }
  | some name => { store with dirs := store.dirs.insert name (f (store.dir name)) }

/-- `save_config`. -/
def saveConfig (store : StateStore) (id : String) (config : VmConfig) : StateStore :=
  store.update id fun files => { files with config := some config }

/-- `save_state`. -/
def saveState (store : StateStore) (id : String) (state : VmState) : StateStore :=
  store.update id fun files => { files with state := some state }

/-- `delete`: remove the directory of a VM with everything below it. -/
def delete (store : StateStore) (id : String) : StateStore :=
  match vmDir id with
  | none => {}
  | some name => { store with dirs := store.dirs.erase name }

/-- The state a VM is recovered in: a VM that was running when the daemon ended is stopped. -/
def recoveredState : Option VmState → VmState
  | none => .created
  | some .running => .stopped
  | some state => state

/-- `load_all`: the VMs with a `config.json`. -/
def loadAll (store : StateStore) : List (String × VmConfig × VmState) :=
  store.dirs.entries.filterMap fun ⟨id, files⟩ =>
    files.config.map fun config => (id, config, recoveredState files.state)

/-! ### What the calls change -/

variable {store : StateStore} {id : String}

/-- The id names a directory of its own. -/
def ProperId (id : String) : Prop := vmDir id ≠ none

instance : Decidable (ProperId id) := inferInstanceAs (Decidable (_ ≠ _))

theorem vmDir_of_properId (h : ProperId id) : vmDir id = some id := by
  unfold ProperId vmDir at *
  split_ifs at h ⊢
  · exact absurd rfl h
  · rfl

theorem lookup_update (h : ProperId id) (f : VmFiles → VmFiles) (name : String) :
    (store.update id f).dirs.lookup name =
      if name = id then some (f (store.dir id)) else store.dirs.lookup name := by
  unfold update
  rw [vmDir_of_properId h]
  split_ifs with hname
  · rw [hname, AList.lookup_insert]
  · rw [AList.lookup_insert_ne hname]

theorem lookup_delete (h : ProperId id) (name : String) :
    (store.delete id).dirs.lookup name =
      if name = id then none else store.dirs.lookup name := by
  unfold delete
  rw [vmDir_of_properId h]
  split_ifs with hname
  · rw [hname, AList.lookup_erase]
  · rw [AList.lookup_erase_ne hname]

theorem dir_update (h : ProperId id) (f : VmFiles → VmFiles) (name : String) :
    (store.update id f).dir name = if name = id then f (store.dir id) else store.dir name := by
  unfold dir
  rw [lookup_update h]
  split_ifs with hname
  · rfl
  · rfl

theorem dir_delete (h : ProperId id) (name : String) :
    (store.delete id).dir name = if name = id then {} else store.dir name := by
  unfold dir
  rw [lookup_delete h]
  split_ifs with hname
  · rfl
  · rfl

theorem mem_loadAll {store : StateStore} {id : String} {config : VmConfig} {state : VmState} :
    (id, config, state) ∈ store.loadAll ↔ ∃ files, store.dirs.lookup id = some files ∧
      files.config = some config ∧ state = recoveredState files.state := by
  unfold loadAll
  rw [List.mem_filterMap]
  constructor
  · rintro ⟨⟨id', files⟩, hmem, hsome⟩
    obtain ⟨c, hc, heq⟩ := Option.map_eq_some_iff.1 hsome
    cases heq
    exact ⟨files, AList.mem_lookup_iff.2 hmem, hc, rfl⟩
  · rintro ⟨files, hlookup, hc, rfl⟩
    exact ⟨⟨id, files⟩, AList.mem_lookup_iff.1 hlookup, by simp only [hc, Option.map_some]⟩

end StateStore

end Hitz.Daemon
