import Hitz.Boot.Acpi
import Hitz.Lib.Newc

/-!
# The cpio builder (`hitz-boot/src/cpio.rs`)

* `addFile`, `finish`, `appendEntry` follow the source.  A path is the UTF-8 bytes of the `&str`;
  lengths are cast to 32 bits; the inode counter is a `u32`, whose overflow panics in a build with
  overflow checks and wraps in one without (`checked`).
* `ReadsBack`: a newc parser gets the files back, in order, from a well-formed archive.

The casts and the counter bound what the builder can do: a path whose size with its zero fits 32
bits, contents that do, and as many files as there are inode numbers (`build_readsBack`).
-/

namespace Hitz.Boot

open Newc

/-- A file to be added. -/
structure CpioFile where
  path : List UInt8
  content : List UInt8
  mode : UInt32
  deriving DecidableEq, Repr

/-- The archive so far, and the next inode number. -/
structure CpioBuilder where
  data : List UInt8 := []
  inode : UInt32 := 1
  deriving DecidableEq, Repr

namespace CpioBuilder

/-- `self.inode += 1`; `none` is a panic. -/
def nextInode (checked : Bool) (inode : UInt32) : Option UInt32 :=
  if checked && decide (2 ^ 32 ≤ inode.toNat + 1) then none else some (inode + 1)

/-- The formatted header: the magic number and thirteen fields `{:08x}`. -/
def formatHeader (inode mode filesize32 namesize32 : UInt32) : List UInt8 :=
  ascii "070701" ++
    [inode, mode, 0, 0, 1, 0, filesize32, 0, 0, 0, 0, namesize32, 0].flatMap
      fun n : UInt32 => hex8 n.toNat

/-- What `append_entry` appends. -/
def entry (inode : UInt32) (name content : List UInt8) (mode : UInt32) : List UInt8 :=
  let namesize := name.length + 1
  let filesize := content.length
  let namesize32 := UInt32.ofNat namesize
  let filesize32 := UInt32.ofNat filesize
  let nameTotal := 110 + namesize
  let namePad := (4 - nameTotal % 4) % 4
  let dataPad := (4 - filesize % 4) % 4
  formatHeader inode mode filesize32 namesize32 ++ name ++ [0] ++ List.replicate namePad 0 ++
    content ++ List.replicate dataPad 0

/-- `append_entry`; its assertion on the header's length always holds (`length_formatHeader`). -/
def appendEntry (checked : Bool) (b : CpioBuilder) (name content : List UInt8) (mode : UInt32) :
    Option CpioBuilder := do
  let inode ← nextInode checked b.inode
  some { data := b.data ++ entry b.inode name content mode, inode := inode }

/-- Mode of a regular file with the permission bits of `mode`. -/
def regularMode (mode : UInt32) : UInt32 := 0o100000 ||| (mode &&& 0o7777)

/-- Add a regular file. -/
def addFile (checked : Bool) (b : CpioBuilder) (f : CpioFile) : Option CpioBuilder :=
  appendEntry checked b f.path f.content (regularMode f.mode)

/-- The name of the entry that ends an archive. -/
def trailerName : List UInt8 := ascii "TRAILER!!!"

/-- Append the trailer. -/
def finish (checked : Bool) (b : CpioBuilder) : Option (List UInt8) :=
  (appendEntry checked b trailerName [] 0).map data

/-- `add_file` for every file in order, then `finish`, from a given builder. -/
def buildFrom (checked : Bool) (b : CpioBuilder) (files : List CpioFile) : Option (List UInt8) :=
  files.foldlM (addFile checked) b >>= finish checked

/-- `add_file` for every file in order, then `finish`. -/
def build (checked : Bool) (files : List CpioFile) : Option (List UInt8) :=
  buildFrom checked {} files

/-- A newc parser reads the files back from the archive, in order and with different inode
numbers; headers are aligned, the trailer is last and only its padding follows. -/
def ReadsBack (files : List CpioFile) (archive : List UInt8) : Prop :=
  ∃ recs trailer, parse archive = some (recs ++ [trailer]) ∧
    recs.map (fun r => (r.name, r.data, r.header.mode)) =
      files.map (fun f => (f.path, f.content, 0o100000 + f.mode.toNat % 0o10000)) ∧
    (recs.map fun r => r.header.ino).Nodup ∧
    (∀ r ∈ recs ++ [trailer], r.offset % 4 = 0) ∧
    trailer.name = ascii "TRAILER!!!" ∧ trailer.data = [] ∧
    archive.length = align4 (trailer.offset + 110 + trailer.header.namesize)

/-- How many files a builder has inode numbers for. -/
def inodeLimit (checked : Bool) : ℕ := if checked then 2 ^ 32 - 3 else 2 ^ 32

/-! ### One entry -/

@[simp] theorem length_formatHeader (inode mode filesize32 namesize32 : UInt32) :
    (formatHeader inode mode filesize32 namesize32).length = 110 := rfl

/-- The header of an entry, as the format has it. -/
def entryHeader (inode : UInt32) (name content : List UInt8) (mode : UInt32) : Header where
  ino := inode.toNat
  mode := mode.toNat
  uid := 0
  gid := 0
  nlink := 1
  mtime := 0
  filesize := (UInt32.ofNat content.length).toNat
  devmajor := 0
  devminor := 0
  rdevmajor := 0
  rdevminor := 0
  namesize := (UInt32.ofNat (name.length + 1)).toNat
  check := 0

theorem formatHeader_eq (inode mode : UInt32) (name content : List UInt8) :
    formatHeader inode mode (UInt32.ofNat content.length) (UInt32.ofNat (name.length + 1)) =
      (entryHeader inode name content mode).bytes := rfl

theorem entryHeader_fields_lt (inode : UInt32) (name content : List UInt8) (mode : UInt32) :
    ∀ n ∈ (entryHeader inode name content mode).fields, n < 2 ^ 32 := by
  have h1 := inode.toNat_lt
  have h2 := mode.toNat_lt
  have h3 := (UInt32.ofNat content.length).toNat_lt
  have h4 := (UInt32.ofNat (name.length + 1)).toNat_lt
  simp only [Header.fields, entryHeader, List.forall_mem_cons, List.not_mem_nil, false_imp_iff,
    implies_true, and_true]
  omega

theorem pad_eq (n : ℕ) : (4 - n % 4) % 4 = align4 n - n := by
  simp only [align4]
  omega

/-- An entry is its record, padded to a multiple of four. -/
theorem entry_eq (inode : UInt32) (name content : List UInt8) (mode : UInt32) :
    entry inode name content mode = encode (entryHeader inode name content mode) name content ++
      List.replicate (align4 content.length - content.length) 0 := by
  simp only [entry, formatHeader_eq, encode, padding, pad_eq, List.append_assoc,
    List.cons_append, List.nil_append]

theorem length_entry (inode : UInt32) (name content : List UInt8) (mode : UInt32) :
    (entry inode name content mode).length =
      align4 (110 + (name.length + 1)) + align4 content.length := by
  have := le_align4 content.length
  rw [entry_eq, List.length_append, length_encode, List.length_replicate]
  omega

/-- The record of an entry at an offset. -/
def entryRecord (offset : ℕ) (inode : UInt32) (name content : List UInt8) (mode : UInt32) :
    Record :=
  ⟨offset, entryHeader inode name content mode, name, content⟩

/-- An entry whose sizes fit is read back. -/
theorem parseFrom_entry {offset : ℕ} (inode mode : UInt32) (name content : List UInt8)
    (ho : offset % 4 = 0) (hname : name.length + 1 < 2 ^ 32) (hcontent : content.length < 2 ^ 32)
    (hnul : 0 ∉ name) (rest : List UInt8) :
    parseFrom offset (entry inode name content mode ++ rest) =
      (parseFrom (offset + (entry inode name content mode).length) rest).map
        (entryRecord offset inode name content mode :: ·) := by
  have hn : (entryHeader inode name content mode).namesize = name.length + 1 := by
    show (UInt32.ofNat (name.length + 1)).toNat = _
    rw [UInt32.toNat_ofNat', Nat.mod_eq_of_lt hname]
  have hc : (entryHeader inode name content mode).filesize = content.length := by
    show (UInt32.ofNat content.length).toNat = _
    rw [UInt32.toNat_ofNat', Nat.mod_eq_of_lt hcontent]
  have hlen : offset + (encode (entryHeader inode name content mode) name content).length +
      (align4 content.length - content.length) =
        offset + (entry inode name content mode).length := by
    rw [entry_eq, List.length_append, List.length_replicate]
    omega
  rw [entry_eq, List.append_assoc, parseFrom_encode (entryHeader_fields_lt _ _ _ _) hn hc hnul ho,
    parseFrom_zeros, hlen, entry_eq]
  rfl

/-! ### Whole archives -/

/-- The archive of the files from an inode number on. -/
def body (inode : UInt32) : List CpioFile → List UInt8
  | [] => entry inode trailerName [] 0
  | f :: files => entry inode f.path f.content (regularMode f.mode) ++ body (inode + 1) files

/-- The records of the files, from an offset and an inode number on. -/
def fileRecords (offset : ℕ) (inode : UInt32) : List CpioFile → List Record
  | [] => []
  | f :: files => entryRecord offset inode f.path f.content (regularMode f.mode) ::
      fileRecords (offset + (entry inode f.path f.content (regularMode f.mode)).length)
        (inode + 1) files

/-- The bytes of the files without the trailer. -/
def filesLength : List CpioFile → ℕ
  | [] => 0
  | f :: files => (align4 (110 + (f.path.length + 1)) + align4 f.content.length) +
      filesLength files

/-- The trailer's record behind `n` files. -/
def trailerRecord (offset : ℕ) (inode : UInt32) : Record := entryRecord offset inode trailerName [] 0

theorem nextInode_eq_some {checked : Bool} {inode inode' : UInt32}
    (h : nextInode checked inode = some inode') :
    inode' = inode + 1 ∧ (checked = true → inode.toNat + 1 < 2 ^ 32) := by
  unfold nextInode at h
  split_ifs at h with hc
  cases h
  refine ⟨rfl, fun hck => ?_⟩
  by_contra hge
  exact hc (by simpa [hck] using Nat.le_of_not_lt hge)

theorem nextInode_eq_none {checked : Bool} {inode : UInt32} (h : nextInode checked inode = none) :
    checked = true ∧ 2 ^ 32 ≤ inode.toNat + 1 := by
  unfold nextInode at h
  split_ifs at h with hc
  simpa using hc

/-- The builder appends the archive, unless the checked counter overflows on the way. -/
theorem buildFrom_eq {checked : Bool} (files : List CpioFile) : ∀ b : CpioBuilder,
    buildFrom checked b files =
      if checked = true ∧ 2 ^ 32 ≤ b.inode.toNat + files.length + 1 then none
      else some (b.data ++ body b.inode files) := by
  induction files with
  | nil =>
    intro b
    show finish checked b = _
    unfold finish appendEntry
    cases hn : nextInode checked b.inode with
    | none =>
      rw [if_pos (by simpa using nextInode_eq_none hn)]
      rfl
    | some inode' =>
      have hlt := (nextInode_eq_some hn).2
      rw [if_neg (by
        rintro ⟨hck, hge⟩
        have := hlt hck
        simp only [List.length_nil] at hge
        omega)]
      rfl
  | cons f files ih =>
    intro b
    show (appendEntry checked b f.path f.content (regularMode f.mode) >>= fun b' =>
      files.foldlM (addFile checked) b') >>= finish checked = _
    unfold appendEntry
    cases hn : nextInode checked b.inode with
    | none =>
      obtain ⟨hck, hge⟩ := nextInode_eq_none hn
      rw [if_pos ⟨hck, by omega⟩]
      rfl
    | some inode' =>
      obtain ⟨rfl, hlt⟩ := nextInode_eq_some hn
      show buildFrom checked
        ⟨b.data ++ entry b.inode f.path f.content (regularMode f.mode), b.inode + 1⟩ files = _
      rw [ih, body, List.append_assoc]
      -- a checked counter that did not overflow is one more than before
      have hcond : (checked = true ∧ 2 ^ 32 ≤ (b.inode + 1).toNat + files.length + 1) ↔
          checked = true ∧ 2 ^ 32 ≤ b.inode.toNat + (f :: files).length + 1 := by
        refine and_congr_right fun hck => ?_
        have := hlt hck
        rw [UInt32.toNat_add, List.length_cons]
        simp only [UInt32.reduceToNat]
        omega
      simp only [hcond]

theorem build_eq (checked : Bool) (files : List CpioFile) : build checked files =
    if checked = true ∧ 2 ^ 32 ≤ files.length + 2 then none else some (body 1 files) := by
  have hone : ({} : CpioBuilder).inode.toNat = 1 := rfl
  have hlen : 1 + files.length + 1 = files.length + 2 := by omega
  rw [build, buildFrom_eq, hone, hlen]
  rfl

/-- Paths and contents whose sizes fit their fields, with paths that can be told from the
trailer. -/
structure Fits (f : CpioFile) : Prop where
  nul : 0 ∉ f.path
  trailer : f.path ≠ ascii "TRAILER!!!"
  path : f.path.length < 2 ^ 32 - 1
  content : f.content.length < 2 ^ 32

/-- The archive parses to the records of the files and the trailer. -/
theorem parseFrom_body {files : List CpioFile} : ∀ {offset : ℕ} {inode : UInt32},
    offset % 4 = 0 → (∀ f ∈ files, Fits f) →
      parseFrom offset (body inode files) = some (fileRecords offset inode files ++
        [trailerRecord (offset + filesLength files) (inode + UInt32.ofNat files.length)]) := by
  induction files with
  | nil =>
    intro offset inode ho _
    have h := parseFrom_entry inode 0 trailerName [] ho (by decide) (by decide)
      (by decide) []
    rw [List.append_nil, parseFrom_nil, Option.map_some] at h
    have hz : inode + UInt32.ofNat ([] : List CpioFile).length = inode := UInt32.add_zero inode
    rw [body, h, hz]
    rfl
  | cons f files ih =>
    intro offset inode ho hfit
    obtain ⟨hf, hrest⟩ := List.forall_mem_cons.1 hfit
    have hpath := hf.path
    have ha := align4_mod (110 + (f.path.length + 1))
    have hb := align4_mod f.content.length
    have hino : inode + 1 + UInt32.ofNat files.length =
        inode + UInt32.ofNat (f :: files).length := by
      rw [List.length_cons, Nat.add_comm files.length 1, UInt32.ofNat_add, UInt32.add_assoc]
      rfl
    rw [body, parseFrom_entry _ _ _ _ ho (by omega) hf.content hf.nul, length_entry,
      ih (by omega) hrest, Option.map_some, hino, fileRecords, filesLength, length_entry]
    simp only [List.cons_append, Nat.add_assoc]

/-- The mode of a regular file: its type bit above the twelve permission bits. -/
theorem toNat_regularMode (mode : UInt32) :
    (regularMode mode).toNat = 0o100000 + mode.toNat % 0o10000 := by
  have hmask : mode.toNat &&& 0o7777 = mode.toNat % 2 ^ 12 := Nat.and_two_pow_sub_one_eq_mod _ 12
  have hlt : mode.toNat % 2 ^ 12 < 2 ^ 15 := by omega
  have hor := Nat.two_pow_add_eq_or_of_lt hlt 1
  rw [regularMode, UInt32.toNat_or, UInt32.toNat_and]
  show 0o100000 ||| (mode.toNat &&& 0o7777) = _
  rw [hmask]
  exact hor.symm

theorem fileRecords_map (files : List CpioFile) : ∀ (offset : ℕ) (inode : UInt32),
    (fileRecords offset inode files).map (fun r => (r.name, r.data, r.header.mode)) =
      files.map fun f => (f.path, f.content, 0o100000 + f.mode.toNat % 0o10000) := by
  induction files with
  | nil =>
    intro offset inode
    rfl
  | cons f files ih =>
    intro offset inode
    rw [fileRecords, List.map_cons, List.map_cons, ih]
    congr 1
    show (f.path, f.content, (regularMode f.mode).toNat) = _
    rw [toNat_regularMode]

/-- The inode numbers count up from the first one, modulo `2^32`. -/
theorem fileRecords_ino (files : List CpioFile) : ∀ (offset : ℕ) (inode : UInt32),
    (fileRecords offset inode files).map (fun r => r.header.ino) =
      (List.range files.length).map fun i => (inode.toNat + i) % 2 ^ 32 := by
  induction files with
  | nil =>
    intro offset inode
    rfl
  | cons f files ih =>
    intro offset inode
    rw [fileRecords, List.map_cons, ih, List.length_cons, List.range_succ_eq_map, List.map_cons,
      List.map_map]
    congr 1
    · show inode.toNat = _
      rw [Nat.add_zero, Nat.mod_eq_of_lt inode.toNat_lt]
    · apply List.map_congr_left
      intro i _
      have hone : (1 : UInt32).toNat = 1 := rfl
      show ((inode + 1).toNat + i) % 2 ^ 32 = (inode.toNat + (i + 1)) % 2 ^ 32
      rw [UInt32.toNat_add, hone]
      omega

/-- Consecutive numbers modulo `2^32` are different as long as there are not more of them. -/
theorem nodup_range_mod (a n : ℕ) :
    ((List.range n).map fun i => (a + i) % 2 ^ 32).Nodup ↔ n ≤ 2 ^ 32 := by
  constructor
  · intro h
    by_contra hgt
    have h0 : ((List.range n).map fun i => (a + i) % 2 ^ 32)[0]? = some (a % 2 ^ 32) := by
      rw [List.getElem?_map, List.getElem?_range (by omega)]
      rfl
    have h1 : ((List.range n).map fun i => (a + i) % 2 ^ 32)[2 ^ 32]? = some (a % 2 ^ 32) := by
      rw [List.getElem?_map, List.getElem?_range (by omega), Option.map_some, Nat.add_mod_right]
    have := List.nodup_iff_getElem?_ne_getElem?.1 h 0 (2 ^ 32) (by omega)
      (by rw [List.length_map, List.length_range]; omega)
    rw [h0, h1] at this
    exact this rfl
  · intro hle
    refine List.Nodup.map_on ?_ List.nodup_range
    intro i hi j hj heq
    rw [List.mem_range] at hi hj
    have heq' : (a + i) % 2 ^ 32 = (a + j) % 2 ^ 32 := heq
    omega

theorem length_body (files : List CpioFile) : ∀ inode : UInt32, (body inode files).length =
    filesLength files + align4 (110 + (trailerName.length + 1)) := by
  induction files with
  | nil =>
    intro inode
    rw [body, length_entry, filesLength]
    rfl
  | cons f files ih =>
    intro inode
    rw [body, List.length_append, length_entry, ih, filesLength]
    omega

theorem filesLength_mod (files : List CpioFile) : filesLength files % 4 = 0 := by
  induction files with
  | nil => rfl
  | cons f files ih =>
    have ha := align4_mod (110 + (f.path.length + 1))
    have hb := align4_mod f.content.length
    rw [filesLength]
    omega

/-- The archive of files that fit is read back when their inode numbers are different, and only
then. -/
theorem readsBack_body {files : List CpioFile} (hfit : ∀ f ∈ files, Fits f) :
    ReadsBack files (body 1 files) ↔ files.length ≤ 2 ^ 32 := by
  have hparse : parse (body 1 files) = some (fileRecords 0 1 files ++
      [trailerRecord (0 + filesLength files) (1 + UInt32.ofNat files.length)]) :=
    parseFrom_body rfl hfit
  constructor
  · rintro ⟨recs, trailer, hp, -, hnodup, -⟩
    rw [hparse] at hp
    obtain ⟨rfl, -⟩ := List.append_inj' (Option.some.inj hp) rfl
    rw [fileRecords_ino, nodup_range_mod] at hnodup
    exact hnodup
  · intro hle
    refine ⟨_, _, hparse, fileRecords_map _ _ _, ?_, ?_, rfl, rfl, ?_⟩
    · rw [fileRecords_ino, nodup_range_mod]
      exact hle
    · intro r hr
      exact (parseFrom_mem hparse r hr).1
    · have hmod := filesLength_mod files
      rw [length_body]
      show filesLength files + align4 (110 + 11) = align4 (0 + filesLength files + 110 + 11)
      simp only [align4]
      omega

/-- **The builder round-trips.**  For every list of files with zero-free paths other than the
trailer's, paths shorter than `2^32 - 1` and contents shorter than `2^32` bytes, and no more files
than inode numbers, the archive is built and reads back. -/
theorem build_readsBack (checked : Bool) (files : List CpioFile)
    (hfit : ∀ f ∈ files, 0 ∉ f.path ∧ f.path ≠ ascii "TRAILER!!!" ∧
      f.path.length < 2 ^ 32 - 1 ∧ f.content.length < 2 ^ 32)
    (hcount : files.length ≤ inodeLimit checked) :
    ∃ archive, build checked files = some archive ∧ ReadsBack files archive := by
  have hfit' : ∀ f ∈ files, Fits f := fun f hf => by
    obtain ⟨h1, h2, h3, h4⟩ := hfit f hf
    exact ⟨h1, h2, h3, h4⟩
  refine ⟨body 1 files, ?_, (readsBack_body hfit').2 ?_⟩
  · rw [build_eq, if_neg]
    rintro ⟨rfl, hge⟩
    simp only [inodeLimit, if_true] at hcount
    omega
  · unfold inodeLimit at hcount
    split_ifs at hcount <;> omega

/-- The two files of the agent overlay. -/
theorem build_two_files : ∃ archive,
    build true [⟨ascii "sbin/hitz-agent", ascii "ELF", 0o755⟩,
      ⟨ascii "etc/init.d/S99hitz-agent", ascii "#!/bin/sh", 0o755⟩] = some archive ∧
    ReadsBack [⟨ascii "sbin/hitz-agent", ascii "ELF", 0o755⟩,
      ⟨ascii "etc/init.d/S99hitz-agent", ascii "#!/bin/sh", 0o755⟩] archive :=
  build_readsBack true _ (by decide) (by decide)

/-! ### Beyond the 32-bit fields -/

/-- A path of `2^32 - 1` bytes gets the name size zero, and the archive does not parse. -/
theorem parse_long_path {f : CpioFile} (h : f.path.length + 1 = 2 ^ 32) :
    parse (body 1 [f]) = none := by
  have hsize : (entryHeader 1 f.path f.content (regularMode f.mode)).namesize = 0 := by
    show (UInt32.ofNat (f.path.length + 1)).toNat = 0
    rw [UInt32.toNat_ofNat', h]
    rfl
  obtain ⟨rest, hbody⟩ : ∃ rest, body 1 [f] =
      (entryHeader 1 f.path f.content (regularMode f.mode)).bytes ++ rest := by
    rw [body, entry_eq, encode]
    simp only [List.append_assoc]
    exact ⟨_, rfl⟩
  obtain ⟨bytes, hcons⟩ : ∃ bytes, body 1 [f] = 48 :: bytes := by
    rw [hbody]
    exact ⟨_, rfl⟩
  cases hp : parse (body 1 [f]) with
  | none => rfl
  | some rs =>
    rw [hcons] at hp
    rcases parseFrom_cases hp with ⟨h0, -⟩ | ⟨r, rest', rs', -, -, hr, -, -⟩
    · exact absurd h0 (by decide)
    · obtain ⟨-, hheader, hpos, -⟩ := readRecord_eq_some hr
      rw [← hcons, hbody, readHeader_bytes (entryHeader_fields_lt _ _ _ _)] at hheader
      rw [← Option.some.inj hheader, hsize] at hpos
      omega

theorem long_path_lost {f : CpioFile} (h : f.path.length = 2 ^ 32 - 1) :
    ∃ archive, build true [f] = some archive ∧ ¬ReadsBack [f] archive := by
  refine ⟨body 1 [f], ?_, ?_⟩
  · rw [build_eq, if_neg]
    rintro ⟨-, hge⟩
    rw [List.length_singleton] at hge
    omega
  · rintro ⟨recs, trailer, hp, -⟩
    rw [parse_long_path (by omega)] at hp
    cases hp

theorem checked_counter_panics {files : List CpioFile} (h : files.length = 2 ^ 32 - 2) :
    build true files = none := by
  rw [build_eq, if_pos]
  exact ⟨rfl, by omega⟩

theorem wrapped_counter_repeats {files : List CpioFile} (hfit : ∀ f ∈ files, Fits f)
    (h : files.length = 2 ^ 32 + 1) :
    ∃ archive, build false files = some archive ∧ ¬ReadsBack files archive := by
  refine ⟨body 1 files, ?_, ?_⟩
  · rw [build_eq, if_neg]
    rintro ⟨h, -⟩
    cases h
  · rw [readsBack_body hfit]
    omega

/-- A path of `2^32 - 1` bytes is lost; with overflow checks `2^32 - 2` files panic; without them
`2^32 + 1` files share an inode number. -/
theorem cpio_limits :
    (∃ archive, build true [⟨List.replicate (2 ^ 32 - 1) 97, [], 0o644⟩] = some archive ∧
      ¬ReadsBack [⟨List.replicate (2 ^ 32 - 1) 97, [], 0o644⟩] archive) ∧
    build true (List.replicate (2 ^ 32 - 2) ⟨[97], [], 0o644⟩) = none ∧
    ∃ archive, build false (List.replicate (2 ^ 32 + 1) ⟨[97], [], 0o644⟩) = some archive ∧
      ¬ReadsBack (List.replicate (2 ^ 32 + 1) ⟨[97], [], 0o644⟩) archive := by
  refine ⟨long_path_lost ?_, checked_counter_panics ?_, wrapped_counter_repeats ?_ ?_⟩
  · exact List.length_replicate
  · exact List.length_replicate
  · intro f hf
    rw [List.eq_of_mem_replicate hf]
    exact ⟨by decide, by decide, by decide, by decide⟩
  · exact List.length_replicate

end CpioBuilder

end Hitz.Boot
