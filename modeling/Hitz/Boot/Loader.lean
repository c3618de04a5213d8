import Hitz.Boot.PageTables

/-!
# Loading the kernel and the initramfs (`hitz-boot/src/loader.rs`, `hitz-boot/src/initramfs.rs`)

`load_elf` walks the program headers once and writes as it goes.  `segments kernel` is the list of
`PT_LOAD` headers it meets, and `loadElf_ok` says that a successful run stored exactly their pieces,
in order.  Both loaders are generic in the writer, as in the source.
-/

namespace Hitz.Boot

open Bytes Layout

/-- A bind succeeds only if both parts do. -/
theorem bind_eq_ok {ε α β : Type} {x : Except ε α} {f : α → Except ε β} {b : β}
    (h : (x >>= f) = .ok b) : ∃ a, x = .ok a ∧ f a = .ok b := by
  cases x with
  | error e => cases h
  | ok a => exact ⟨a, rfl, h⟩

/-! ### Writers -/

/-- `GuestMemWriter`: writing data into guest physical memory. -/
class GuestMemWriter (σ : Type) where
  writeBytes : σ → ℕ → List UInt8 → Except BootError σ
  writeZeroes : σ → ℕ → ℕ → Except BootError σ

/-- A writer that behaves as a byte store in its valid states. -/
class LawfulGuestMemWriter (σ : Type) [GuestMemWriter σ] where
  Valid : σ → Prop
  byte : σ → ℕ → UInt8
  writeBytes_ok : ∀ {w w' : σ} {a : ℕ} {d : List UInt8}, Valid w →
    GuestMemWriter.writeBytes w a d = .ok w' → Valid w' ∧ byte w' = patch (byte w) ⟨a, d⟩
  writeZeroes_ok : ∀ {w w' : σ} {a n : ℕ}, Valid w →
    GuestMemWriter.writeZeroes w a n = .ok w' →
      Valid w' ∧ byte w' = patch (byte w) ⟨a, List.replicate n 0⟩

section Wrote

variable {σ : Type} [GuestMemWriter σ] [LawfulGuestMemWriter σ] {w w' w'' : σ}

/-- What lies between two states of the writer is these pieces, stored in order. -/
def Wrote (w : σ) (ps : List MemWrite) (w' : σ) : Prop :=
  LawfulGuestMemWriter.Valid w → LawfulGuestMemWriter.Valid w' ∧
    LawfulGuestMemWriter.byte w' = overlay (LawfulGuestMemWriter.byte w) ps

theorem Wrote.refl (w : σ) : Wrote w [] w := fun hw => ⟨hw, rfl⟩

theorem Wrote.trans {ps qs : List MemWrite} (h : Wrote w ps w') (h' : Wrote w' qs w'') :
    Wrote w (ps ++ qs) w'' := by
  intro hw
  obtain ⟨hw', hbyte⟩ := h hw
  obtain ⟨hw'', hbyte'⟩ := h' hw'
  exact ⟨hw'', by rw [hbyte', hbyte, overlay_append]⟩

theorem wrote_writeBytes {a : ℕ} {d : List UInt8}
    (h : GuestMemWriter.writeBytes w a d = .ok w') : Wrote w [⟨a, d⟩] w' :=
  fun hw => LawfulGuestMemWriter.writeBytes_ok hw h

theorem wrote_writeZeroes {a n : ℕ}
    (h : GuestMemWriter.writeZeroes w a n = .ok w') : Wrote w [⟨a, List.replicate n 0⟩] w' :=
  fun hw => LawfulGuestMemWriter.writeZeroes_ok hw h

/-- Adjacent pieces may be taken together. -/
theorem Wrote.append {a : ℕ} {d e : List UInt8} (h : Wrote w [⟨a, d⟩] w')
    (h' : Wrote w' [⟨a + d.length, e⟩] w'') : Wrote w [⟨a, d ++ e⟩] w'' := by
  intro hw
  obtain ⟨hw', hbyte⟩ := h hw
  obtain ⟨hw'', hbyte'⟩ := h' hw'
  simp only [overlay_cons, overlay_nil] at hbyte hbyte' ⊢
  exact ⟨hw'', by rw [hbyte', hbyte, patch_patch_append]⟩

theorem Wrote.refl_empty (w : σ) (a : ℕ) : Wrote w [⟨a, []⟩] w := by
  intro hw
  exact ⟨hw, by simp⟩

end Wrote

/-! ### Headers -/

def elfMagic : List UInt8 := [0x7F, 0x45, 0x4C, 0x46]
def elfClass64 : UInt8 := 2
def elfData2Lsb : UInt8 := 1
def emX8664 : ℕ := 62
def ptLoad : ℕ := 1
def elfHeaderSize : ℕ := 64
def programHeaderSize : ℕ := 56

/-- The fields of the ELF64 file header that are used. -/
structure Elf64Header where
  entry : ℕ
  phoff : ℕ
  phentsize : ℕ
  phnum : ℕ
  deriving DecidableEq, Repr

/-- The fields of a program header that are used. -/
structure Elf64Phdr where
  ty : ℕ
  offset : ℕ
  paddr : ℕ
  filesz : ℕ
  memsz : ℕ
  deriving DecidableEq, Repr

/-- A little-endian number of `width` bytes at `offset`. -/
def readUint (width : ℕ) (data : List UInt8) (offset : ℕ) : Except BootError ℕ :=
  if offset + width ≤ data.length then pure (leNat ((data.drop offset).take width))
  else throw (.invalidElf ("truncated at offset " ++ hex offset))

def readU16 : List UInt8 → ℕ → Except BootError ℕ := readUint 2
def readU32 : List UInt8 → ℕ → Except BootError ℕ := readUint 4
def readU64 : List UInt8 → ℕ → Except BootError ℕ := readUint 8

/-- `parse_elf_header`. -/
def parseElfHeader (data : List UInt8) : Except BootError Elf64Header :=
  let elfClass := (data[4]?).getD 0
  let elfData := (data[5]?).getD 0
  if data.length < elfHeaderSize then
    throw (.invalidElf ("file too small (" ++ toString data.length ++ " bytes, need at least " ++
      toString elfHeaderSize ++ ")"))
  else if data.take 4 ≠ elfMagic then throw (.invalidElf "bad ELF magic")
  else if elfClass ≠ elfClass64 then
    throw (.invalidElf ("not ELF64 (class = " ++ toString elfClass ++ ")"))
  else if elfData ≠ elfData2Lsb then
    throw (.invalidElf ("not little-endian (data = " ++ toString elfData ++ ")"))
  else do
    let machine ← readU16 data 18
    if machine ≠ emX8664 then
      throw (.invalidElf ("not x86_64 (e_machine = " ++ toString machine ++ ")"))
    else
      return {
        entry := ← readU64 data 24
        phoff := ← readU64 data 32
        phentsize := ← readU16 data 54
        phnum := ← readU16 data 56 }

/-- `parse_program_header`; the bound is computed in 64 bits. -/
def parseProgramHeader (data : List UInt8) (base : ℕ) : Except BootError Elf64Phdr :=
  if data.length < (base + programHeaderSize) % 2 ^ 64 then
    throw (.invalidElf ("program header at " ++ hex base ++ " extends past end of file"))
  else
    return {
      ty := ← readU32 data base
      offset := ← readU64 data (base + 8)
      paddr := ← readU64 data (base + 24)
      filesz := ← readU64 data (base + 32)
      memsz := ← readU64 data (base + 40) }

/-- Header number `i`. -/
def programHeader (kernel : List UInt8) (hdr : Elf64Header) (i : ℕ) :
    Except BootError Elf64Phdr :=
  let phOffset := hdr.phoff + i * hdr.phentsize
  if 2 ^ 64 ≤ phOffset then throw (.invalidElf "program header offset overflow")
  else parseProgramHeader kernel phOffset

/-! ### `load_elf` -/

/-- `KernelLoadResult`. -/
structure KernelLoadResult where
  kernelLoad : ℕ
  kernelEnd : ℕ
  entryPoint : ℕ
  deriving DecidableEq, Repr

/-- The variables of the loop. -/
structure LoadState (σ : Type) where
  writer : σ
  minAddr : Option ℕ := none
  maxAddr : ℕ := 0
  loadedAny : Bool := false

section Loader

variable {σ : Type} [GuestMemWriter σ]

/-- The file-backed part of a segment. -/
def Elf64Phdr.fileBytes (kernel : List UInt8) (ph : Elf64Phdr) : List UInt8 :=
  (kernel.drop ph.offset).take ph.filesz

/-- Copy the file-backed part. -/
def copyFile (kernel : List UInt8) (ph : Elf64Phdr) (w : σ) : Except BootError σ :=
  if 0 < ph.filesz then
    if 2 ^ 64 ≤ ph.offset + ph.filesz then throw (.invalidElf "segment offset overflow")
    else if kernel.length < ph.offset + ph.filesz then
      throw (.loadSegment ph.paddr ph.filesz "segment data extends past end of file")
    else GuestMemWriter.writeBytes w ph.paddr (ph.fileBytes kernel)
  else pure w

/-- Zero the rest of the segment. -/
def zeroBss (ph : Elf64Phdr) (w : σ) : Except BootError σ :=
  if ph.filesz < ph.memsz then
    if 2 ^ 64 ≤ ph.paddr + ph.filesz then throw (.invalidElf "segment offset overflow")
    else GuestMemWriter.writeZeroes w (ph.paddr + ph.filesz) (ph.memsz - ph.filesz)
  else pure w

/-- The body of the loop of `load_elf`. -/
def loadStep (kernel : List UInt8) (hdr : Elf64Header) (st : LoadState σ) (i : ℕ) :
    Except BootError (LoadState σ) := do
  let ph ← programHeader kernel hdr i
  if ph.ty ≠ ptLoad then pure st
  else
    let w ← copyFile kernel ph st.writer
    let w ← zeroBss ph w
    let segEnd := ph.paddr + ph.memsz
    if 2 ^ 64 ≤ segEnd then throw (.invalidElf "segment offset overflow")
    else pure {
      writer := w
      minAddr := some (match st.minAddr with
        | none => ph.paddr
        | some cur => min cur ph.paddr)
      maxAddr := if st.maxAddr < segEnd then segEnd else st.maxAddr
      loadedAny := true }

/-- `load_elf`. -/
def loadElf (kernel : List UInt8) (w : σ) : Except BootError (KernelLoadResult × σ) := do
  let hdr ← parseElfHeader kernel
  let st ← (List.range hdr.phnum).foldlM (loadStep kernel hdr) { writer := w }
  if st.loadedAny = false then throw (.invalidElf "no PT_LOAD segments found")
  else
    match st.minAddr with
    | none => throw (.invalidElf "unreachable")
    | some kernelLoad => pure (⟨kernelLoad, st.maxAddr, hdr.entry⟩, st.writer)

/-! ### `load_initramfs` -/

/-- `InitramfsLoadResult`. -/
structure InitramfsLoadResult where
  gpa : ℕ
  size : ℕ
  deriving DecidableEq, Repr

/-- The page boundary after the kernel, computed in 64 bits. -/
def initramfsGpa (kernelEnd : ℕ) : ℕ := (kernelEnd + 0xFFF) % 2 ^ 64 / 0x1000 * 0x1000

/-- `load_initramfs`. -/
def loadInitramfs (data : List UInt8) (kernelEnd ramSize : ℕ) (w : σ) :
    Except BootError (InitramfsLoadResult × σ) :=
  if data.isEmpty then throw (.invalidBootParams "initramfs data is empty")
  else
    let gpa := initramfsGpa kernelEnd
    let endGpa := (gpa + data.length) % 2 ^ 64
    if ramSize < endGpa then
      throw (.invalidBootParams ("initramfs at " ++ hex gpa ++ " + " ++ hex data.length ++
        " bytes exceeds RAM size " ++ hex ramSize))
    else do
      let w ← GuestMemWriter.writeBytes w gpa data
      pure (⟨gpa, data.length⟩, w)

end Loader

/-! ### The segments of a kernel -/

/-- All program headers; an error where `load_elf` fails to parse one. -/
def programHeaders (kernel : List UInt8) : Except BootError (List Elf64Phdr) := do
  let hdr ← parseElfHeader kernel
  (List.range hdr.phnum).mapM (programHeader kernel hdr)

/-- The `PT_LOAD` headers of a kernel. -/
def segments (kernel : List UInt8) : List Elf64Phdr :=
  match programHeaders kernel with
  | .ok phs => phs.filter fun ph => ph.ty = ptLoad
  | .error _ => []

/-- The largest end of a segment. -/
def kernelEnd (phs : List Elf64Phdr) : ℕ := phs.foldl (fun e ph => max e (ph.paddr + ph.memsz)) 0

/-- The smaller of an address, if there is one, and that of a segment. -/
def Elf64Phdr.lower (m : Option ℕ) (ph : Elf64Phdr) : Option ℕ :=
  some (match m with
    | none => ph.paddr
    | some cur => min cur ph.paddr)

/-- The smallest address of a segment. -/
def kernelLoad (phs : List Elf64Phdr) : Option ℕ := phs.foldl Elf64Phdr.lower none

/-- What a segment leaves in memory: its file-backed part, then zeroes. -/
def Elf64Phdr.piece (kernel : List UInt8) (ph : Elf64Phdr) : MemWrite :=
  ⟨ph.paddr, ph.fileBytes kernel ++ List.replicate (ph.memsz - ph.filesz) 0⟩

/-- The file-backed part lies in the file. -/
def Elf64Phdr.InFile (kernel : List UInt8) (ph : Elf64Phdr) : Prop :=
  0 < ph.filesz → ph.offset + ph.filesz ≤ kernel.length

theorem Elf64Phdr.InFile.length_fileBytes {kernel : List UInt8} {ph : Elf64Phdr}
    (h : ph.InFile kernel) : (ph.fileBytes kernel).length = ph.filesz := by
  simp only [Elf64Phdr.fileBytes, List.length_take, List.length_drop]
  by_cases hsz : 0 < ph.filesz
  · have := h hsz
    omega
  · omega

theorem Elf64Phdr.InFile.length_piece {kernel : List UInt8} {ph : Elf64Phdr}
    (h : ph.InFile kernel) : (ph.piece kernel).data.length = max ph.filesz ph.memsz := by
  simp only [Elf64Phdr.piece, List.length_append, h.length_fileBytes, List.length_replicate]
  omega

/-! ### What a successful load has done -/

section Steps

variable {σ : Type} [GuestMemWriter σ] {kernel : List UInt8} {w w' : σ}

/-- What one turn of the loop does: a header is skipped, or its segment is loaded. -/
theorem loadStep_eq_ok_iff {hdr : Elf64Header} {st st' : LoadState σ} {i : ℕ} :
    loadStep kernel hdr st i = .ok st' ↔ ∃ ph, programHeader kernel hdr i = .ok ph ∧
      ((ph.ty ≠ ptLoad ∧ st' = st) ∨
        (ph.ty = ptLoad ∧ ∃ w₁ w₂, copyFile kernel ph st.writer = .ok w₁ ∧
          zeroBss ph w₁ = .ok w₂ ∧ ph.paddr + ph.memsz < 2 ^ 64 ∧
          st' = ⟨w₂, ph.lower st.minAddr, max st.maxAddr (ph.paddr + ph.memsz), true⟩)) := by
  constructor
  · intro h
    obtain ⟨ph, hph, h⟩ := bind_eq_ok h
    refine ⟨ph, hph, ?_⟩
    by_cases hty : ph.ty ≠ ptLoad
    · rw [if_pos hty] at h
      cases h
      exact Or.inl ⟨hty, rfl⟩
    · rw [if_neg hty] at h
      obtain ⟨w₁, hcopy, h⟩ := bind_eq_ok h
      obtain ⟨w₂, hbss, h⟩ := bind_eq_ok h
      dsimp only at h
      rw [← max_def_lt] at h
      split_ifs at h with hend
      cases h
      exact Or.inr ⟨not_not.1 hty, w₁, w₂, hcopy, hbss, not_le.1 hend, rfl⟩
  · rintro ⟨ph, hph, ⟨hty, rfl⟩ | ⟨hty, w₁, w₂, hcopy, hbss, hend, rfl⟩⟩
    · rw [loadStep, hph]
      exact if_pos hty
    · rw [loadStep, hph]
      simp only [bind, Except.bind, if_neg (not_not.2 hty), hcopy, hbss, if_neg (not_le.2 hend),
        ← max_def_lt]
      rfl

/-- What `load_elf` returns after its loop. -/
theorem loadElf_eq_ok_iff {res : KernelLoadResult} :
    loadElf kernel w = .ok (res, w') ↔ ∃ hdr st, parseElfHeader kernel = .ok hdr ∧
      (List.range hdr.phnum).foldlM (loadStep kernel hdr) { writer := w } = .ok st ∧
      st.loadedAny = true ∧ st.minAddr = some res.kernelLoad ∧ st.maxAddr = res.kernelEnd ∧
      hdr.entry = res.entryPoint ∧ st.writer = w' := by
  constructor
  · intro h
    obtain ⟨hdr, hhdr, h⟩ := bind_eq_ok h
    obtain ⟨st, hst, h⟩ := bind_eq_ok h
    refine ⟨hdr, st, hhdr, hst, ?_⟩
    split_ifs at h with hany
    split at h
    · cases h
    · rename_i kernelLoad hload
      cases h
      exact ⟨Bool.eq_true_of_not_eq_false hany, hload, rfl, rfl, rfl⟩
  · rintro ⟨hdr, st, hhdr, hst, hany, hload, hmax, hentry, rfl⟩
    rw [loadElf, hhdr]
    simp only [bind, Except.bind, hst, hany, Bool.true_eq_false, if_false, hload, hmax, hentry]
    rfl

end Steps

/-! ### What a successful load has written -/

section Lawful

variable {σ : Type} [GuestMemWriter σ] [LawfulGuestMemWriter σ] {kernel : List UInt8} {w w' : σ}

theorem copyFile_ok {ph : Elf64Phdr} (h : copyFile kernel ph w = .ok w') :
    ph.InFile kernel ∧ Wrote w [⟨ph.paddr, ph.fileBytes kernel⟩] w' := by
  unfold copyFile at h
  split_ifs at h with hsz hover hlen
  · exact ⟨fun _ => by omega, wrote_writeBytes h⟩
  · cases h
    have hnil : ph.fileBytes kernel = [] := by
      simp [Elf64Phdr.fileBytes, show ph.filesz = 0 by omega]
    rw [hnil]
    exact ⟨fun h => absurd h hsz, Wrote.refl_empty w ph.paddr⟩

theorem zeroBss_ok {ph : Elf64Phdr} (h : zeroBss ph w = .ok w') :
    Wrote w [⟨ph.paddr + ph.filesz, List.replicate (ph.memsz - ph.filesz) 0⟩] w' := by
  unfold zeroBss at h
  split_ifs at h with hsz hover
  · exact wrote_writeZeroes h
  · cases h
    rw [show ph.memsz - ph.filesz = 0 by omega]
    exact Wrote.refl_empty w _

theorem wrote_piece {ph : Elf64Phdr} {w'' : σ} (hin : ph.InFile kernel)
    (h : Wrote w [⟨ph.paddr, ph.fileBytes kernel⟩] w')
    (h' : Wrote w' [⟨ph.paddr + ph.filesz, List.replicate (ph.memsz - ph.filesz) 0⟩] w'') :
    Wrote w [ph.piece kernel] w'' := by
  apply h.append
  rwa [hin.length_fileBytes]

/-- A header is skipped, or its segment is loaded. -/
theorem loadStep_ok {hdr : Elf64Header} {st st' : LoadState σ} {i : ℕ}
    (h : loadStep kernel hdr st i = .ok st') : ∃ ph, programHeader kernel hdr i = .ok ph ∧
      ((ph.ty ≠ ptLoad ∧ st' = st) ∨
        (ph.ty = ptLoad ∧ ph.InFile kernel ∧ Wrote st.writer [ph.piece kernel] st'.writer ∧
          st'.maxAddr = max st.maxAddr (ph.paddr + ph.memsz) ∧
          st'.minAddr = ph.lower st.minAddr)) := by
  obtain ⟨ph, hph, hskip | ⟨hty, w₁, w₂, hcopy, hbss, -, rfl⟩⟩ := loadStep_eq_ok_iff.1 h
  · exact ⟨ph, hph, Or.inl hskip⟩
  · obtain ⟨hin, hfile⟩ := copyFile_ok hcopy
    exact ⟨ph, hph, Or.inr ⟨hty, hin, wrote_piece hin hfile (zeroBss_ok hbss), rfl, rfl⟩⟩

/-- The loop stores the pieces of the headers it meets, in order. -/
theorem loadSteps_ok {hdr : Elf64Header} {is : List ℕ} {st st' : LoadState σ}
    (h : is.foldlM (loadStep kernel hdr) st = .ok st') :
    ∃ phs, is.mapM (programHeader kernel hdr) = .ok phs ∧
      (∀ ph ∈ phs.filter (·.ty = ptLoad), ph.InFile kernel) ∧
      Wrote st.writer ((phs.filter (·.ty = ptLoad)).map (·.piece kernel)) st'.writer ∧
      st'.maxAddr =
        (phs.filter (·.ty = ptLoad)).foldl (fun e ph => max e (ph.paddr + ph.memsz))
          st.maxAddr ∧
      st'.minAddr = (phs.filter (·.ty = ptLoad)).foldl Elf64Phdr.lower st.minAddr := by
  induction is generalizing st with
  | nil =>
    cases h
    exact ⟨[], rfl, by simp, Wrote.refl _, rfl, rfl⟩
  | cons i is ih =>
    rw [List.foldlM_cons] at h
    obtain ⟨st₁, hstep, h⟩ := bind_eq_ok h
    obtain ⟨phs, hphs, hin, hwrote, hmax, hmin⟩ := ih h
    obtain ⟨ph, hph, hcase⟩ := loadStep_ok hstep
    refine ⟨ph :: phs, by rw [List.mapM_cons, hph, hphs]; rfl, ?_⟩
    rcases hcase with ⟨hty, rfl⟩ | ⟨hty, hin₁, hwrote₁, hmax₁, hmin₁⟩
    · rw [List.filter_cons_of_neg (by simpa using hty)]
      exact ⟨hin, hwrote, hmax, hmin⟩
    · rw [List.filter_cons_of_pos (by simpa using hty), List.foldl_cons, List.foldl_cons, ← hmax₁,
        ← hmin₁]
      refine ⟨?_, hwrote₁.trans hwrote, hmax, hmin⟩
      intro q hq
      rcases List.mem_cons.1 hq with rfl | hq
      · exact hin₁
      · exact hin q hq

/-- **A successful load stored the segments.**  Memory is the memory before with the piece of
every `PT_LOAD` header stored in order. -/
theorem loadElf_ok {res : KernelLoadResult} (h : loadElf kernel w = .ok (res, w')) :
    (∀ ph ∈ segments kernel, ph.InFile kernel) ∧
      Wrote w ((segments kernel).map (·.piece kernel)) w' ∧
      res.kernelEnd = kernelEnd (segments kernel) ∧
      kernelLoad (segments kernel) = some res.kernelLoad := by
  obtain ⟨hdr, st, hhdr, hst, -, hload, hend, -, rfl⟩ := loadElf_eq_ok_iff.1 h
  obtain ⟨phs, hphs, hin, hwrote, hmax, hmin⟩ := loadSteps_ok hst
  have hseg : segments kernel = phs.filter (·.ty = ptLoad) := by
    have hall : programHeaders kernel = .ok phs := by
      rw [programHeaders, hhdr]
      exact hphs
    rw [segments, hall]
  rw [hseg]
  exact ⟨hin, hwrote, hend.symm.trans hmax, hmin.symm.trans hload⟩

theorem loadInitramfs_ok {data : List UInt8} {kernelEnd ramSize : ℕ} {res : InitramfsLoadResult}
    (h : loadInitramfs data kernelEnd ramSize w = .ok (res, w')) :
    res = ⟨initramfsGpa kernelEnd, data.length⟩ ∧ Wrote w [⟨initramfsGpa kernelEnd, data⟩] w' := by
  unfold loadInitramfs at h
  simp only at h
  split_ifs at h with hempty hram
  obtain ⟨w₁, hwrite, h⟩ := bind_eq_ok h
  cases h
  exact ⟨rfl, wrote_writeBytes hwrite⟩

end Lawful

end Hitz.Boot
