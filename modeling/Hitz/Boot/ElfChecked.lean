import Hitz.Boot.KernelImage
import Hitz.Lib.Packed

/-!
# `load_elf` with checked arithmetic

A build with overflow checks panics where a sum or a product does not fit in 64 bits, and every
build panics where a slice is indexed out of its bounds.  `loadElfChecked` is `load_elf` with these
panics: `none` is a panic, and `some` the `Result` that is returned.  Where the source uses
`checked_add` or `get` there is nothing to panic.

`parsesSafely_iff`: the only sum that can overflow is the end of the first program header.
-/

namespace Hitz.Boot

open Bytes Packed

/-- A computation that may return an error, or panic. -/
abbrev Checked := ExceptT BootError Option

namespace Checked

variable {α β : Type}

/-- A panic. -/
def panics : Checked α := ExceptT.mk none

/-- A computation that does not panic. -/
def result (x : Except BootError α) : Checked α := ExceptT.mk (some x)

@[simp] theorem run_result (x : Except BootError α) : (result x).run = some x := rfl

/-- A sequence does not panic if neither part does. -/
theorem run_bind {c : Checked α} {x : Except BootError α} {f : α → Checked β}
    {g : α → Except BootError β} (hc : c.run = some x)
    (hf : ∀ a, x = .ok a → (f a).run = some (g a)) : (c >>= f).run = some (x >>= g) := by
  rw [ExceptT.run_bind, hc]
  cases x with
  | error e => rfl
  | ok a => exact hf a rfl

theorem run_bind_ok {c : Checked α} {a : α} (hc : c.run = some (.ok a)) (f : α → Checked β) :
    (c >>= f).run = (f a).run := by
  rw [ExceptT.run_bind, hc]
  rfl

theorem run_bind_of_none {c : Checked α} (hc : c.run = none) (f : α → Checked β) :
    (c >>= f).run = none := by
  rw [ExceptT.run_bind, hc]
  rfl

/-- An error is no panic. -/
theorem run_guard {p : Prop} [Decidable p] {e : BootError} {c : Checked α}
    {x : Except BootError α} (hc : ¬p → c.run = some x) :
    (if p then throw e else c).run = some (if p then throw e else x) := by
  by_cases h : p
  · rw [if_pos h, if_pos h]
    rfl
  · rw [if_neg h, if_neg h, hc h]

end Checked

open Checked

/-- `a + b`. -/
def addU64 (a b : ℕ) : Checked ℕ := if a + b < 2 ^ 64 then pure (a + b) else panics

/-- `a * b`. -/
def mulU64 (a b : ℕ) : Checked ℕ := if a * b < 2 ^ 64 then pure (a * b) else panics

/-- `data[i]`. -/
def index (data : List UInt8) (i : ℕ) : Checked UInt8 :=
  match data[i]? with
  | some b => pure b
  | none => panics

/-- `data[start..stop]`. -/
def indexRange (data : List UInt8) (start stop : ℕ) : Checked (List UInt8) :=
  if start ≤ stop ∧ stop ≤ data.length then pure ((data.take stop).drop start) else panics

/-- `read_u16`, `read_u32` and `read_u64`. -/
def readUintChecked (width : ℕ) (data : List UInt8) (offset : ℕ) : Checked ℕ := do
  let stop ← addU64 offset width
  if stop ≤ data.length then pure (leNat ((data.drop offset).take width))
  else throw (.invalidElf ("truncated at offset " ++ hex offset))

/-- `parse_elf_header`. -/
def parseElfHeaderChecked (data : List UInt8) : Checked Elf64Header :=
  if data.length < elfHeaderSize then
    throw (.invalidElf ("file too small (" ++ toString data.length ++ " bytes, need at least " ++
      toString elfHeaderSize ++ ")"))
  else do
    if (← indexRange data 0 4) ≠ elfMagic then throw (.invalidElf "bad ELF magic")
    else
      let elfClass ← index data 4
      if elfClass ≠ elfClass64 then
        throw (.invalidElf ("not ELF64 (class = " ++ toString elfClass ++ ")"))
      else
        let elfData ← index data 5
        if elfData ≠ elfData2Lsb then
          throw (.invalidElf ("not little-endian (data = " ++ toString elfData ++ ")"))
        else
          let machine ← readUintChecked 2 data 18
          if machine ≠ emX8664 then
            throw (.invalidElf ("not x86_64 (e_machine = " ++ toString machine ++ ")"))
          else
            return {
              entry := ← readUintChecked 8 data 24
              phoff := ← readUintChecked 8 data 32
              phentsize := ← readUintChecked 2 data 54
              phnum := ← readUintChecked 2 data 56 }

/-- `parse_program_header`. -/
def parseProgramHeaderChecked (data : List UInt8) (base : ℕ) : Checked Elf64Phdr := do
  let stop ← addU64 base programHeaderSize
  if data.length < stop then
    throw (.invalidElf ("program header at " ++ hex base ++ " extends past end of file"))
  else
    return {
      ty := ← readUintChecked 4 data base
      offset := ← readUintChecked 8 data (← addU64 base 8)
      paddr := ← readUintChecked 8 data (← addU64 base 24)
      filesz := ← readUintChecked 8 data (← addU64 base 32)
      memsz := ← readUintChecked 8 data (← addU64 base 40) }

/-- Header number `i`; the offset is added with `checked_add`. -/
def programHeaderChecked (kernel : List UInt8) (hdr : Elf64Header) (i : ℕ) :
    Checked Elf64Phdr := do
  let distance ← mulU64 i hdr.phentsize
  let phOffset := hdr.phoff + distance
  if 2 ^ 64 ≤ phOffset then throw (.invalidElf "program header offset overflow")
  else parseProgramHeaderChecked kernel phOffset

section Loader

variable {σ : Type} [GuestMemWriter σ]

/-- The body of the loop of `load_elf`; all sums behind the header are checked by the source. -/
def loadStepChecked (kernel : List UInt8) (hdr : Elf64Header) (st : LoadState σ) (i : ℕ) :
    Checked (LoadState σ) := do
  let ph ← programHeaderChecked kernel hdr i
  if ph.ty ≠ ptLoad then pure st
  else
    let w ← result (copyFile kernel ph st.writer)
    let w ← result (zeroBss ph w)
    let segEnd := ph.paddr + ph.memsz
    if 2 ^ 64 ≤ segEnd then throw (.invalidElf "segment offset overflow")
    else pure {
      writer := w
      minAddr := some (match st.minAddr with
        | none => ph.paddr
        | some cur => min cur ph.paddr)
      maxAddr := if st.maxAddr < segEnd then segEnd else st.maxAddr
      loadedAny := true }

/-- `load_elf`. -/
def loadElfChecked (kernel : List UInt8) (w : σ) : Checked (KernelLoadResult × σ) := do
  let hdr ← parseElfHeaderChecked kernel
  let st ← (List.range hdr.phnum).foldlM (loadStepChecked kernel hdr) { writer := w }
  if st.loadedAny = false then throw (.invalidElf "no PT_LOAD segments found")
  else
    match st.minAddr with
    | none => throw (.invalidElf "unreachable")
    | some kernelLoad => pure (⟨kernelLoad, st.maxAddr, hdr.entry⟩, st.writer)

end Loader

/-- A kernel as `load_elf` gets it: no slice is longer than `isize::MAX`. -/
structure KernelBytes where
  bytes : List UInt8
  length_lt : bytes.length < 2 ^ 63

/-! ### Where nothing panics -/

theorem run_addU64 {a b : ℕ} (h : a + b < 2 ^ 64) : (addU64 a b).run = some (.ok (a + b)) := by
  rw [addU64, if_pos h]
  rfl

theorem run_mulU64 {a b : ℕ} (h : a * b < 2 ^ 64) : (mulU64 a b).run = some (.ok (a * b)) := by
  rw [mulU64, if_pos h]
  rfl

theorem run_index {data : List UInt8} {i : ℕ} (h : i < data.length) :
    (index data i).run = some (.ok ((data[i]?).getD 0)) := by
  rw [index, List.getElem?_eq_getElem h]
  rfl

theorem run_indexRange {data : List UInt8} {stop : ℕ} (h : stop ≤ data.length) :
    (indexRange data 0 stop).run = some (.ok (data.take stop)) := by
  rw [indexRange, if_pos ⟨Nat.zero_le _, h⟩]
  rfl

theorem run_readUintChecked {width offset : ℕ} (h : offset + width < 2 ^ 64) (data : List UInt8) :
    (readUintChecked width data offset).run = some (readUint width data offset) := by
  rw [readUintChecked, run_bind_ok (run_addU64 h), readUint]
  split_ifs
  · rfl
  · rfl

theorem run_parseElfHeaderChecked (data : List UInt8) :
    (parseElfHeaderChecked data).run = some (parseElfHeader data) := by
  unfold parseElfHeaderChecked parseElfHeader
  dsimp only
  refine run_guard fun hlen => ?_
  unfold elfHeaderSize at hlen
  rw [run_bind_ok (run_indexRange (by omega))]
  refine run_guard fun _ => ?_
  rw [run_bind_ok (run_index (by omega))]
  refine run_guard fun _ => ?_
  rw [run_bind_ok (run_index (by omega))]
  refine run_guard fun _ => ?_
  refine run_bind (run_readUintChecked (by decide) data) fun machine _ => run_guard fun _ => ?_
  refine run_bind (run_readUintChecked (by decide) data) fun entry _ => ?_
  refine run_bind (run_readUintChecked (by decide) data) fun phoff _ => ?_
  refine run_bind (run_readUintChecked (by decide) data) fun phentsize _ => ?_
  refine run_bind (run_readUintChecked (by decide) data) fun phnum _ => ?_
  rfl

theorem run_parseProgramHeaderChecked {base : ℕ} (h : base + programHeaderSize < 2 ^ 64)
    (data : List UInt8) :
    (parseProgramHeaderChecked data base).run = some (parseProgramHeader data base) := by
  unfold parseProgramHeaderChecked parseProgramHeader
  rw [run_bind_ok (run_addU64 h), Nat.mod_eq_of_lt h]
  unfold programHeaderSize at h
  refine run_guard fun _ => ?_
  refine run_bind (run_readUintChecked (by omega) data) fun ty _ => ?_
  rw [run_bind_ok (run_addU64 (by omega))]
  refine run_bind (run_readUintChecked (by omega) data) fun offset _ => ?_
  rw [run_bind_ok (run_addU64 (by omega))]
  refine run_bind (run_readUintChecked (by omega) data) fun paddr _ => ?_
  rw [run_bind_ok (run_addU64 (by omega))]
  refine run_bind (run_readUintChecked (by omega) data) fun filesz _ => ?_
  rw [run_bind_ok (run_addU64 (by omega))]
  refine run_bind (run_readUintChecked (by omega) data) fun memsz _ => ?_
  rfl

/-! ### The header -/

/-- The file begins as an ELF64 file for x86-64. -/
structure IsElf64 (data : List UInt8) : Prop where
  length : elfHeaderSize ≤ data.length
  magic : data.take 4 = elfMagic
  elfClass : data[4]? = some elfClass64
  elfData : data[5]? = some elfData2Lsb
  machine : leAt data 18 2 = emX8664

/-- The header at the front of the file. -/
def headerOf (data : List UInt8) : Elf64Header where
  entry := leAt data 24 8
  phoff := leAt data 32 8
  phentsize := leAt data 54 2
  phnum := leAt data 56 2

theorem readUint_eq_leAt {data : List UInt8} {offset width : ℕ}
    (h : offset + width ≤ data.length) :
    readUint width data offset = .ok (leAt data offset width) := if_pos h

theorem getElem?_eq_some_of_getD {data : List UInt8} {i : ℕ} {b : UInt8} (hi : i < data.length)
    (h : (data[i]?).getD 0 = b) : data[i]? = some b := by
  rw [List.getElem?_eq_getElem hi] at h ⊢
  exact congrArg some h

theorem parseElfHeader_eq_ok_iff {data : List UInt8} {hdr : Elf64Header} :
    parseElfHeader data = .ok hdr ↔ IsElf64 data ∧ headerOf data = hdr := by
  unfold parseElfHeader
  dsimp only
  constructor
  · intro h
    split_ifs at h with hlen hmagic hclass hdata
    have hsize : 64 ≤ data.length := not_lt.1 hlen
    rw [readU16, readU64, readUint_eq_leAt (by omega), readUint_eq_leAt (by omega),
      readUint_eq_leAt (by omega), readUint_eq_leAt (by omega),
      readUint_eq_leAt (by omega)] at h
    obtain ⟨machine, hmachine, h⟩ := bind_eq_ok h
    cases hmachine
    split_ifs at h with hne
    cases h
    exact ⟨⟨hsize, not_not.1 hmagic, getElem?_eq_some_of_getD (by omega) (not_not.1 hclass),
      getElem?_eq_some_of_getD (by omega) (not_not.1 hdata), not_not.1 hne⟩, rfl⟩
  · rintro ⟨⟨hlen, hmagic, hclass, hdata, hmachine⟩, rfl⟩
    have hsize : 64 ≤ data.length := hlen
    rw [if_neg (not_lt.2 hlen), if_neg (not_not.2 hmagic), hclass, hdata, if_neg (by simp),
      if_neg (by simp), readU16, readU64, readUint_eq_leAt (by omega),
      readUint_eq_leAt (by omega), readUint_eq_leAt (by omega), readUint_eq_leAt (by omega),
      readUint_eq_leAt (by omega), hmachine]
    rfl

theorem headerOf_lt (data : List UInt8) : (headerOf data).phoff < 2 ^ 64 ∧
    (headerOf data).phentsize < 2 ^ 16 ∧ (headerOf data).phnum < 2 ^ 16 :=
  ⟨leAt_lt data 32 8, leAt_lt data 54 2, leAt_lt data 56 2⟩

/-- A program header that was read is in the file. -/
theorem parseProgramHeader_le {data : List UInt8} {base : ℕ} {ph : Elf64Phdr}
    (hbase : base + programHeaderSize < 2 ^ 64) (h : parseProgramHeader data base = .ok ph) :
    base + programHeaderSize ≤ data.length := by
  unfold parseProgramHeader at h
  rw [Nat.mod_eq_of_lt hbase] at h
  split_ifs at h with hlen
  exact not_lt.1 hlen

/-! ### The loop -/

section Loop

variable {σ : Type} [GuestMemWriter σ] {kernel : List UInt8} {hdr : Elf64Header} {i : ℕ}

theorem run_programHeaderChecked (hmul : i * hdr.phentsize < 2 ^ 64)
    (hbase : hdr.phoff + i * hdr.phentsize + programHeaderSize < 2 ^ 64) :
    (programHeaderChecked kernel hdr i).run = some (programHeader kernel hdr i) := by
  rw [programHeaderChecked, run_bind_ok (run_mulU64 hmul)]
  exact run_guard fun _ => run_parseProgramHeaderChecked hbase kernel

/-- Beyond the header, the body of the loop adds with `checked_add`. -/
theorem run_loadStepChecked
    (h : (programHeaderChecked kernel hdr i).run = some (programHeader kernel hdr i))
    (st : LoadState σ) :
    (loadStepChecked kernel hdr st i).run = some (loadStep kernel hdr st i) := by
  refine run_bind h fun ph _ => ?_
  split_ifs
  · rfl
  · refine run_bind (run_result _) fun w₁ _ => run_bind (run_result _) fun w₂ _ => ?_
    exact run_guard fun _ => rfl

theorem run_loadStepsChecked {is : List ℕ}
    (h : ∀ i ∈ is, (programHeaderChecked kernel hdr i).run = some (programHeader kernel hdr i))
    (st : LoadState σ) :
    (is.foldlM (loadStepChecked kernel hdr) st).run =
      some (is.foldlM (loadStep kernel hdr) st) := by
  induction is generalizing st with
  | nil => rfl
  | cons i is ih =>
    rw [List.foldlM_cons, List.foldlM_cons]
    refine run_bind (run_loadStepChecked (h i (List.mem_cons_self ..)) st) fun st' _ => ?_
    exact ih (fun j hj => h j (List.mem_cons_of_mem _ hj)) st'

end Loop

/-! ### The whole of `load_elf` -/

/-- The end of the first program header, if there is one, fits in 64 bits. -/
def FirstHeaderFits (kernel : List UInt8) : Prop :=
  IsElf64 kernel → 0 < (headerOf kernel).phnum →
    (headerOf kernel).phoff + programHeaderSize < 2 ^ 64

/-- All program headers can be read, there is a segment, and every segment is in the file and in
the address space. -/
structure WellFormed (kernel : List UInt8) : Prop where
  loadable : segments kernel ≠ []
  inFile : ∀ ph ∈ segments kernel, ph.InFile kernel
  fits : ∀ ph ∈ segments kernel, ph.segEnd < 2 ^ 64

/-- `load_elf` returns for every writer, and it returns an error if the kernel is malformed. -/
def ParsesSafely (kernel : List UInt8) : Prop :=
  ∀ (σ : Type) [GuestMemWriter σ] (w : σ), ∃ r, (loadElfChecked kernel w).run = some r ∧
    (¬ WellFormed kernel → ∃ e, r = .error e)

section Whole

variable {σ : Type} [GuestMemWriter σ] {hdr : Elf64Header}

/-- All headers are near the first one, and that one is in the file or ends the loop. -/
theorem run_loadElfChecked (kernel : KernelBytes) (hfits : FirstHeaderFits kernel.bytes) (w : σ) :
    (loadElfChecked kernel.bytes w).run = some (loadElf kernel.bytes w) := by
  have hlen := kernel.length_lt
  refine run_bind (run_parseElfHeaderChecked kernel.bytes) fun hdr hhdr => ?_
  obtain ⟨helf, rfl⟩ := parseElfHeader_eq_ok_iff.1 hhdr
  obtain ⟨-, hentsize, hnum⟩ := headerOf_lt kernel.bytes
  refine run_bind ?_ fun st _ => run_guard fun _ => ?_
  · cases hcount : (headerOf kernel.bytes).phnum with
    | zero => rfl
    | succ n =>
      have hfirst := hfits helf (by omega)
      rcases Nat.lt_or_ge kernel.bytes.length
        ((headerOf kernel.bytes).phoff + programHeaderSize) with hout | hin
      · -- the first header is refused
        rw [List.range_succ_eq_map, List.foldlM_cons, List.foldlM_cons]
        refine run_bind (run_loadStepChecked (run_programHeaderChecked ?_ ?_) _) fun st hst => ?_
        · rw [Nat.zero_mul]
          decide
        · rwa [Nat.zero_mul]
        · obtain ⟨ph, hph, -⟩ := bind_eq_ok hst
          unfold programHeader at hph
          dsimp only at hph
          split_ifs at hph
          rw [Nat.zero_mul] at hph
          exact absurd (parseProgramHeader_le hfirst hph) (not_le.2 hout)
      · refine run_loadStepsChecked (fun i hi => ?_) _
        have hi : i < 2 ^ 16 := (List.mem_range.1 hi).trans (hcount ▸ hnum)
        have hmul : i * (headerOf kernel.bytes).phentsize < 2 ^ 16 * 2 ^ 16 :=
          Nat.mul_lt_mul'' hi hentsize
        exact run_programHeaderChecked (by omega) (by omega)
  · cases st.minAddr with
    | none => rfl
    | some a => rfl

theorem run_loadElfChecked_eq_none {kernel : List UInt8} (helf : IsElf64 kernel)
    (hpos : 0 < (headerOf kernel).phnum)
    (hfar : 2 ^ 64 ≤ (headerOf kernel).phoff + programHeaderSize) (w : σ) :
    (loadElfChecked kernel w).run = none := by
  have hhdr : parseElfHeader kernel = .ok (headerOf kernel) :=
    parseElfHeader_eq_ok_iff.2 ⟨helf, rfl⟩
  have hparse : (parseProgramHeaderChecked kernel (headerOf kernel).phoff).run = none := by
    refine run_bind_of_none ?_ _
    rw [addU64, if_neg (not_lt.2 hfar)]
    rfl
  have hheader : (programHeaderChecked kernel (headerOf kernel) 0).run = none := by
    rw [programHeaderChecked, run_bind_ok (run_mulU64 (by rw [Nat.zero_mul]; decide))]
    dsimp only
    rwa [Nat.zero_mul, Nat.add_zero, if_neg (not_le.2 (headerOf_lt kernel).1)]
  obtain ⟨n, hn⟩ := Nat.exists_eq_succ_of_ne_zero hpos.ne'
  rw [loadElfChecked, run_bind_ok ((run_parseElfHeaderChecked kernel).trans (congrArg some hhdr))]
  refine run_bind_of_none ?_ _
  rw [hn, List.range_succ_eq_map, List.foldlM_cons]
  exact run_bind_of_none (run_bind_of_none hheader _) _

theorem loadStep_maxAddr_lt {kernel : List UInt8} {st st' : LoadState σ} {i : ℕ}
    (h : loadStep kernel hdr st i = .ok st') (hst : st.maxAddr < 2 ^ 64) :
    st'.maxAddr < 2 ^ 64 := by
  obtain ⟨ph, -, ⟨-, rfl⟩ | ⟨-, w₁, w₂, -, -, hend, rfl⟩⟩ := loadStep_eq_ok_iff.1 h
  · exact hst
  · exact max_lt hst hend

theorem loadSteps_maxAddr_lt {kernel : List UInt8} {is : List ℕ} {st st' : LoadState σ}
    (h : is.foldlM (loadStep kernel hdr) st = .ok st') (hst : st.maxAddr < 2 ^ 64) :
    st'.maxAddr < 2 ^ 64 := by
  induction is generalizing st with
  | nil =>
    cases h
    exact hst
  | cons i is ih =>
    rw [List.foldlM_cons] at h
    obtain ⟨st₁, hstep, h⟩ := bind_eq_ok h
    exact ih h (loadStep_maxAddr_lt hstep hst)

theorem kernelEnd_lt {kernel : List UInt8} {w w' : σ} {res : KernelLoadResult}
    (h : loadElf kernel w = .ok (res, w')) : res.kernelEnd < 2 ^ 64 := by
  obtain ⟨hdr, st, -, hst, -, -, hend, -, -⟩ := loadElf_eq_ok_iff.1 h
  rw [← hend]
  exact loadSteps_maxAddr_lt hst (Nat.two_pow_pos 64)

/-- What `load_elf` takes is well formed. -/
theorem wellFormed_of_ok {kernel : List UInt8} {w w' : σ} {res : KernelLoadResult}
    (h : loadElf kernel w = .ok (res, w')) : WellFormed kernel := by
  obtain ⟨m, hflat⟩ := loadElf_flat h ⟨fun _ => 0⟩
  obtain ⟨hin, -, hend, hload⟩ := loadElf_ok hflat
  have hne := segments_ne_nil hload
  refine ⟨hne, hin, fun ph hph => ?_⟩
  have hle := (isGreatest_kernelEnd hne).2 ⟨ph, hph, rfl⟩
  rw [← hend] at hle
  exact hle.trans_lt (kernelEnd_lt hflat)

end Whole

/-- **Parsing is safe** for exactly the kernels whose first program header ends below `2 ^ 64`.
The headers behind it are read only if it was in the file, and then they end there, too. -/
theorem parsesSafely_iff (kernel : KernelBytes) :
    ParsesSafely kernel.bytes ↔ FirstHeaderFits kernel.bytes := by
  constructor
  · intro hsafe helf hpos
    by_contra hfar
    obtain ⟨r, hr, -⟩ := hsafe FlatMemory ⟨fun _ => 0⟩
    rw [run_loadElfChecked_eq_none helf hpos (not_lt.1 hfar)] at hr
    cases hr
  · intro hfits σ _ w
    refine ⟨loadElf kernel.bytes w, run_loadElfChecked kernel hfits w, fun hbad => ?_⟩
    cases h : loadElf kernel.bytes w with
    | error e => exact ⟨e, rfl⟩
    | ok p => exact absurd (wellFormed_of_ok h) hbad

/-- An ELF header that has the table of program headers at the last address. -/
def farKernel : List UInt8 :=
  elfMagic ++ [elfClass64, elfData2Lsb, 1] ++ List.replicate 9 0 ++ leBytes 2 2 ++
    leBytes 2 emX8664 ++ leBytes 4 1 ++ leBytes 8 0 ++ leBytes 8 (2 ^ 64 - 1) ++
    List.replicate 12 0 ++ leBytes 2 64 ++ leBytes 2 56 ++ leBytes 2 1 ++ List.replicate 6 0

/-- The sum `base + PROGRAM_HEADER_SIZE` is `2 ^ 64 + 55`. -/
theorem farKernel_panics :
    parseElfHeader farKernel = .ok ⟨0, 2 ^ 64 - 1, 56, 1⟩ ∧
      (loadElfChecked farKernel (⟨fun _ => 0⟩ : FlatMemory)).run = none ∧
      ¬ ParsesSafely farKernel := by
  have hhdr : parseElfHeader farKernel = .ok ⟨0, 2 ^ 64 - 1, 56, 1⟩ := by decide +kernel
  obtain ⟨helf, hheader⟩ := parseElfHeader_eq_ok_iff.1 hhdr
  have hpanics := run_loadElfChecked_eq_none helf (by rw [hheader]; decide)
    (by rw [hheader]; decide) (⟨fun _ => 0⟩ : FlatMemory)
  refine ⟨hhdr, hpanics, fun hsafe => ?_⟩
  obtain ⟨r, hr, -⟩ := hsafe FlatMemory ⟨fun _ => 0⟩
  rw [hpanics] at hr
  cases hr

end Hitz.Boot
