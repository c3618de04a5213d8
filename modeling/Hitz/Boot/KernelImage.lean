import Hitz.Boot.Loader

/-!
# Where the kernel and the initramfs end up

`LoadedRight` is what `load_elf` is to do: store the segments, and report the range they are in.
`loadElf_right_iff`: it does so for all kernels whose segments have no more bytes in the file than
their neighbours leave room for; the reported end counts the sizes in memory only.

`InitramfsSafe` is what `load_initramfs` is to do with the reported end, and
`initramfsSafe_iff` says when it does: the same defect can show, and its two sums can pass `2 ^ 64`.
-/

namespace Hitz.Boot

open Bytes Layout

/-! ### Memory that takes everything -/

/-- Memory without bounds. -/
structure FlatMemory where
  byte : ℕ → UInt8

instance : GuestMemWriter FlatMemory where
  writeBytes m a d := .ok ⟨patch m.byte ⟨a, d⟩⟩
  writeZeroes m a n := .ok ⟨patch m.byte ⟨a, List.replicate n 0⟩⟩

instance : LawfulGuestMemWriter FlatMemory where
  Valid _ := True
  byte := FlatMemory.byte
  writeBytes_ok := by
    rintro w w' a d - ⟨⟩
    exact ⟨trivial, rfl⟩
  writeZeroes_ok := by
    rintro w w' a n - ⟨⟩
    exact ⟨trivial, rfl⟩

/-- `load_elf` accepts the kernel, if no write fails. -/
def Accepted (kernel : List UInt8) : Prop :=
  ∃ res m, loadElf kernel (⟨fun _ => 0⟩ : FlatMemory) = .ok (res, m)

/-- The same variables over another writer. -/
def LoadState.over {σ τ : Type} (st : LoadState σ) (w : τ) : LoadState τ where
  writer := w
  minAddr := st.minAddr
  maxAddr := st.maxAddr
  loadedAny := st.loadedAny

section Flat

variable {σ : Type} [GuestMemWriter σ] {kernel : List UInt8}

theorem copyFile_flat {ph : Elf64Phdr} {w w' : σ} (h : copyFile kernel ph w = .ok w')
    (m : FlatMemory) : ∃ m', copyFile kernel ph m = .ok m' := by
  unfold copyFile at h ⊢
  split_ifs at h ⊢
  · exact ⟨_, rfl⟩
  · exact ⟨_, rfl⟩

theorem zeroBss_flat {ph : Elf64Phdr} {w w' : σ} (h : zeroBss ph w = .ok w') (m : FlatMemory) :
    ∃ m', zeroBss ph m = .ok m' := by
  unfold zeroBss at h ⊢
  split_ifs at h ⊢
  · exact ⟨_, rfl⟩
  · exact ⟨_, rfl⟩

theorem loadStep_flat {hdr : Elf64Header} {st st' : LoadState σ} {i : ℕ}
    (h : loadStep kernel hdr st i = .ok st') (m : FlatMemory) :
    ∃ m', loadStep kernel hdr (st.over m) i = .ok (st'.over m') := by
  obtain ⟨ph, hph, ⟨hty, rfl⟩ | ⟨hty, w₁, w₂, hcopy, hbss, hend, rfl⟩⟩ :=
    loadStep_eq_ok_iff.1 h
  · exact ⟨m, loadStep_eq_ok_iff.2 ⟨ph, hph, Or.inl ⟨hty, rfl⟩⟩⟩
  · obtain ⟨m₁, hm₁⟩ := copyFile_flat hcopy m
    obtain ⟨m₂, hm₂⟩ := zeroBss_flat hbss m₁
    exact ⟨m₂, loadStep_eq_ok_iff.2 ⟨ph, hph, Or.inr ⟨hty, m₁, m₂, hm₁, hm₂, hend, rfl⟩⟩⟩

theorem loadSteps_flat {hdr : Elf64Header} {is : List ℕ} {st st' : LoadState σ}
    (h : is.foldlM (loadStep kernel hdr) st = .ok st') (m : FlatMemory) :
    ∃ m', is.foldlM (loadStep kernel hdr) (st.over m) = .ok (st'.over m') := by
  induction is generalizing st m with
  | nil =>
    cases h
    exact ⟨m, rfl⟩
  | cons i is ih =>
    rw [List.foldlM_cons] at h
    obtain ⟨st₁, hstep, h⟩ := bind_eq_ok h
    obtain ⟨m₁, hm₁⟩ := loadStep_flat hstep m
    obtain ⟨m', hm'⟩ := ih h m₁
    refine ⟨m', ?_⟩
    rw [List.foldlM_cons, hm₁]
    exact hm'

/-- What one writer takes, memory without bounds takes as well, with the same result. -/
theorem loadElf_flat {w w' : σ} {res : KernelLoadResult} (h : loadElf kernel w = .ok (res, w'))
    (m : FlatMemory) : ∃ m', loadElf kernel m = .ok (res, m') := by
  obtain ⟨hdr, st, hhdr, hst, hany, hload, hend, hentry, -⟩ := loadElf_eq_ok_iff.1 h
  obtain ⟨m', hm'⟩ := loadSteps_flat hst m
  exact ⟨m', loadElf_eq_ok_iff.2 ⟨hdr, st.over m', hhdr, hm', hany, hload, hend, hentry, rfl⟩⟩

end Flat

/-! ### The range of the segments -/

/-- The end of a segment in memory. -/
def Elf64Phdr.segEnd (ph : Elf64Phdr) : ℕ := ph.paddr + ph.memsz

theorem kernelLoad_eq (phs : List Elf64Phdr) :
    kernelLoad phs = (phs.map Elf64Phdr.paddr).min? := by
  have hfold : ∀ (phs : List Elf64Phdr) (a : ℕ),
      phs.foldl Elf64Phdr.lower (some a) = some ((phs.map Elf64Phdr.paddr).foldl min a) := by
    intro phs
    induction phs with
    | nil => exact fun a => rfl
    | cons ph phs ih => exact fun a => ih (min a ph.paddr)
  cases phs with
  | nil => rfl
  | cons ph phs => exact hfold phs ph.paddr

theorem kernelEnd_eq {phs : List Elf64Phdr} (h : phs ≠ []) :
    (phs.map Elf64Phdr.segEnd).max? = some (kernelEnd phs) := by
  obtain ⟨ph, phs, rfl⟩ := List.exists_cons_of_ne_nil h
  rw [List.map_cons, List.max?_cons', List.foldl_map, kernelEnd, List.foldl_cons, Nat.zero_max]
  rfl

theorem isLeast_kernelLoad {phs : List Elf64Phdr} {a : ℕ} (h : kernelLoad phs = some a) :
    IsLeast {x | ∃ ph ∈ phs, ph.paddr = x} a := by
  rw [kernelLoad_eq, List.min?_eq_some_iff] at h
  obtain ⟨hmem, hle⟩ := h
  refine ⟨List.mem_map.1 hmem, ?_⟩
  rintro x ⟨ph, hph, rfl⟩
  exact hle _ (List.mem_map_of_mem hph)

theorem isGreatest_kernelEnd {phs : List Elf64Phdr} (h : phs ≠ []) :
    IsGreatest {x | ∃ ph ∈ phs, ph.segEnd = x} (kernelEnd phs) := by
  obtain ⟨hmem, hle⟩ := List.max?_eq_some_iff.1 (kernelEnd_eq h)
  refine ⟨List.mem_map.1 hmem, ?_⟩
  rintro x ⟨ph, hph, rfl⟩
  exact hle _ (List.mem_map_of_mem hph)

theorem segments_ne_nil {phs : List Elf64Phdr} {a : ℕ} (h : kernelLoad phs = some a) :
    phs ≠ [] := by
  rintro rfl
  cases h

/-! ### The kernel -/

/-- A successful load did what it is to do: memory has the segments, the result is their range, and
every byte that changed is in it. -/
structure LoadedRight {σ : Type} [GuestMemWriter σ] [LawfulGuestMemWriter σ] (kernel : List UInt8)
    (w w' : σ) (res : KernelLoadResult) : Prop where
  memory : LawfulGuestMemWriter.byte w' =
    overlay (LawfulGuestMemWriter.byte w) ((segments kernel).map (·.piece kernel))
  kernelLoad : IsLeast {x | ∃ ph ∈ segments kernel, ph.paddr = x} res.kernelLoad
  kernelEnd : IsGreatest {x | ∃ ph ∈ segments kernel, ph.segEnd = x} res.kernelEnd
  inside : ∀ x, LawfulGuestMemWriter.byte w' x ≠ LawfulGuestMemWriter.byte w x →
    res.kernelLoad ≤ x ∧ x < res.kernelEnd

/-- What the file holds of a segment is in the range of the kernel. -/
def FileInside (kernel : List UInt8) : Prop :=
  ∀ ph ∈ segments kernel, 0 < ph.filesz → ph.paddr + ph.filesz ≤ kernelEnd (segments kernel)

instance (kernel : List UInt8) : Decidable (FileInside kernel) :=
  inferInstanceAs (Decidable (∀ _ ∈ _, _))

theorem Elf64Phdr.InFile.mem_range_piece {kernel : List UInt8} {ph : Elf64Phdr}
    (h : ph.InFile kernel) {x : ℕ} : x ∈ (ph.piece kernel).range ↔
      ph.paddr ≤ x ∧ x < ph.paddr + max ph.filesz ph.memsz := by
  rw [Piece.mem_range, h.length_piece]
  rfl

/-- All of the kernel is in its range if what the file holds is. -/
theorem piece_inside {kernel : List UInt8} {ph : Elf64Phdr} (hph : ph ∈ segments kernel)
    (hin : ph.InFile kernel) (hfile : FileInside kernel) {x : ℕ}
    (hx : x ∈ (ph.piece kernel).range) :
    ph.paddr ≤ x ∧ x < Boot.kernelEnd (segments kernel) := by
  obtain ⟨hle, hlt⟩ := hin.mem_range_piece.1 hx
  have hend := (isGreatest_kernelEnd (List.ne_nil_of_mem hph)).2 ⟨ph, hph, rfl⟩
  have hfile := hfile ph hph
  unfold Elf64Phdr.segEnd at hend
  omega

theorem loadedRight_of_fileInside {σ : Type} [GuestMemWriter σ] [LawfulGuestMemWriter σ]
    {kernel : List UInt8} (hfile : FileInside kernel) {w w' : σ} {res : KernelLoadResult}
    (hw : LawfulGuestMemWriter.Valid w) (h : loadElf kernel w = .ok (res, w')) :
    LoadedRight kernel w w' res := by
  obtain ⟨hin, hwrote, hend, hload⟩ := loadElf_ok h
  have hmem := (hwrote hw).2
  have hleast := isLeast_kernelLoad hload
  refine ⟨hmem, hleast, ?_, fun x hx => ?_⟩
  · rw [hend]
    exact isGreatest_kernelEnd (segments_ne_nil hload)
  · -- a byte that changed is in some piece
    rw [hmem] at hx
    by_contra hout
    refine hx (overlay_of_notMem fun p hp hxp => hout ?_)
    obtain ⟨ph, hph, rfl⟩ := List.mem_map.1 hp
    obtain ⟨hle, hlt⟩ := piece_inside hph (hin ph hph) hfile hxp
    rw [hend]
    exact ⟨(hleast.2 ⟨ph, hph, rfl⟩).trans hle, hlt⟩

/-- **Loading is right**, over every writer that behaves as a byte store and whatever was in memory,
for exactly the kernels that have no bytes in the file beyond the reported end. -/
theorem loadElf_right_iff (kernel : List UInt8) (haccepted : Accepted kernel) :
    (∀ (σ : Type) [GuestMemWriter σ] [LawfulGuestMemWriter σ] (w w' : σ) (res : KernelLoadResult),
      LawfulGuestMemWriter.Valid w → loadElf kernel w = .ok (res, w') →
        LoadedRight kernel w w' res) ↔ FileInside kernel := by
  refine ⟨fun h ph hph hsz => ?_, fun hfile σ _ _ w w' res => loadedRight_of_fileInside hfile⟩
  by_contra hout
  obtain ⟨res, m₀, hload⟩ := haccepted
  obtain ⟨hin, -, hend, -⟩ := loadElf_ok hload
  -- the last byte of the file's part, and a memory in which loading changes it
  have hx : ph.paddr + ph.filesz - 1 ∈ (ph.piece kernel).range := by
    rw [(hin ph hph).mem_range_piece]
    omega
  let m : FlatMemory := ⟨fun x =>
    overlay (fun _ => 0) ((segments kernel).map (·.piece kernel)) x + 1⟩
  obtain ⟨m', hm'⟩ := loadElf_flat hload m
  have hright := h FlatMemory m m' res trivial hm'
  have hbyte : m'.byte (ph.paddr + ph.filesz - 1) =
      overlay (fun _ => 0) ((segments kernel).map (·.piece kernel)) (ph.paddr + ph.filesz - 1) := by
    rw [show m'.byte = _ from hright.memory]
    exact overlay_congr_of_mem _ _ (List.mem_map_of_mem hph) hx
  have hchanged : m'.byte (ph.paddr + ph.filesz - 1) ≠ m.byte (ph.paddr + ph.filesz - 1) := by
    rw [hbyte]
    exact fun heq => absurd (left_eq_add.1 heq) (by decide)
  have hlt := (hright.inside _ hchanged).2
  rw [hend] at hlt
  omega

/-- A kernel with one program header, and what follows it. -/
def kernelOf (ph : Elf64Phdr) (payload : List UInt8) : List UInt8 :=
  elfMagic ++ [elfClass64, elfData2Lsb, 1] ++ List.replicate 9 0 ++ leBytes 2 2 ++
    leBytes 2 emX8664 ++ leBytes 4 1 ++ leBytes 8 ph.paddr ++ leBytes 8 64 ++
    List.replicate 12 0 ++ leBytes 2 64 ++ leBytes 2 56 ++ leBytes 2 1 ++ List.replicate 6 0 ++
    leBytes 4 ph.ty ++ leBytes 4 0 ++ leBytes 8 ph.offset ++ leBytes 8 ph.paddr ++
    leBytes 8 ph.paddr ++ leBytes 8 ph.filesz ++ leBytes 8 ph.memsz ++ leBytes 8 0 ++ payload

/-- Two bytes in the file, and a page in memory. -/
def bssKernel : List UInt8 := kernelOf ⟨ptLoad, 120, 0x100000, 2, 4096⟩ [0x90, 0xF4]

/-- Two bytes in the file, and none in memory. -/
def tailKernel : List UInt8 := kernelOf ⟨ptLoad, 120, 0x100000, 2, 0⟩ [0x90, 0xF4]

theorem exists_of_map_eq_ok {ε α β : Type} {x : Except ε α} {f : α → β} {b : β}
    (h : x.map f = .ok b) : ∃ a, x = .ok a ∧ f a = b := by
  cases x with
  | error e => cases h
  | ok a =>
    cases h
    exact ⟨a, rfl, rfl⟩

/-- What `load_elf` makes of memory full of zeroes: the result, and one byte. -/
def loadAndPeek (kernel : List UInt8) (x : ℕ) : Except BootError (KernelLoadResult × UInt8) :=
  (loadElf kernel (⟨fun _ => 0⟩ : FlatMemory)).map fun p => (p.1, p.2.byte x)

theorem accepted_of_peek {kernel : List UInt8} {x : ℕ} {res : KernelLoadResult} {b : UInt8}
    (h : loadAndPeek kernel x = .ok (res, b)) :
    ∃ m, loadElf kernel (⟨fun _ => 0⟩ : FlatMemory) = .ok (res, m) ∧ m.byte x = b := by
  obtain ⟨⟨res', m⟩, hload, heq⟩ := exists_of_map_eq_ok h
  obtain ⟨rfl, rfl⟩ := Prod.mk.inj heq
  exact ⟨m, hload, rfl⟩

theorem accepted_bssKernel : Accepted bssKernel := by
  have hpeek : loadAndPeek bssKernel 0 = .ok (⟨0x100000, 0x101000, 0x100000⟩, 0) := by
    decide +kernel
  obtain ⟨m, hload, -⟩ := accepted_of_peek hpeek
  exact ⟨_, m, hload⟩

/-- The file's bytes and the zeroes behind them end where `load_elf` says. -/
theorem bssKernel_loadedRight : ∃ res m, loadElf bssKernel (⟨fun _ => 0⟩ : FlatMemory) =
    .ok (res, m) ∧ LoadedRight bssKernel ⟨fun _ => 0⟩ m res := by
  obtain ⟨res, m, hload⟩ := accepted_bssKernel
  exact ⟨res, m, hload, (loadElf_right_iff bssKernel accepted_bssKernel).2 (by decide +kernel)
    FlatMemory _ _ _ trivial hload⟩

/-- The segment has no size in memory, so that the reported end is where it starts; its two bytes
are stored behind it. -/
theorem tailKernel_escapes : ∃ m, loadElf tailKernel (⟨fun _ => 0⟩ : FlatMemory) =
    .ok (⟨0x100000, 0x100000, 0x100000⟩, m) ∧ m.byte 0x100001 = 0xF4 ∧
      ¬ LoadedRight tailKernel ⟨fun _ => 0⟩ m ⟨0x100000, 0x100000, 0x100000⟩ := by
  have hpeek : loadAndPeek tailKernel 0x100001 = .ok (⟨0x100000, 0x100000, 0x100000⟩, 0xF4) := by
    decide +kernel
  obtain ⟨m, hload, hbyte⟩ := accepted_of_peek hpeek
  refine ⟨m, hload, hbyte, fun h => ?_⟩
  have hin := h.inside 0x100001 (by show m.byte 0x100001 ≠ 0; rw [hbyte]; decide)
  exact absurd hin.2 (by decide)

/-! ### The initramfs -/

/-- The page boundary after the kernel. -/
def pageAfter (e : ℕ) : ℕ := (e + 0xFFF) / 0x1000 * 0x1000

/-- The archive is where it is to be. -/
structure PlacedRight {σ : Type} [GuestMemWriter σ] [LawfulGuestMemWriter σ] (kernel : List UInt8)
    (data : List UInt8) (kernelEnd ramSize : ℕ) (w : σ) (res : InitramfsLoadResult) : Prop where
  holds : Holds (LawfulGuestMemWriter.byte w) ⟨res.gpa, data⟩
  aligned : 0x1000 ∣ res.gpa
  after : kernelEnd ≤ res.gpa
  inRam : res.gpa + data.length ≤ ramSize
  apart : ∀ ph ∈ segments kernel, Apart ⟨res.gpa, data⟩ (ph.piece kernel)

/-- After any successful `load_elf`, the sums of `load_initramfs` fit in 64 bits, and if it
succeeds the archive is where it is to be. -/
structure InitramfsSafe (kernel data : List UInt8) (ramSize : ℕ) : Prop where
  sums : ∀ (σ : Type) [GuestMemWriter σ] (w w₁ : σ) (res : KernelLoadResult),
    loadElf kernel w = .ok (res, w₁) →
      res.kernelEnd + 0xFFF < 2 ^ 64 ∧ pageAfter res.kernelEnd + data.length < 2 ^ 64
  placed : ∀ (σ : Type) [GuestMemWriter σ] [LawfulGuestMemWriter σ] (w w₁ w₂ : σ)
    (res : KernelLoadResult) (initramfs : InitramfsLoadResult), LawfulGuestMemWriter.Valid w →
      loadElf kernel w = .ok (res, w₁) →
        loadInitramfs data res.kernelEnd ramSize w₁ = .ok (initramfs, w₂) →
          PlacedRight kernel data res.kernelEnd ramSize w₂ initramfs

theorem le_pageAfter (e : ℕ) : e ≤ pageAfter e := by
  unfold pageAfter
  omega

theorem initramfsGpa_eq {e : ℕ} (h : e + 0xFFF < 2 ^ 64) : initramfsGpa e = pageAfter e := by
  rw [initramfsGpa, Nat.mod_eq_of_lt h]
  rfl

/-- A successful `load_initramfs` has compared the end with the size of RAM. -/
theorem le_ramSize_of_ok {σ : Type} [GuestMemWriter σ] {data : List UInt8} {e ramSize : ℕ}
    {w w' : σ} {res : InitramfsLoadResult}
    (h : loadInitramfs data e ramSize w = .ok (res, w')) :
    (initramfsGpa e + data.length) % 2 ^ 64 ≤ ramSize := by
  unfold loadInitramfs at h
  dsimp only at h
  split_ifs at h with hempty hram
  exact not_lt.1 hram

theorem loadInitramfs_flat {data : List UInt8} {e ramSize : ℕ} (hdata : data ≠ [])
    (hram : (initramfsGpa e + data.length) % 2 ^ 64 ≤ ramSize) (m : FlatMemory) :
    ∃ m', loadInitramfs data e ramSize m = .ok (⟨initramfsGpa e, data.length⟩, m') := by
  unfold loadInitramfs
  rw [if_neg (by simpa using hdata)]
  dsimp only
  rw [if_neg (not_lt.2 hram)]
  exact ⟨_, rfl⟩

/-- An archive behind the kernel is apart from a segment exactly if the file's part of the segment
ends before it. -/
theorem apart_segment_iff {kernel data : List UInt8} {ph : Elf64Phdr} {gpa : ℕ}
    (hph : ph ∈ segments kernel) (hin : ph.InFile kernel) (hdata : data ≠ [])
    (hgpa : kernelEnd (segments kernel) ≤ gpa) :
    Apart ⟨gpa, data⟩ (ph.piece kernel) ↔ ph.paddr + ph.filesz ≤ gpa := by
  have hend := (isGreatest_kernelEnd (List.ne_nil_of_mem hph)).2 ⟨ph, hph, rfl⟩
  unfold Elf64Phdr.segEnd at hend
  have hpos := List.length_pos_iff.2 hdata
  constructor
  · intro hapart
    by_contra hlt
    have hmem : gpa ∈ (Piece.mk gpa data).range := by
      rw [Piece.mem_range]
      dsimp only
      omega
    refine Set.disjoint_left.1 hapart hmem (hin.mem_range_piece.2 ?_)
    omega
  · intro hle
    refine Set.disjoint_left.2 fun x hx hx' => ?_
    have hx := (Piece.mem_range.1 hx).1
    have hx' := hin.mem_range_piece.1 hx'
    dsimp only at hx
    omega

/-- **Placing the initramfs is safe** exactly if the kernel ends so far below `2 ^ 64` that neither
sum passes it, and, where the archive fits into RAM, no segment has bytes in the file beyond the
page boundary after the kernel. -/
theorem initramfsSafe_iff (kernel data : List UInt8) (ramSize : ℕ) (haccepted : Accepted kernel)
    (hdata : data ≠ []) :
    InitramfsSafe kernel data ramSize ↔
      kernelEnd (segments kernel) + 0xFFF < 2 ^ 64 ∧
      pageAfter (kernelEnd (segments kernel)) + data.length < 2 ^ 64 ∧
      (pageAfter (kernelEnd (segments kernel)) + data.length ≤ ramSize →
        ∀ ph ∈ segments kernel, ph.paddr + ph.filesz ≤ pageAfter (kernelEnd (segments kernel))) := by
  constructor
  · intro hsafe
    obtain ⟨res, m₁, hload⟩ := haccepted
    obtain ⟨hin, -, hend, -⟩ := loadElf_ok hload
    obtain ⟨hround, hsum⟩ := hsafe.sums FlatMemory _ _ _ hload
    rw [← hend]
    refine ⟨hround, hsum, fun hram ph hph => ?_⟩
    have hgpa := initramfsGpa_eq hround
    have hfits : (initramfsGpa res.kernelEnd + data.length) % 2 ^ 64 ≤ ramSize := by
      rw [hgpa, Nat.mod_eq_of_lt hsum]
      exact hram
    obtain ⟨m₂, hplace⟩ := loadInitramfs_flat hdata hfits m₁
    have hplaced := hsafe.placed FlatMemory _ _ m₂ _ _ trivial hload hplace
    have hapart := hplaced.apart ph hph
    rw [hgpa] at hapart
    refine (apart_segment_iff hph (hin ph hph) hdata ?_).1 hapart
    rw [← hend]
    exact le_pageAfter _
  · rintro ⟨hround, hsum, hsegs⟩
    have hgpa := initramfsGpa_eq hround
    refine ⟨fun σ _ w w₁ res hload => ?_, fun σ _ _ w w₁ w₂ res initramfs hw hload hplace => ?_⟩
    · obtain ⟨m, hflat⟩ := loadElf_flat hload ⟨fun _ => 0⟩
      obtain ⟨-, -, hend, -⟩ := loadElf_ok hflat
      rw [hend]
      exact ⟨hround, hsum⟩
    · obtain ⟨hin, hwrote, hend, -⟩ := loadElf_ok hload
      rw [hend] at hplace ⊢
      have hram := le_ramSize_of_ok hplace
      rw [hgpa, Nat.mod_eq_of_lt hsum] at hram
      obtain ⟨rfl, hwrote'⟩ := loadInitramfs_ok hplace
      rw [hgpa] at hwrote' ⊢
      refine ⟨?_, Nat.dvd_mul_left _ _, le_pageAfter _, hram, fun ph hph => ?_⟩
      · rw [(hwrote' (hwrote hw).1).2]
        exact holds_patch _ _
      · exact (apart_segment_iff hph (hin ph hph) hdata (le_pageAfter _)).2 (hsegs hram ph hph)

/-- A small archive behind `bssKernel`. -/
theorem bssKernel_initramfsSafe : InitramfsSafe bssKernel [1, 2, 3] 0x200000 :=
  (initramfsSafe_iff bssKernel [1, 2, 3] 0x200000 accepted_bssKernel (by decide)).2
    (by decide +kernel)

/-- An empty segment at the last address. -/
def lastKernel : List UInt8 := kernelOf ⟨ptLoad, 120, 2 ^ 64 - 1, 0, 0⟩ []

/-- The kernel ends one byte below `2 ^ 64`; rounded up that is address 0, and this is where the
archive goes. -/
theorem lastKernel_initramfs : ∃ m₁ m₂,
    loadElf lastKernel (⟨fun _ => 0⟩ : FlatMemory) =
      .ok (⟨2 ^ 64 - 1, 2 ^ 64 - 1, 2 ^ 64 - 1⟩, m₁) ∧
    loadInitramfs [1, 2, 3] (2 ^ 64 - 1) 0x200000 m₁ = .ok (⟨0, 3⟩, m₂) ∧
    ¬ InitramfsSafe lastKernel [1, 2, 3] 0x200000 := by
  have hpeek : loadAndPeek lastKernel 0 =
      .ok (⟨2 ^ 64 - 1, 2 ^ 64 - 1, 2 ^ 64 - 1⟩, 0) := by
    decide +kernel
  have hfits : (initramfsGpa (2 ^ 64 - 1) + [1, 2, 3].length) % 2 ^ 64 ≤ 0x200000 := by decide
  have hdata : ([1, 2, 3] : List UInt8) ≠ [] := by decide
  obtain ⟨m₁, hload, -⟩ := accepted_of_peek hpeek
  obtain ⟨m₂, hplace⟩ := loadInitramfs_flat hdata hfits m₁
  refine ⟨m₁, m₂, hload, hplace, fun hsafe => ?_⟩
  exact absurd (hsafe.sums FlatMemory _ _ _ hload).1 (by decide)

end Hitz.Boot
