import Hitz.Vmm.BootProgress

/-!
# When a boot image is intact

The parts of an image that do not depend on the kernel lie in `lowAreas`.  The page directories grow
upwards from `0xA000` with the RAM size and meet the command line at `0x20000` when there are more
than 22 of them; the command line grows towards the ACPI tables at `0xE0000`; and the segments of
the kernel and the initramfs go wherever the program headers say.  The code checks none of this, so
an image is intact exactly when the inputs happen to leave the parts apart (`Fits`).
-/

namespace Hitz.Vmm

open Api Boot Bytes Layout X86Paging

/-- Where a segment goes. -/
def segmentRange (ph : Elf64Phdr) : Set ℕ :=
  Set.Ico ph.paddr (ph.paddr + max ph.filesz ph.memsz)

/-- Where an initramfs goes. -/
def initramfsRange (kernel data : List UInt8) : Set ℕ :=
  Set.Ico (initramfsGpa (kernelEnd (segments kernel)))
    (initramfsGpa (kernelEnd (segments kernel)) + data.length)

/-- The GDT; the zero page and the page tables; the command line; the ACPI tables, when there is
more than one vCPU. -/
def lowAreas (config : VmConfig) (cmdline : String) : Set ℕ :=
  Set.Ico 0x500 0x528 ∪ Set.Ico 0x7000 (0xA000 + 0x1000 * gibCount config) ∪
    Set.Ico 0x20000 (0x20000 + (cmdline.utf8ByteSize + 1)) ∪
    {x | 1 < config.cpus ∧ (x ∈ Set.Ico 0xE0000 0xE0024 ∨ x ∈ Set.Ico 0xE1000 0xE102C ∨
      x ∈ Set.Ico 0xE2000 (0xE202C + 8 * config.cpus.toNat))}

/-- The inputs leave the parts of the image apart. -/
structure Fits (config : VmConfig) (image : Image) : Prop where
  /-- At most 22 page directories. -/
  ram : config.ramMib ≤ 22528
  /-- The command line and its NUL end below the ACPI tables. -/
  cmdline : 1 < config.cpus → image.cmdline.utf8ByteSize + 1 ≤ 0xC0000
  segments_low : ∀ ph ∈ segments image.kernel,
    Disjoint (segmentRange ph) (lowAreas config image.cmdline)
  segments_apart : (segments image.kernel).Pairwise fun ph ph' =>
    Disjoint (segmentRange ph) (segmentRange ph')
  initramfs_low : ∀ data, image.initramfs = some data →
    Disjoint (initramfsRange image.kernel data) (lowAreas config image.cmdline)
  initramfs_segments : ∀ data, image.initramfs = some data → ∀ ph ∈ segments image.kernel,
    Disjoint (segmentRange ph) (initramfsRange image.kernel data)

/-! ### Ranges of the parts -/

theorem length_cstring (s : String) : (cstring s).length = s.utf8ByteSize + 1 := by
  have hsize : (cstring s).length = (s.push '\x00').utf8ByteSize := by
    simp only [cstring, Array.length_toList]
    rfl
  rw [hsize, String.utf8ByteSize_push]
  rfl

theorem length_gdt : Image.gdtPart.data.length = 40 := by
  simp [Image.gdtPart, gdtEntries]

theorem mem_acpiTables (config : VmConfig) (x : ℕ) : (∃ p ∈ acpiTables config, x ∈ p.range) ↔
    1 < config.cpus ∧ (x ∈ Set.Ico 0xE0000 0xE0024 ∨ x ∈ Set.Ico 0xE1000 0xE102C ∨
      x ∈ Set.Ico 0xE2000 (0xE202C + 8 * config.cpus.toNat)) := by
  unfold acpiTables
  by_cases hcpus : 1 < config.cpus
  · rw [if_pos hcpus]
    simp only [List.mem_cons, List.not_mem_nil, or_false, exists_eq_or_imp, exists_eq_left,
      Piece.mem_range, length_buildRsdp, length_buildXsdt, length_madt, Set.mem_Ico, rsdpGpa,
      xsdtGpa, madtGpa, hcpus, true_and]
    omega
  · simp [hcpus]

theorem mem_range_pageTables {gibCount x : ℕ} (hgib : gibCount ≤ 512) :
    (∃ p ∈ pageTables gibCount, x ∈ p.range) ↔
      x ∈ Set.Ico 0x8000 (0xA000 + 0x1000 * gibCount) := by
  simp only [Piece.mem_range, Set.mem_Ico]
  constructor
  · rintro ⟨p, hp, hx⟩
    obtain ⟨j, hj, hstart, hlen⟩ := mem_pageTables hgib hp
    rw [hstart, hlen] at hx
    simp only [pml4Gpa, pageSize] at hx
    omega
  · intro hx
    obtain ⟨p, hp, hstart⟩ : ∃ p ∈ pageTables gibCount,
        p.start = pml4Gpa + (x - 0x8000) / 0x1000 * pageSize := by
      have hmem : pml4Gpa + (x - 0x8000) / 0x1000 * pageSize ∈
          (pageTables gibCount).map Piece.start := by
        rw [start_pageTables]
        exact List.mem_map.2 ⟨(x - 0x8000) / 0x1000, List.mem_range.2 (by omega), rfl⟩
      exact List.mem_map.1 hmem
    obtain ⟨j, hj, hstart', hlen⟩ := mem_pageTables hgib hp
    refine ⟨p, hp, ?_⟩
    rw [hstart, hlen]
    simp only [pml4Gpa, pageSize]
    omega

/-- The parts that do not depend on the kernel fill `lowAreas`. -/
theorem mem_lowAreas {config : VmConfig} (image : Image) {x : ℕ} (hgib : gibCount config ≤ 512) :
    x ∈ lowAreas config image.cmdline ↔ ∃ p ∈ image.fixedParts config, x ∈ p.range := by
  have hpages := mem_range_pageTables (x := x) hgib
  have hacpi := mem_acpiTables config x
  simp only [Image.fixedParts, List.mem_cons, List.mem_append, or_and_right, exists_or,
    exists_eq_left, hpages, lowAreas, Set.mem_union, Set.mem_ofPred_eq, ← hacpi]
  simp only [Piece.mem_range, length_gdt, Image.bootParamsPart, BootParams.length_asBytes,
    Image.cmdlinePart, length_cstring, Set.mem_Ico]
  simp only [Image.gdtPart, gdtGpa, bootParamsGpa, cmdlineGpa]
  by_cases hx : ∃ p ∈ acpiTables config, p.start ≤ x ∧ x < p.start + p.data.length
  · simp only [hx, or_true]
  · simp only [hx, or_false]
    omega

theorem disjoint_lowAreas {config : VmConfig} (image : Image) (hgib : gibCount config ≤ 512)
    (s : Set ℕ) : Disjoint s (lowAreas config image.cmdline) ↔
      ∀ p ∈ image.fixedParts config, Disjoint p.range s := by
  constructor
  · intro h p hp
    apply Set.disjoint_right.2
    intro x hx hxp
    exact Set.disjoint_left.1 h hx ((mem_lowAreas image hgib).2 ⟨p, hp, hxp⟩)
  · intro h
    apply Set.disjoint_left.2
    intro x hx hlow
    obtain ⟨p, hp, hxp⟩ := (mem_lowAreas image hgib).1 hlow
    exact Set.disjoint_left.1 (h p hp) hxp hx

/-! ### The parts are apart exactly when the inputs fit -/

theorem pairwise_acpiTables (config : VmConfig) : (acpiTables config).Pairwise Apart := by
  unfold acpiTables
  split_ifs with hcpus
  · simp [apart_iff, length_buildRsdp, length_buildXsdt, length_madt, rsdpGpa, xsdtGpa, madtGpa]
  · exact List.Pairwise.nil

theorem gibCount_le_iff (config : VmConfig) : gibCount config ≤ 22 ↔ config.ramMib ≤ 22528 := by
  rw [UInt32.le_iff_toNat_le]
  simp only [gibCount, UInt32.toNat_ofNat]
  omega

theorem lt_of_mem_gdtPart {x : ℕ} (hx : x ∈ Image.gdtPart.range) : x < 0x528 := by
  rw [Piece.mem_range, length_gdt] at hx
  exact hx.2

theorem mem_bootParamsPart {image : Image} {x : ℕ} :
    x ∈ image.bootParamsPart.range ↔ 0x7000 ≤ x ∧ x < 0x8000 := by
  rw [Piece.mem_range, Image.bootParamsPart, BootParams.length_asBytes]
  rfl

theorem mem_cmdlinePart {image : Image} {x : ℕ} : x ∈ image.cmdlinePart.range ↔
    0x20000 ≤ x ∧ x < 0x20000 + (image.cmdline.utf8ByteSize + 1) := by
  rw [Piece.mem_range, Image.cmdlinePart, length_cstring]
  rfl

/-- The page tables and the ACPI tables are above the zero page. -/
theorem le_of_mem_tables {config : VmConfig} (hgib : gibCount config ≤ 512) {p : MemWrite}
    (hp : p ∈ pageTables (gibCount config) ++ acpiTables config) {x : ℕ} (hx : x ∈ p.range) :
    0x8000 ≤ x := by
  rcases List.mem_append.1 hp with hp | hp
  · exact ((mem_range_pageTables hgib).1 ⟨p, hp, hx⟩).1
  · obtain ⟨-, hmem⟩ := (mem_acpiTables _ _).1 ⟨p, hp, hx⟩
    simp only [Set.mem_Ico] at hmem
    omega

/-- With 22 page directories at most, the page tables end below the ACPI tables. -/
theorem pairwise_tables {config : VmConfig} (hgib : gibCount config ≤ 22) :
    (pageTables (gibCount config) ++ acpiTables config).Pairwise Apart := by
  refine List.pairwise_append.2
    ⟨pairwise_pageTables (by omega), pairwise_acpiTables config, fun p hp q hq => ?_⟩
  refine disjoint_of_cut 0xE0000 (fun x hx => ?_) fun x hx => ?_
  · have hmem := (mem_range_pageTables (by omega)).1 ⟨p, hp, hx⟩
    simp only [Set.mem_Ico] at hmem
    omega
  · obtain ⟨-, hmem⟩ := (mem_acpiTables _ _).1 ⟨q, hq, hx⟩
    simp only [Set.mem_Ico] at hmem
    omega

/-- The parts at fixed places leave each other alone exactly when there are at most 22 page
directories and the command line ends below the ACPI tables. -/
theorem pairwise_fixedParts {config : VmConfig} (image : Image) (hgib : gibCount config ≤ 512) :
    (image.fixedParts config).Pairwise Apart ↔
      config.ramMib ≤ 22528 ∧ (1 < config.cpus → image.cmdline.utf8ByteSize + 1 ≤ 0xC0000) := by
  rw [← gibCount_le_iff]
  constructor
  · intro h
    simp only [Image.fixedParts, List.pairwise_cons, List.mem_append] at h
    obtain ⟨-, -, hcmdApart, -⟩ := h
    constructor
    · -- page directory number 22 starts where the command line does
      by_contra hcon
      obtain ⟨p, hp, hx⟩ := (mem_range_pageTables (x := 0x20000) hgib).2 ⟨by omega, by omega⟩
      exact Set.disjoint_left.1 (hcmdApart p (Or.inl hp)) (mem_cmdlinePart.2 ⟨le_rfl, by omega⟩) hx
    · intro hcpus
      by_contra hcon
      obtain ⟨p, hp, hx⟩ := (mem_acpiTables config 0xE0000).2
        ⟨hcpus, Or.inl ⟨le_rfl, by omega⟩⟩
      exact Set.disjoint_left.1 (hcmdApart p (Or.inr hp))
        (mem_cmdlinePart.2 ⟨by omega, by omega⟩) hx
  · rintro ⟨hgib22, hlen⟩
    simp only [Image.fixedParts, List.pairwise_cons]
    refine ⟨fun p hp => ?_, fun p hp => ?_, fun p hp => ?_, pairwise_tables hgib22⟩
    · refine disjoint_of_cut 0x528 (fun x => lt_of_mem_gdtPart) fun x hx => ?_
      simp only [List.mem_cons] at hp
      rcases hp with rfl | rfl | hp
      · have := mem_bootParamsPart.1 hx
        omega
      · have := mem_cmdlinePart.1 hx
        omega
      · have := le_of_mem_tables hgib hp hx
        omega
    · refine disjoint_of_cut 0x8000 (fun x hx => (mem_bootParamsPart.1 hx).2) fun x hx => ?_
      rcases List.mem_cons.1 hp with rfl | hp
      · have := mem_cmdlinePart.1 hx
        omega
      · exact le_of_mem_tables hgib hp hx
    · -- the page tables end before the command line, and it ends before the ACPI tables
      refine Set.disjoint_left.2 fun x hx hxp => ?_
      have hx := mem_cmdlinePart.1 hx
      rcases List.mem_append.1 hp with hp | hp
      · have hmem := (mem_range_pageTables hgib).1 ⟨p, hp, hxp⟩
        simp only [Set.mem_Ico] at hmem
        omega
      · obtain ⟨hcpus, hmem⟩ := (mem_acpiTables _ _).1 ⟨p, hp, hxp⟩
        have hlen := hlen hcpus
        simp only [Set.mem_Ico] at hmem
        omega

theorem range_piece {kernel : List UInt8} {ph : Elf64Phdr} (h : ph.InFile kernel) :
    (ph.piece kernel).range = segmentRange ph := by
  rw [Piece.range, h.length_piece]
  rfl

theorem pairwise_segmentParts {image : Image}
    (hin : ∀ ph ∈ segments image.kernel, ph.InFile image.kernel) :
    image.segmentParts.Pairwise Apart ↔ (segments image.kernel).Pairwise fun ph ph' =>
      Disjoint (segmentRange ph) (segmentRange ph') := by
  rw [Image.segmentParts, List.pairwise_map]
  apply List.Pairwise.iff_of_mem
  intro ph ph' hph hph'
  rw [Apart, range_piece (hin ph hph), range_piece (hin ph' hph')]

/-- **The parts are apart exactly when the inputs fit.** -/
theorem pairwise_parts {config : VmConfig} {image : Image} (hgib : gibCount config ≤ 512)
    (hin : ∀ ph ∈ segments image.kernel, ph.InFile image.kernel) :
    (image.parts config).Pairwise Apart ↔ Fits config image := by
  have hfixed := pairwise_fixedParts image hgib
  have hseg : ∀ ph ∈ segments image.kernel, ∀ p : MemWrite,
      Apart p (ph.piece image.kernel) ↔ Disjoint p.range (segmentRange ph) := by
    intro ph hph p
    rw [Apart, range_piece (hin ph hph)]
  simp only [Image.parts, List.pairwise_append, hfixed, List.mem_append, Image.segmentParts,
    List.mem_map]
  constructor
  · rintro ⟨⟨hram, hcmd⟩, ⟨hsegs, -, hinit⟩, hcross⟩
    refine ⟨hram, hcmd, ?_, (pairwise_segmentParts hin).1 hsegs, ?_, ?_⟩
    · intro ph hph
      rw [disjoint_lowAreas image hgib]
      intro p hp
      exact (hseg ph hph p).1 (hcross p hp _ (Or.inl ⟨ph, hph, rfl⟩))
    · intro data hdata
      rw [disjoint_lowAreas image hgib]
      intro p hp
      exact hcross p hp _ (Or.inr (by simp [Image.initramfsPart, hdata]; rfl))
    · intro data hdata ph hph
      have := hinit _ ⟨ph, hph, rfl⟩ ⟨_, data⟩ (by simp [Image.initramfsPart, hdata]; rfl)
      rwa [Apart, range_piece (hin ph hph)] at this
  · rintro ⟨hram, hcmd, hlow, hsegs, hinitLow, hinitSegs⟩
    refine ⟨⟨hram, hcmd⟩, ⟨(pairwise_segmentParts hin).2 hsegs, ?_, ?_⟩, ?_⟩
    · unfold Image.initramfsPart
      split <;> simp
    · rintro _ ⟨ph, hph, rfl⟩ q hq
      unfold Image.initramfsPart at hq
      split at hq
      · simp at hq
      · rename_i data hdata
        rw [List.mem_singleton.1 hq, Apart, range_piece (hin ph hph)]
        exact hinitSegs data hdata ph hph
    · rintro p hp q (⟨ph, hph, rfl⟩ | hq)
      · exact (hseg ph hph p).2 ((disjoint_lowAreas image hgib _).1 (hlow ph hph) p hp)
      · unfold Image.initramfsPart at hq
        split at hq
        · simp at hq
        · rename_i data hdata
          rw [List.mem_singleton.1 hq]
          exact (disjoint_lowAreas image hgib _).1 (hinitLow data hdata) p hp

/-! ### What is in memory at the end -/

theorem mem_parts_of_mem_lateWrites {config : VmConfig} {image : Image} {q : MemWrite}
    (hq : q ∈ lateWrites image) : q ∈ image.parts config := by
  simp only [lateWrites, List.mem_cons] at hq
  simp only [Image.parts, Image.fixedParts, List.mem_append, List.mem_cons]
  tauto

/-- An early write is a part of the image or a first version of the zero page. -/
theorem mem_earlyWrites {config : VmConfig} {image : Image} {bp : BootParams} {q : MemWrite}
    (hq : q ∈ earlyWrites config image bp) :
    q ∈ image.parts config ∨ q = ⟨bootParamsGpa, bp.asBytes⟩ := by
  simp only [earlyWrites, List.mem_append] at hq
  simp only [Image.parts, Image.fixedParts, List.mem_append, List.mem_cons]
  rcases hq with hq | hq | hq | hq | hq
  · tauto
  · tauto
  · tauto
  · split_ifs at hq
    · exact Or.inr (List.mem_singleton.1 hq)
    · simp at hq
  · tauto

theorem mem_writes_of_mem_parts {config : VmConfig} {image : Image} (bp : BootParams)
    {p : MemWrite} (hp : p ∈ image.parts config) :
    p ∈ earlyWrites config image bp ++ image.bootParamsPart :: lateWrites image := by
  simp only [Image.parts, Image.fixedParts, List.mem_append, List.mem_cons] at hp
  simp only [earlyWrites, lateWrites, List.mem_append, List.mem_cons]
  tauto

/-- Parts that are pairwise apart are all there at the end. -/
theorem holds_parts {config : VmConfig} {image : Image} {f : ℕ → UInt8} {bp : BootParams}
    (hpair : (image.parts config).Pairwise Apart) {p : MemWrite} (hp : p ∈ image.parts config) :
    Holds (overlay f
      (earlyWrites config image bp ++ image.bootParamsPart :: lateWrites image)) p := by
  have hother : ∀ q ∈ image.parts config, q = p ∨ Apart p q := by
    intro q hq
    by_cases hqp : q = p
    · exact Or.inl hqp
    · exact Or.inr (hpair.forall hp hq (Ne.symm hqp))
  by_cases hzero : p = image.bootParamsPart
  · subst hzero
    apply holds_overlay
    intro q hq
    exact hother q (mem_parts_of_mem_lateWrites hq)
  · apply holds_of_mem f (mem_writes_of_mem_parts bp hp)
    intro q hq
    simp only [List.mem_append, List.mem_cons] at hq
    have hbp : image.bootParamsPart ∈ image.parts config := by
      simp [Image.parts, Image.fixedParts]
    rcases hq with hq | rfl | hq
    · rcases mem_earlyWrites hq with hq | rfl
      · exact hother q hq
      · -- the first version of the zero page lies where the final one does
        right
        have hapart := (hother _ hbp).resolve_left fun h => hzero h.symm
        simp only [apart_iff, Image.bootParamsPart, BootParams.length_asBytes] at hapart ⊢
        exact hapart
    · exact hother _ hbp
    · exact hother q (mem_parts_of_mem_lateWrites hq)

/-- Page tables that are in memory map RAM to itself. -/
theorem identity_of_holds {config : VmConfig} {b : Booted} (hgib : gibCount config ≤ 512)
    (hcr3 : b.cr3 = pml4Gpa) (h : ∀ p ∈ pageTables (gibCount config), Holds b.mem.byte p) {a : ℕ}
    (ha : a < ramBytes config) : (walk b.mem.byte b.cr3 a).map Mapping.addr = some a := by
  have hgib' : config.ramMib.toNat ≤ gibCount config * 1024 := by
    simp only [gibCount]
    omega
  have ha' : a < gibCount config * oneGib := by
    calc a < config.ramMib.toNat * 1024 * 1024 := ha
      _ ≤ gibCount config * 1024 * 1024 * 1024 := by gcongr
      _ = gibCount config * oneGib := by rw [oneGib, Nat.mul_assoc, Nat.mul_assoc]
  rw [hcr3, walk_pageTables hgib h ha']
  rfl

/-! ### A small guest -/

/-- The smallest kernel: one segment at `loadAddr`. -/
def testElf (loadAddr : ℕ) (data : List UInt8) : List UInt8 :=
  elfMagic ++ [elfClass64, elfData2Lsb, 1] ++ List.replicate 9 0 ++ leBytes 2 2 ++
    leBytes 2 emX8664 ++ leBytes 4 1 ++ leBytes 8 loadAddr ++ leBytes 8 64 ++ List.replicate 12 0 ++
    leBytes 2 64 ++ leBytes 2 56 ++ leBytes 2 1 ++ List.replicate 6 0 ++
    leBytes 4 ptLoad ++ leBytes 4 0 ++ leBytes 8 120 ++ leBytes 8 loadAddr ++ leBytes 8 loadAddr ++
    leBytes 8 data.length ++ leBytes 8 data.length ++ leBytes 8 0 ++ data

/-- A kernel at 1 MiB. -/
def testKernel : List UInt8 := testElf 0x100000 [0x90, 0xF4]

/-- What the loader reads in the small kernel. -/
theorem read_testKernel : parseElfHeader testKernel = .ok ⟨0x100000, 64, 56, 1⟩ ∧
    programHeader testKernel ⟨0x100000, 64, 56, 1⟩ 0 = .ok ⟨1, 120, 0x100000, 2, 2⟩ ∧
    Elf64Phdr.fileBytes testKernel ⟨1, 120, 0x100000, 2, 2⟩ = [0x90, 0xF4] ∧
    segments testKernel = [⟨1, 120, 0x100000, 2, 2⟩] ∧ testKernel.length = 122 ∧
    (cstring defaultCmdline).length = 33 := by
  decide +kernel

theorem header_testKernel : parseElfHeader testKernel = .ok ⟨0x100000, 64, 56, 1⟩ :=
  read_testKernel.1

theorem programHeader_testKernel :
    programHeader testKernel ⟨0x100000, 64, 56, 1⟩ 0 = .ok ⟨1, 120, 0x100000, 2, 2⟩ :=
  read_testKernel.2.1

theorem fileBytes_testKernel :
    Elf64Phdr.fileBytes testKernel ⟨1, 120, 0x100000, 2, 2⟩ = [0x90, 0xF4] :=
  read_testKernel.2.2.1

theorem segments_testKernel : segments testKernel = [⟨1, 120, 0x100000, 2, 2⟩] :=
  read_testKernel.2.2.2.1

theorem loadElf_testKernel {n : ℕ} (hn : n < 2 ^ 64) (hn' : 0x200000 ≤ n) (m : GuestMemory)
    (hm : IsRam n m) : ∃ res m', loadElf testKernel m = .ok (res, m') ∧ IsRam n m' := by
  obtain ⟨m', hwrite, hm'⟩ := hm.writeSlice hn (a := 0x100000) (d := [0x90, 0xF4]) (by simp; omega)
  refine ⟨⟨0x100000, 0x100002, 0x100000⟩, m', ?_, hm'⟩
  have hcopy : copyFile testKernel ⟨1, 120, 0x100000, 2, 2⟩ m = .ok m' := by
    have hlen : testKernel.length = 122 := read_testKernel.2.2.2.2.1
    rw [copyFile, fileBytes_testKernel, hlen]
    simp [GuestMemWriter.writeBytes, hwrite, Except.mapError]
  simp [loadElf, header_testKernel, loadStep, programHeader_testKernel, hcopy, zeroBss, ptLoad,
    bind, Except.bind, pure, Except.pure]

/-- A host with this kernel and a small initramfs. -/
def testHost : Host where
  fileExists path := path = "vmlinux" ∨ path = "initrd"
  read path :=
    if path = "vmlinux" then .ok testKernel
    else if path = "initrd" then .ok [1, 2, 3]
    else .error "not found"
  virtualAlloc _ := some 0x10000
  partition _ _ := .ok ()

/-- Two vCPUs and the default command line. -/
def testConfig (ramMib : UInt32) : VmConfig :=
  { kernelPath := "vmlinux", initramfsPath := some "initrd", ramMib := ramMib, cpus := 2 }

theorem bootImage_testHost {ramMib : UInt32} {bp : BootParams}
    (h : initialBootParams (testConfig ramMib) testKernel (some [1, 2, 3]) = .ok bp) :
    bootImage testHost false (testConfig ramMib) =
      .ok ⟨testKernel, some [1, 2, 3], finalBootParams (testConfig ramMib) bp, defaultCmdline⟩ := by
  have hkernel : testHost.fsRead (testConfig ramMib).kernelPath = .ok testKernel := by
    simp [Host.fsRead, testHost, testConfig, Except.mapError]
  have hinitrd : readInitramfs testHost (testConfig ramMib) = .ok (some [1, 2, 3]) := by
    simp [readInitramfs, Host.fsRead, testHost, testConfig, Except.mapError]
  have hcmdline : kernelCmdline (testConfig ramMib) false = .ok defaultCmdline := by
    simp only [kernelCmdline, netParams, testConfig, VmConfig.effectiveCmdline, pure_bind,
      Option.getD_none, Bool.false_eq_true, if_false, String.append_empty]
    rfl
  simp only [bootImage, hkernel, hinitrd, h, hcmdline, bind, Except.bind, Except.mapError, pure,
    Except.pure]

/-- The guest boots with any RAM size that the builders accept. -/
theorem testHost_boots {ramMib : UInt32}
    (hvalid : validateConfig testHost.fileExists (testConfig ramMib) = .ok ())
    (hgib : gibCount (testConfig ramMib) ≤ 512) {bp : BootParams}
    (hbp : initialBootParams (testConfig ramMib) testKernel (some [1, 2, 3]) = .ok bp) :
    ∃ b, boot testHost false (testConfig ramMib) = .ok b := by
  have htwo : 0x200000 ≤ ramBytes (testConfig ramMib) := by
    have := (validateConfig_ok hvalid).1
    simp only [ramBytes]
    omega
  have hlt := (ramBytes_bounds (testConfig ramMib)).2
  have hend : kernelEnd (segments testKernel) = 0x100002 := by
    rw [segments_testKernel]
    rfl
  refine Bootable.boot_ok ?_ (bootImage_testHost hbp)
  refine ⟨hvalid, hgib, rfl, fun _ => rfl, loadElf_testKernel (by omega) htwo, ?_, ?_⟩
  · intro data hdata
    cases hdata
    rw [hend]
    refine ⟨by simp, ?_⟩
    simp only [initramfsGpa, List.length_cons, List.length_nil]
    omega
  · have hlen : (cstring defaultCmdline).length = 33 := read_testKernel.2.2.2.2.2
    simp only [hlen, cmdlineGpa]
    omega

/-- **Boot image integrity.**  After a successful boot the parts of the image are pairwise apart
and all in memory, and the page tables map RAM to itself, exactly when the inputs leave the parts
apart. -/
theorem boot_intact_iff {host : Host} {vsock : Bool} {config : VmConfig} {b : Booted}
    (h : boot host vsock config = .ok b) :
    ∃ image, bootImage host vsock config = .ok image ∧
      (Intact config image b ↔ Fits config image) := by
  obtain ⟨image, bp, m, himage, hgib, hcr3, hin, hbyte⟩ := boot_ok h
  refine ⟨image, himage, ?_⟩
  rw [← pairwise_parts hgib hin]
  constructor
  · intro hintact
    exact hintact.apart
  · intro hpair
    have hholds : ∀ p ∈ image.parts config, Holds b.mem.byte p := by
      intro p hp
      rw [hbyte]
      exact holds_parts hpair hp
    have hpages : ∀ p ∈ pageTables (gibCount config), Holds b.mem.byte p := by
      intro p hp
      apply hholds
      simp [Image.parts, Image.fixedParts, hp]
    exact ⟨hpair, hholds, fun a ha => identity_of_holds hgib hcr3 hpages ha⟩

/-- A guest with 256 MiB and the parts of its image where they belong. -/
theorem boot_intact_small_guest : ∃ b image, boot testHost false (testConfig 256) = .ok b ∧
    bootImage testHost false (testConfig 256) = .ok image ∧ Intact (testConfig 256) image b := by
  obtain ⟨bp, hbp⟩ :=
    exists_eq_ok (x := initialBootParams (testConfig 256) testKernel (some [1, 2, 3]))
      (by decide +kernel)
  obtain ⟨b, hb⟩ := testHost_boots (by decide +kernel) (by decide +kernel) hbp
  obtain ⟨image, himage, hiff⟩ := boot_intact_iff hb
  refine ⟨b, image, hb, himage, hiff.2 ?_⟩
  have himage' := bootImage_testHost hbp
  rw [himage] at himage'
  rw [Except.ok.inj himage']
  have hgib : gibCount (testConfig 256) = 1 := by decide +kernel
  have hcpus : (testConfig 256).cpus.toNat = 2 := by decide +kernel
  have hlen : defaultCmdline.utf8ByteSize = 32 := by decide +kernel
  have hend : initramfsGpa (kernelEnd (segments testKernel)) = 0x101000 := by decide +kernel
  -- the low areas end below 1 MiB, the kernel and the initramfs are above
  have hlow : ∀ x ∈ lowAreas (testConfig 256) defaultCmdline, x < 0x100000 := by
    intro x hx
    simp only [lowAreas, hgib, hcpus, hlen, Set.mem_union, Set.mem_ofPred_eq, Set.mem_Ico] at hx
    omega
  have hhigh : ∀ s : Set ℕ, (∀ x ∈ s, 0x100000 ≤ x) →
      Disjoint s (lowAreas (testConfig 256) defaultCmdline) := by
    intro s hs
    exact (disjoint_of_cut 0x100000 hlow hs).symm
  have hseg : ∀ ph ∈ segments testKernel, ph = ⟨1, 120, 0x100000, 2, 2⟩ := by
    intro ph hph
    rwa [segments_testKernel, List.mem_singleton] at hph
  refine ⟨by decide +kernel, fun _ => by simp only [hlen]; omega, ?_, ?_, ?_, ?_⟩
  · intro ph hph
    rw [hseg ph hph]
    exact hhigh _ fun x hx => hx.1
  · simp only [segments_testKernel]
    exact List.pairwise_singleton _ _
  · intro data _
    refine hhigh _ fun x hx => ?_
    simp only [initramfsRange, hend, Set.mem_Ico] at hx
    omega
  · intro data _ ph hph
    rw [hseg ph hph]
    apply Set.disjoint_left.2
    intro x hx hxi
    simp only [segmentRange, initramfsRange, hend, Set.mem_Ico] at hx hxi
    omega

/-- With 23 GiB the command line is written over the last page directory. -/
theorem not_intact_23_gib : ∃ b image, boot testHost false (testConfig 23552) = .ok b ∧
    bootImage testHost false (testConfig 23552) = .ok image ∧ ¬Intact (testConfig 23552) image b ∧
      ¬Holds b.mem.byte ⟨0x20000, pd 22⟩ := by
  obtain ⟨bp, hbp⟩ :=
    exists_eq_ok (x := initialBootParams (testConfig 23552) testKernel (some [1, 2, 3]))
      (by decide +kernel)
  obtain ⟨b, hb⟩ := testHost_boots (by decide +kernel) (by decide +kernel) hbp
  obtain ⟨image, bp', m, himage, hgib, -, hin, hbyte⟩ := boot_ok hb
  have himage' := bootImage_testHost hbp
  rw [himage] at himage'
  have himage' := Except.ok.inj himage'
  subst himage'
  have hpd : ¬Holds b.mem.byte ⟨0x20000, pd 22⟩ := by
    intro hheld
    -- the command line is stored after the page tables, and nothing after it touches it
    have hcmd : Holds b.mem.byte ⟨cmdlineGpa, cstring defaultCmdline⟩ := by
      rw [hbyte, lateWrites, List.append_cons]
      apply holds_overlay
      intro q hq
      have hlen : (cstring defaultCmdline).length = 33 := by decide +kernel
      right
      simp only [Image.segmentParts, segments_testKernel, List.map_cons, List.map_nil,
        List.mem_cons, List.not_mem_nil, or_false] at hq
      rcases hq with rfl | rfl
      · rw [apart_iff, length_gdt]
        simp only [Image.cmdlinePart, hlen, cmdlineGpa, Image.gdtPart, gdtGpa]
        omega
      · rw [apart_iff, Elf64Phdr.InFile.length_piece (hin _ (by simp [segments_testKernel]))]
        simp only [Image.cmdlinePart, hlen, cmdlineGpa, Elf64Phdr.piece]
        omega
    have hc : b.mem.byte 0x20000 = 0x63 := hcmd 0 0x63 (by decide +kernel)
    have hfirst := getElem?_pd 22 (j := 0) (k := 0) (by omega) (by omega)
    rw [show (leBytes 8 (2 ^ 21 * (512 * 22 + 0) + 131))[0]? = some 0x83 by decide] at hfirst
    simp only [Nat.mul_zero, Nat.add_zero] at hfirst
    unfold Holds at hheld
    dsimp only at hheld
    have hp := hheld 0 0x83 hfirst
    rw [Nat.add_zero, hc] at hp
    exact absurd hp (by decide)
  refine ⟨b, _, hb, himage, fun h => hpd ?_, hpd⟩
  apply h.holds
  have hgib23 : gibCount (testConfig 23552) = 23 := by decide +kernel
  have hmem : (⟨0x20000, pd 22⟩ : MemWrite) ∈ pageTables (gibCount (testConfig 23552)) := by
    rw [hgib23, pageTables]
    refine List.mem_cons_of_mem _ (List.mem_cons_of_mem _ (List.mem_map.2 ⟨22, by simp, ?_⟩))
    simp [pdBaseGpa, pageSize]
  simp [Image.parts, Image.fixedParts, hmem]

end Hitz.Vmm
