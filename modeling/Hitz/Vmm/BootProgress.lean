import Hitz.Vmm.BootImage

/-!
# A boot that fits in RAM succeeds

The only reasons for a boot to fail, once its files can be read and the hypervisor answers, are the
limits that the builders check and writes that leave RAM.
-/

namespace Hitz.Vmm

open Api Boot Bytes Layout

/-- Guest memory is one region of `n` bytes from address `0` on. -/
def IsRam (n : ℕ) (m : GuestMemory) : Prop :=
  m.regions.map GuestRegion.range = [(0, UInt64.ofNat n)]

section

variable {n : ℕ} {m m' : GuestMemory}

theorem IsRam.regions (h : IsRam n m) (hn : n < 2 ^ 64) :
    ∃ r, m.regions = [r] ∧ r.gpaStart = 0 ∧ r.size.toNat = n := by
  obtain ⟨r, hr, hrange⟩ := List.map_eq_singleton_iff.1 h
  rw [GuestRegion.range, Prod.mk.injEq] at hrange
  refine ⟨r, hr, hrange.1, ?_⟩
  rw [hrange.2, UInt64.toNat_ofNat']
  exact Nat.mod_eq_of_lt hn

theorem IsRam.wf (h : IsRam n m) (hpos : 0 < n) (hn : n < 2 ^ 64) : m.WF := by
  obtain ⟨r, hr, hstart, hsize⟩ := h.regions hn
  constructor
  · simp [hr]
  · intro s hs
    rw [hr, List.mem_singleton] at hs
    rw [hs, hstart, hsize]
    simp only [UInt64.toNat_zero]
    omega

/-- A write inside RAM succeeds. -/
theorem IsRam.writeSlice (h : IsRam n m) (hn : n < 2 ^ 64) {a : ℕ} {d : List UInt8}
    (had : a + d.length ≤ n) : ∃ m', m.writeSlice a d = .ok m' ∧ IsRam n m' := by
  by_cases hd : d = []
  · subst hd
    exact ⟨m, rfl, h⟩
  · have hlen : 0 < d.length := List.length_pos_iff.2 hd
    obtain ⟨r, hr, hstart, hsize⟩ := h.regions hn
    have hfind := ((h.wf (by omega) hn).findRegion_iff (a := a) (i := 0) hlen).2
      ⟨r, by simp [hr], by simp [hstart], by simp [hstart, hsize, had], rfl, rfl⟩
    have hwrite : m.writeSlice a d =
        .ok ⟨m.regions.modify 0 (GuestMemory.store (a - r.gpaStart.toNat) d)⟩ := by
      rw [GuestMemory.writeSlice, if_neg (by simpa using hd), hfind]
      rfl
    exact ⟨_, hwrite, by rw [IsRam, GuestMemory.map_range_writeSlice hwrite, h]⟩

theorem IsRam.writeAll (h : IsRam n m) (hn : n < 2 ^ 64) {ps : List MemWrite}
    (hps : ∀ p ∈ ps, p.start + p.data.length ≤ n) : ∃ m', writeAll m ps = .ok m' ∧ IsRam n m' := by
  induction ps generalizing m with
  | nil => exact ⟨m, rfl, h⟩
  | cons p ps ih =>
    obtain ⟨m₁, hwrite, h₁⟩ := h.writeSlice hn (hps p List.mem_cons_self)
    obtain ⟨m₂, hall, h₂⟩ := ih h₁ fun q hq => hps q (List.mem_cons_of_mem p hq)
    refine ⟨m₂, ?_, h₂⟩
    rw [Vmm.writeAll, List.foldlM_cons, hwrite]
    exact hall

theorem IsRam.writeGdtEntries (h : IsRam n m) (hn : n < 2 ^ 64) (i : ℕ) (entries : List ℕ)
    (hlen : gdtGpa + (i + entries.length) * gdtEntrySize ≤ n) :
    ∃ m', writeGdtEntries i entries m = .ok m' ∧ IsRam n m' := by
  induction entries generalizing i m with
  | nil => exact ⟨m, rfl, h⟩
  | cons e entries ih =>
    simp only [gdtEntrySize, List.length_cons] at hlen
    obtain ⟨m₁, hwrite, h₁⟩ := h.writeSlice hn (a := gdtGpa + i * gdtEntrySize)
      (d := leBytes 8 e) (by simp only [length_leBytes, gdtEntrySize]; omega)
    obtain ⟨m₂, hrest, h₂⟩ := ih h₁ (i := i + 1) (by simp only [gdtEntrySize]; omega)
    refine ⟨m₂, ?_, h₂⟩
    rw [Vmm.writeGdtEntries, hwrite]
    exact hrest

/-- Fresh RAM. -/
theorem addRegion_isRam {virtualAlloc : ℕ → Option ℕ} {hva : ℕ} (halloc : virtualAlloc n = some hva)
    (hpage : n % 4096 = 0) (hn : n + 4096 < 2 ^ 64) :
    ∃ m, GuestMemory.addRegion virtualAlloc {} 0 (UInt64.ofNat n) = .ok m ∧ IsRam n m := by
  have hsize : (UInt64.ofNat n).toNat = n := by
    rw [UInt64.toNat_ofNat']
    exact Nat.mod_eq_of_lt (by omega)
  have halign : GuestMemory.alignUp n GuestMemory.pageSize = some n := by
    unfold GuestMemory.alignUp GuestMemory.pageSize
    rw [if_pos (by omega)]
    congr 1
    omega
  refine ⟨⟨[⟨0, UInt64.ofNat n, hva, fun _ => 0⟩]⟩, ?_, rfl⟩
  unfold GuestMemory.addRegion
  simp only [hsize, halign, UInt64.toNat_zero, Nat.zero_add, List.any_nil, halloc, List.take_nil,
    List.drop_nil, List.nil_append]
  rw [if_neg (by omega)]
  rfl

end

/-- The conditions under which a boot goes through. -/
structure Bootable (host : Host) (config : VmConfig) (image : Image) : Prop where
  valid : validateConfig host.fileExists config = .ok ()
  gib : gibCount config ≤ 512
  alloc : (host.virtualAlloc (ramBytes config)).isSome
  partition : ∀ mem, host.partition config mem = .ok ()
  kernel : ∀ m, IsRam (ramBytes config) m →
    ∃ res m', loadElf image.kernel m = .ok (res, m') ∧ IsRam (ramBytes config) m'
  initramfs : ∀ data, image.initramfs = some data → data ≠ [] ∧
    initramfsGpa (kernelEnd (segments image.kernel)) + data.length ≤ ramBytes config
  cmdline : cmdlineGpa + (cstring image.cmdline).length ≤ ramBytes config

section

variable {host : Host} {vsock : Bool} {config : VmConfig} {image : Image}

theorem ramBytes_bounds (config : VmConfig) :
    ramBytes config % 4096 = 0 ∧ ramBytes config + 4096 < 2 ^ 64 := by
  have := config.ramMib.toNat_lt
  simp only [ramBytes]
  omega

theorem Bootable.two_mib_le (h : Bootable host config image) : 0x200000 ≤ ramBytes config := by
  have := (validateConfig_ok h.valid).1
  simp only [ramBytes]
  omega

/-- The page tables are in RAM: a further GiB of RAM is worth one more page. -/
theorem Bootable.pageTables_le (h : Bootable host config image) {p : MemWrite}
    (hp : p ∈ pageTables (gibCount config)) : p.start + p.data.length ≤ ramBytes config := by
  obtain ⟨j, hj, hstart, hlen⟩ := mem_pageTables h.gib hp
  have htwo := h.two_mib_le
  have hgib : (gibCount config - 1) * 1024 ≤ config.ramMib.toNat := by
    simp only [gibCount]
    omega
  rw [hstart, hlen, pml4Gpa, pageSize]
  simp only [ramBytes] at htwo ⊢
  omega

theorem Bootable.placeInitramfs (h : Bootable host config image) {bp₀ bp : BootParams}
    (hread : readInitramfs host config = .ok image.initramfs)
    (hbp : withInitramfs image.kernel bp₀ image.initramfs = .ok bp) {m : GuestMemory}
    (hm : IsRam (ramBytes config) m) :
    ∃ m', placeInitramfs host config (kernelEnd (segments image.kernel)) bp₀ m = .ok (bp, m') ∧
      IsRam (ramBytes config) m' := by
  unfold readInitramfs at hread
  unfold Vmm.placeInitramfs
  cases hpath : config.initramfsPath with
  | none =>
    rw [hpath] at hread
    rw [← Except.ok.inj hread] at hbp
    rw [← Except.ok.inj hbp]
    exact ⟨m, rfl, hm⟩
  | some path =>
    rw [hpath] at hread
    obtain ⟨data, hdata, himage⟩ : ∃ data, host.fsRead path = .ok data ∧
        image.initramfs = some data := by
      cases hdata : host.fsRead path with
      | error e =>
        simp only [hdata] at hread
        cases hread
      | ok data =>
        simp only [hdata] at hread
        exact ⟨data, rfl, (Except.ok.inj hread).symm⟩
    obtain ⟨hne, hend⟩ := h.initramfs data himage
    obtain ⟨m₁, hwrite, hm₁⟩ := hm.writeSlice (by have := ramBytes_bounds config; omega) hend
    refine ⟨m₁, ?_, hm₁⟩
    have hload : loadInitramfs data (kernelEnd (segments image.kernel)) (ramBytes config) m =
        .ok (⟨initramfsGpa (kernelEnd (segments image.kernel)), data.length⟩, m₁) := by
      have hlt := (ramBytes_bounds config).2
      unfold loadInitramfs
      rw [if_neg (by simpa using hne)]
      simp only
      rw [if_neg (by rw [Nat.mod_eq_of_lt (by omega)]; omega)]
      simp only [GuestMemWriter.writeBytes, hwrite]
      rfl
    rw [himage] at hbp
    simp only [withInitramfs] at hbp
    simp only [hdata, hload, hbp, bind, Except.bind, Except.mapError, pure, Except.pure]

theorem Bootable.placeAcpi (h : Bootable host config image) (bp : BootParams) {m : GuestMemory}
    (hm : IsRam (ramBytes config) m) :
    ∃ m', placeAcpi config bp m = .ok m' ∧ IsRam (ramBytes config) m' := by
  have htwo := h.two_mib_le
  have hlt : ramBytes config < 2 ^ 64 := by
    have := ramBytes_bounds config
    omega
  obtain ⟨-, hpos, hmax⟩ := validateConfig_ok h.valid
  unfold Vmm.placeAcpi
  by_cases hcpus : 1 < config.cpus
  · obtain ⟨m₁, h₁, hm₁⟩ := hm.writeSlice hlt (a := rsdpGpa) (d := buildRsdp)
      (by rw [length_buildRsdp, rsdpGpa]; omega)
    obtain ⟨m₂, h₂, hm₂⟩ := hm₁.writeSlice hlt (a := xsdtGpa) (d := buildXsdt)
      (by rw [length_buildXsdt, xsdtGpa]; omega)
    obtain ⟨m₃, h₃, hm₃⟩ := hm₂.writeSlice hlt (a := madtGpa) (d := madt config.cpus.toNat)
      (by rw [length_madt, madtGpa]; omega)
    obtain ⟨m₄, h₄, hm₄⟩ := hm₃.writeSlice hlt (a := bootParamsGpa)
      (d := (setAcpiRsdp bp rsdpGpa).asBytes)
      (by rw [BootParams.length_asBytes, bootParamsGpa]; omega)
    have hmadt : buildMadt config.cpus.toNat = .ok (madt config.cpus.toNat) := by
      rw [buildMadt, if_neg (by omega), if_neg (by rw [maxCpus]; omega)]
      rfl
    refine ⟨m₄, ?_, hm₄⟩
    simp only [if_pos hcpus, h₁, h₂, hmadt, h₃, h₄, bind, Except.bind, Except.mapError]
  · exact ⟨m, if_neg hcpus, hm⟩

/-- **A boot that fits in RAM succeeds.** -/
theorem Bootable.boot_ok (h : Bootable host config image)
    (himage : bootImage host vsock config = .ok image) : ∃ b, boot host vsock config = .ok b := by
  have htwo := h.two_mib_le
  have hbounds := ramBytes_bounds config
  have hlt : ramBytes config < 2 ^ 64 := by omega
  -- the parts of the image
  obtain ⟨kernel, hkernel, himage⟩ := bind_eq_ok himage
  obtain ⟨initramfs, hread, himage⟩ := bind_eq_ok himage
  obtain ⟨bp, hbp, himage⟩ := bind_eq_ok himage
  obtain ⟨cmdline, hcmdline, himage⟩ := bind_eq_ok himage
  have himage := Except.ok.inj himage
  subst himage
  obtain ⟨bp₀, hbp₀, hwith⟩ := bind_eq_ok (mapError_eq_ok hbp)
  -- the memory after each step
  obtain ⟨hva, halloc⟩ := Option.isSome_iff_exists.1 h.alloc
  obtain ⟨m₀, h₀, hm₀⟩ := addRegion_isRam halloc hbounds.1 hbounds.2
  obtain ⟨m₁, h₁, hm₁⟩ := hm₀.writeAll hlt fun p hp => h.pageTables_le hp
  obtain ⟨res, m₂, h₂, hm₂⟩ := h.kernel m₁ hm₁
  obtain ⟨m₃, h₃, hm₃⟩ := h.placeInitramfs hread hwith hm₂
  obtain ⟨m₄, h₄, hm₄⟩ := hm₃.writeSlice hlt (a := bootParamsGpa) (d := bp.asBytes)
    (by rw [BootParams.length_asBytes, bootParamsGpa]; omega)
  obtain ⟨m₅, h₅, hm₅⟩ := h.placeAcpi bp hm₄
  obtain ⟨m₆, h₆, hm₆⟩ := hm₅.writeSlice hlt h.cmdline
  obtain ⟨m₇, h₇, hm₇⟩ := hm₆.writeGdtEntries hlt 0 gdtEntries
    (by simp only [gdtGpa, gdtEntrySize, gdtEntries, List.length_cons, List.length_nil]; omega)
  obtain ⟨res', m₈, h₈, -⟩ := h.kernel m₇ hm₇
  have hend := (loadElf_ok h₂).2.2.1
  have hpages : buildPageTables (gibCount config) =
      .ok (pml4Gpa, pageTables (gibCount config)) := by
    have hpos : 0 < gibCount config := by
      simp only [gibCount]
      omega
    rw [buildPageTables, if_neg (by rw [maxGib]; have := h.gib; omega)]
    rfl
  refine ⟨⟨m₈, pml4Gpa, res'.entryPoint⟩, ?_⟩
  simp only at hkernel hend h₃ h₂ h₈ h₆
  simp only [boot, setupGuestMemory, buildKernelCmdline, writeGdt, h.valid, h₀, hpages, h₁, hkernel,
    h₂, hend, hbp₀, h₃, h₄, h₅, hcmdline, h₆, h₇, h.partition, h₈, bind, Except.bind,
    Except.mapError, pure, Except.pure]

end

end Hitz.Vmm
