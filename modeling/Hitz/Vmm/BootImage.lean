import Hitz.Vmm.Boot

/-!
# The boot image

`bootImage` collects what the builders of a boot produce.  A successful boot stores the parts of the
image, some of them twice (`boot_ok`).  The image is `Intact` when its parts are pairwise apart, all
of them are in memory at the end, and the page tables map RAM to itself.  This is so exactly when
the parts `Fits` each other, which is a condition on the configuration and the headers of the kernel
that the code does not check.
-/

namespace Hitz.Vmm

open Api Boot Bytes Layout X86Paging

/-! ### Guest memory is a lawful writer -/

theorem exists_eq_ok {ε α : Type} {x : Except ε α} (h : x.isOk = true) : ∃ a, x = .ok a := by
  cases x with
  | error e => cases h
  | ok a => exact ⟨a, rfl⟩

theorem mapError_eq_ok {ε ε' α : Type} {f : ε → ε'} {x : Except ε α} {a : α}
    (h : x.mapError f = .ok a) : x = .ok a := by
  cases x with
  | error e => cases h
  | ok b =>
    cases h
    rfl

theorem GuestMemory.WF.patch_writeSlice {m m' : GuestMemory} (hm : m.WF) {a : ℕ}
    {d : List UInt8} (h : m.writeSlice a d = .ok m') : m'.byte = patch m.byte ⟨a, d⟩ := by
  funext x
  exact hm.byte_writeSlice h x

theorem GuestMemory.writeSlice_lt {m m' : GuestMemory} {a : ℕ} {d : List UInt8} (hd : d ≠ [])
    (h : m.writeSlice a d = .ok m') : a + d.length < 2 ^ 64 := by
  have hmapped : m.mapped a d.length = true := by
    rw [← GuestMemory.isSome_writeSlice, h]
    rfl
  exact GuestMemory.mapped_lt hmapped (List.length_pos_iff.2 hd)

/-- The chunks of `write_zeroes` together are one piece of zeroes. -/
theorem GuestMemory.WF.writeZeroesLoop {fuel : ℕ} {m m' : GuestMemory} {a n : ℕ} (hm : m.WF)
    (hn : n ≤ fuel) (h : GuestMemory.writeZeroesLoop fuel m a n = (.ok (), m')) :
    m'.WF ∧ m'.byte = patch m.byte ⟨a, List.replicate n 0⟩ := by
  induction fuel generalizing m a n with
  | zero =>
    cases h
    rw [Nat.le_zero.1 hn]
    exact ⟨hm, by simp⟩
  | succ fuel ih =>
    by_cases hzero : n = 0
    · subst hzero
      cases h
      exact ⟨hm, by simp⟩
    · simp only [GuestMemory.writeZeroesLoop, if_neg hzero] at h
      split at h
      · cases h
      · rename_i m₁ hwrite
        have hne : List.replicate (min n 4096) (0 : UInt8) ≠ [] := by
          rw [Ne, List.replicate_eq_nil_iff]
          omega
        have hlt := GuestMemory.writeSlice_lt hne hwrite
        rw [List.length_replicate] at hlt
        rw [Nat.min_eq_left (b := 2 ^ 64 - 1) (by omega)] at h
        obtain ⟨hwf, hbyte⟩ := ih (hm.writeSlice hwrite) (by omega) h
        refine ⟨hwf, ?_⟩
        have hsplit : List.replicate n (0 : UInt8) =
            List.replicate (min n 4096) 0 ++ List.replicate (n - min n 4096) 0 := by
          rw [List.replicate_append_replicate]
          congr 1
          omega
        rw [hbyte, hm.patch_writeSlice hwrite, hsplit, ← patch_patch_append,
          List.length_replicate]

instance : LawfulGuestMemWriter GuestMemory where
  Valid := GuestMemory.WF
  byte := GuestMemory.byte
  writeBytes_ok hm h := by
    have hwrite := mapError_eq_ok h
    exact ⟨hm.writeSlice hwrite, hm.patch_writeSlice hwrite⟩
  writeZeroes_ok {m m' a n} hm h := by
    change (match m.writeZeroes a n with
      | (.ok (), m') => .ok m'
      | (.error e, _) => .error (BootError.writeFailed e.display)) = Except.ok m' at h
    split at h
    · rename_i m₁ hzero
      cases h
      exact hm.writeZeroesLoop le_rfl hzero
    · cases h

theorem wrote_writeSlice {m m' : GuestMemory} {a : ℕ} {d : List UInt8}
    (h : (m.writeSlice a d).mapError VmError.mem = .ok m') : Wrote m [⟨a, d⟩] m' := by
  intro hm
  have hwrite := mapError_eq_ok h
  exact ⟨hm.writeSlice hwrite, hm.patch_writeSlice hwrite⟩

theorem wrote_writeAll {m m' : GuestMemory} {ps : List MemWrite} (h : writeAll m ps = .ok m') :
    Wrote m ps m' := by
  induction ps generalizing m with
  | nil =>
    cases h
    exact Wrote.refl _
  | cons p ps ih =>
    rw [writeAll, List.foldlM_cons] at h
    obtain ⟨m₁, hwrite, h⟩ := bind_eq_ok h
    have hp : Wrote m [p] m₁ := fun hm => ⟨hm.writeSlice hwrite, hm.patch_writeSlice hwrite⟩
    exact hp.trans (ih h)

/-- The entries of the GDT are adjacent. -/
theorem wrote_writeGdtEntries {i : ℕ} {entries : List ℕ} {m m' : GuestMemory}
    (h : writeGdtEntries i entries m = .ok m') :
    Wrote m [⟨gdtGpa + i * gdtEntrySize, entries.flatMap (leBytes 8)⟩] m' := by
  induction entries generalizing i m with
  | nil =>
    cases h
    exact Wrote.refl_empty _ _
  | cons e entries ih =>
    obtain ⟨m₁, hwrite, h⟩ := bind_eq_ok h
    have hhead : Wrote m [⟨gdtGpa + i * gdtEntrySize, leBytes 8 e⟩] m₁ :=
      fun hm => ⟨hm.writeSlice hwrite, hm.patch_writeSlice hwrite⟩
    rw [List.flatMap_cons]
    apply hhead.append
    rw [length_leBytes, show gdtGpa + i * gdtEntrySize + 8 = gdtGpa + (i + 1) * gdtEntrySize by
      simp only [gdtEntrySize]
      omega]
    exact ih h

/-! ### The image -/

/-- What the builders of a boot produce, besides the page tables, the GDT and the ACPI tables. -/
structure Image where
  kernel : List UInt8
  initramfs : Option (List UInt8)
  bootParams : BootParams
  cmdline : String

/-- The contents of the initramfs, if one is configured. -/
def readInitramfs (host : Host) (config : VmConfig) : Except VmError (Option (List UInt8)) :=
  match config.initramfsPath with
  | none => pure none
  | some path => some <$> host.fsRead path

/-- The zero page with the place and size of the initramfs. -/
def withInitramfs (kernel : List UInt8) (bp : BootParams) :
    Option (List UInt8) → Except BootError BootParams
  | none => pure bp
  | some data => setInitramfsParams bp (initramfsGpa (kernelEnd (segments kernel))) data.length

/-- The zero page before the address of the RSDP is set. -/
def initialBootParams (config : VmConfig) (kernel : List UInt8) (initramfs : Option (List UInt8)) :
    Except BootError BootParams := do
  let bp ← buildBootParams (ramBytes config) cmdlineGpa
  withInitramfs kernel bp initramfs

/-- The zero page as the kernel finds it. -/
def finalBootParams (config : VmConfig) (bp : BootParams) : BootParams :=
  if 1 < config.cpus then setAcpiRsdp bp rsdpGpa else bp

/-- The image of a boot. -/
def bootImage (host : Host) (vsock : Bool) (config : VmConfig) : Except VmError Image := do
  let kernel ← host.fsRead config.kernelPath
  let initramfs ← readInitramfs host config
  let bp ← (initialBootParams config kernel initramfs).mapError .boot
  let cmdline ← kernelCmdline config vsock
  pure ⟨kernel, initramfs, finalBootParams config bp, cmdline⟩

/-- The ACPI tables, when there is more than one vCPU. -/
def acpiTables (config : VmConfig) : List MemWrite :=
  if 1 < config.cpus then
    [⟨rsdpGpa, buildRsdp⟩, ⟨xsdtGpa, buildXsdt⟩, ⟨madtGpa, madt config.cpus.toNat⟩]
  else []

namespace Image

variable (config : VmConfig) (image : Image)

def gdtPart : MemWrite := ⟨gdtGpa, gdtEntries.flatMap (leBytes 8)⟩

def bootParamsPart : MemWrite := ⟨bootParamsGpa, image.bootParams.asBytes⟩

def cmdlinePart : MemWrite := ⟨cmdlineGpa, cstring image.cmdline⟩

def segmentParts : List MemWrite := (segments image.kernel).map (·.piece image.kernel)

def initramfsPart : List MemWrite :=
  match image.initramfs with
  | none => []
  | some data => [⟨initramfsGpa (kernelEnd (segments image.kernel)), data⟩]

/-- The parts whose place does not depend on the kernel. -/
def fixedParts : List MemWrite :=
  gdtPart :: image.bootParamsPart :: image.cmdlinePart ::
    (pageTables (gibCount config) ++ acpiTables config)

/-- All parts of the image. -/
def parts : List MemWrite :=
  image.fixedParts config ++ (image.segmentParts ++ image.initramfsPart)

end Image

/-- The image is in memory: no two parts share a byte, every part is still there, and the walk from
CR3 maps every address below the RAM size to itself. -/
structure Intact (config : VmConfig) (image : Image) (b : Booted) : Prop where
  apart : (image.parts config).Pairwise Apart
  holds : ∀ p ∈ image.parts config, Holds b.mem.byte p
  identity : ∀ a < ramBytes config, (walk b.mem.byte b.cr3 a).map Mapping.addr = some a

/-! ### What a boot writes -/

/-- The writes before the zero page is final. -/
def earlyWrites (config : VmConfig) (image : Image) (bp : BootParams) : List MemWrite :=
  pageTables (gibCount config) ++ (image.segmentParts ++ (image.initramfsPart ++
    ((if 1 < config.cpus then [⟨bootParamsGpa, bp.asBytes⟩] else []) ++ acpiTables config)))

/-- The writes after it. -/
def lateWrites (image : Image) : List MemWrite :=
  image.cmdlinePart :: Image.gdtPart :: image.segmentParts

theorem placeInitramfs_ok {host : Host} {config : VmConfig} {kernel : List UInt8}
    {bp₀ bp : BootParams} {m m' : GuestMemory}
    (h : placeInitramfs host config (kernelEnd (segments kernel)) bp₀ m = .ok (bp, m')) :
    ∃ initramfs, readInitramfs host config = .ok initramfs ∧
      withInitramfs kernel bp₀ initramfs = .ok bp ∧
      ∀ bp cmdline, Wrote m (Image.initramfsPart ⟨kernel, initramfs, bp, cmdline⟩) m' := by
  unfold placeInitramfs at h
  unfold readInitramfs
  cases hpath : config.initramfsPath with
  | none =>
    rw [hpath] at h
    cases h
    exact ⟨none, rfl, rfl, fun _ _ => Wrote.refl _⟩
  | some path =>
    rw [hpath] at h
    obtain ⟨data, hread, h⟩ := bind_eq_ok h
    obtain ⟨⟨res, m₁⟩, hload, h⟩ := bind_eq_ok h
    obtain ⟨bp₁, hset, h⟩ := bind_eq_ok h
    cases h
    obtain ⟨hres, hwrote⟩ := loadInitramfs_ok (mapError_eq_ok hload)
    have hset := mapError_eq_ok hset
    rw [hres] at hset
    refine ⟨some data, ?_, hset, fun _ _ => hwrote⟩
    simp [hread]

theorem placeAcpi_ok {config : VmConfig} {bp : BootParams} {m₀ m m' : GuestMemory}
    (hbp : (m₀.writeSlice bootParamsGpa bp.asBytes).mapError VmError.mem = .ok m)
    (h : placeAcpi config bp m = .ok m') :
    Wrote m₀ (((if 1 < config.cpus then [⟨bootParamsGpa, bp.asBytes⟩] else []) ++
      acpiTables config) ++ [⟨bootParamsGpa, (finalBootParams config bp).asBytes⟩]) m' := by
  unfold placeAcpi at h
  unfold acpiTables finalBootParams
  have hfirst := wrote_writeSlice hbp
  by_cases hcpus : 1 < config.cpus
  · simp only [if_pos hcpus] at h ⊢
    obtain ⟨m₁, hrsdp, h⟩ := bind_eq_ok h
    obtain ⟨m₂, hxsdt, h⟩ := bind_eq_ok h
    obtain ⟨table, htable, h⟩ := bind_eq_ok h
    obtain ⟨m₃, hmadt, h⟩ := bind_eq_ok h
    rw [buildMadt_ok (mapError_eq_ok htable)] at hmadt
    have htables := (wrote_writeSlice hrsdp).trans
      ((wrote_writeSlice hxsdt).trans (wrote_writeSlice hmadt))
    have hall := (hfirst.trans htables).trans (wrote_writeSlice h)
    simpa only [List.cons_append, List.nil_append] using hall
  · simp only [if_neg hcpus] at h ⊢
    cases h
    exact hfirst

/-- What an accepted configuration satisfies. -/
theorem validateConfig_ok {files : String → Bool} {config : VmConfig}
    (h : validateConfig files config = .ok ()) :
    2 ≤ config.ramMib.toNat ∧ 1 ≤ config.cpus.toNat ∧ config.cpus.toNat ≤ 255 := by
  obtain ⟨_, -, h⟩ := bind_eq_ok h
  obtain ⟨_, -, h⟩ := bind_eq_ok h
  obtain ⟨_, -, h⟩ := bind_eq_ok h
  -- whatever the guest agent is, the limits are checked last
  have hlimits : (if config.ramMib < minRamMib then
        Except.error (VmError.config ("RAM must be at least " ++ toString minRamMib ++
          " MiB, got " ++ toString config.ramMib))
      else if config.cpus = 0 ∨ 255 < config.cpus then
        Except.error (VmError.config ("cpus must be 1..=255, got " ++ toString config.cpus))
      else Except.ok ()) = Except.ok () := by
    cases hagent : config.guestAgent with
    | custom path =>
      rw [hagent] at h
      obtain ⟨_, -, h⟩ := bind_eq_ok h
      obtain ⟨_, -, h⟩ := bind_eq_ok h
      obtain ⟨_, -, h⟩ := bind_eq_ok h
      obtain ⟨_, -, h⟩ := bind_eq_ok h
      exact h
    | auto =>
      rw [hagent] at h
      obtain ⟨_, -, h⟩ := bind_eq_ok h
      obtain ⟨_, -, h⟩ := bind_eq_ok h
      obtain ⟨_, -, h⟩ := bind_eq_ok h
      exact h
    | disabled =>
      rw [hagent] at h
      obtain ⟨_, -, h⟩ := bind_eq_ok h
      obtain ⟨_, -, h⟩ := bind_eq_ok h
      obtain ⟨_, -, h⟩ := bind_eq_ok h
      exact h
  split_ifs at hlimits with hram hcpus
  simp only [minRamMib, UInt32.lt_iff_toNat_lt, UInt32.toNat_ofNat, ← UInt32.toNat_inj,
    not_or] at hram hcpus
  omega

/-- A fresh memory with one region. -/
theorem addRegion_empty {virtualAlloc : ℕ → Option ℕ} {size : UInt64} {m : GuestMemory}
    (hsize : 0 < size.toNat) (h : GuestMemory.addRegion virtualAlloc {} 0 size = .ok m) : m.WF := by
  unfold GuestMemory.addRegion at h
  split at h
  · cases h
  · rename_i aligned haligned
    split_ifs at h with hover
    split at h
    · cases h
    · cases h
      have hpos : 0 < aligned := by
        unfold GuestMemory.alignUp at haligned
        split_ifs at haligned
        cases haligned
        simp only [GuestMemory.pageSize]
        omega
      have htoNat : (UInt64.ofNat aligned).toNat = aligned := by
        simp only [UInt64.toNat_zero, Nat.zero_add, not_le] at hover
        simpa using hover
      constructor
      · simp
      · intro r hr
        simp only [List.take_nil, List.drop_nil, List.nil_append, List.mem_singleton] at hr
        subst hr
        simp only [htoNat, UInt64.toNat_zero, Nat.zero_add]
        omega

theorem ramBytes_toNat (config : VmConfig) :
    (UInt64.ofNat (ramBytes config)).toNat = ramBytes config := by
  have := config.ramMib.toNat_lt
  simp only [ramBytes, UInt64.toNat_ofNat']
  omega

theorem buildPageTables_ok {gibCount cr3 : ℕ} {writes : List MemWrite}
    (h : buildPageTables gibCount = .ok (cr3, writes)) :
    gibCount ≤ 512 ∧ cr3 = pml4Gpa ∧ writes = pageTables gibCount := by
  unfold buildPageTables at h
  split_ifs at h with hgib
  have h := Except.ok.inj h
  rw [Prod.mk.injEq] at h
  simp only [maxGib] at hgib
  exact ⟨by omega, h.1.symm, h.2.symm⟩

/-- What `setup_guest_memory` has written. -/
theorem setupGuestMemory_ok {host : Host} {config : VmConfig} {cr3 : ℕ} {m' : GuestMemory}
    (hram : 0 < ramBytes config) (h : setupGuestMemory host {} config = .ok (cr3, m')) :
    ∃ kernel initramfs bp m, host.fsRead config.kernelPath = .ok kernel ∧
      readInitramfs host config = .ok initramfs ∧
      initialBootParams config kernel initramfs = .ok bp ∧
      gibCount config ≤ 512 ∧ cr3 = pml4Gpa ∧ (∀ ph ∈ segments kernel, ph.InFile kernel) ∧
      m.WF ∧ ∀ cmdline, Wrote m
        (earlyWrites config ⟨kernel, initramfs, finalBootParams config bp, cmdline⟩ bp ++
          [⟨bootParamsGpa, (finalBootParams config bp).asBytes⟩]) m' := by
  obtain ⟨m, hregion, h⟩ := bind_eq_ok h
  obtain ⟨⟨cr3', writes⟩, hpages, h⟩ := bind_eq_ok h
  obtain ⟨m₁, hall, h⟩ := bind_eq_ok h
  obtain ⟨kernel, hkernel, h⟩ := bind_eq_ok h
  obtain ⟨⟨loaded, m₂⟩, hload, h⟩ := bind_eq_ok h
  obtain ⟨bp₀, hbp₀, h⟩ := bind_eq_ok h
  obtain ⟨⟨bp, m₃⟩, hinit, h⟩ := bind_eq_ok h
  obtain ⟨m₄, hbp, h⟩ := bind_eq_ok h
  obtain ⟨m₅, hacpi, h⟩ := bind_eq_ok h
  have h := Except.ok.inj h
  rw [Prod.mk.injEq] at h
  obtain ⟨rfl, rfl⟩ := h
  obtain ⟨hgib, hcr3, rfl⟩ := buildPageTables_ok (mapError_eq_ok hpages)
  obtain ⟨hin, hsegs, hend, -⟩ := loadElf_ok (mapError_eq_ok hload)
  simp only [hend] at hinit
  obtain ⟨initramfs, hread, hwith, hplaced⟩ := placeInitramfs_ok hinit
  refine ⟨kernel, initramfs, bp, m, hkernel, hread, ?_, hgib, hcr3, hin, ?_, ?_⟩
  · rw [initialBootParams, mapError_eq_ok hbp₀]
    exact hwith
  · exact addRegion_empty (by rwa [ramBytes_toNat]) (mapError_eq_ok hregion)
  · intro cmdline
    have hwrote := (wrote_writeAll (mapError_eq_ok hall)).trans
      (hsegs.trans ((hplaced (finalBootParams config bp) cmdline).trans (placeAcpi_ok hbp hacpi)))
    simpa only [earlyWrites, Image.segmentParts, List.append_assoc] using hwrote

/-- **What a boot has written.**  Memory is a fresh memory with the parts of the image stored in
order; the zero page is final before the last of them are stored. -/
theorem boot_ok {host : Host} {vsock : Bool} {config : VmConfig} {b : Booted}
    (h : boot host vsock config = .ok b) :
    ∃ image bp m, bootImage host vsock config = .ok image ∧ gibCount config ≤ 512 ∧
      b.cr3 = pml4Gpa ∧ (∀ ph ∈ segments image.kernel, ph.InFile image.kernel) ∧
      b.mem.byte = overlay (GuestMemory.byte m)
        (earlyWrites config image bp ++ image.bootParamsPart :: lateWrites image) := by
  obtain ⟨_, hvalid, h⟩ := bind_eq_ok h
  obtain ⟨⟨cr3, m₁⟩, hsetup, h⟩ := bind_eq_ok h
  obtain ⟨m₂, hcmdline, h⟩ := bind_eq_ok h
  obtain ⟨m₃, hgdt, h⟩ := bind_eq_ok h
  obtain ⟨_, -, h⟩ := bind_eq_ok h
  obtain ⟨kernel', hkernel', h⟩ := bind_eq_ok h
  obtain ⟨⟨loaded, m₄⟩, hload, h⟩ := bind_eq_ok h
  have h := Except.ok.inj h
  subst h
  have hram : 0 < ramBytes config := by
    have := (validateConfig_ok hvalid).1
    simp only [ramBytes]
    omega
  obtain ⟨kernel, initramfs, bp, m, hkernel, hread, hbp, hgib, hcr3, hin, hwf, hearly⟩ :=
    setupGuestMemory_ok hram hsetup
  -- the second read of the kernel gives the first one's bytes
  have hsame : kernel' = kernel := by
    rw [hkernel] at hkernel'
    exact (Except.ok.inj hkernel').symm
  subst hsame
  obtain ⟨cmdline, htext, hcmdline⟩ := bind_eq_ok hcmdline
  obtain ⟨-, hsegs, -⟩ := loadElf_ok (mapError_eq_ok hload)
  have hgdtWrote : Wrote m₂ [Image.gdtPart] m₃ := by
    have := wrote_writeGdtEntries (mapError_eq_ok hgdt)
    simpa only [Image.gdtPart, Nat.zero_mul, Nat.add_zero] using this
  refine ⟨⟨kernel', initramfs, finalBootParams config bp, cmdline⟩, bp, m, ?_, hgib, hcr3, hin, ?_⟩
  · simp only [bootImage, hkernel, hread, hbp, htext, bind, Except.bind, Except.mapError, pure,
      Except.pure]
  · have hall := (hearly cmdline).trans
      ((wrote_writeSlice hcmdline).trans (hgdtWrote.trans hsegs))
    have hbyte := (hall hwf).2
    simp only [List.append_assoc, List.cons_append, List.nil_append] at hbyte
    exact hbyte

end Hitz.Vmm
