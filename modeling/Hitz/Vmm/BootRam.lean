import Hitz.Vmm.BootProgress

/-!
# A boot image lies in RAM

Guest memory of a boot is one region from address 0 on, and a write that leaves it fails.  So every
part of the image of a boot that succeeded lies in RAM: `parts_inRam`.
-/

namespace Hitz.Vmm

open Api Boot Bytes Layout

/-- The piece is empty or lies in the first `n` bytes. -/
def InRam (n : ℕ) (p : MemWrite) : Prop := p.data ≠ [] → p.start + p.data.length ≤ n

theorem InRam.nil (n a : ℕ) : InRam n ⟨a, []⟩ := fun h => absurd rfl h

/-- Adjacent pieces. -/
theorem InRam.append {n a : ℕ} {d e : List UInt8} (hd : InRam n ⟨a, d⟩)
    (he : InRam n ⟨a + d.length, e⟩) : InRam n ⟨a, d ++ e⟩ := by
  intro hne
  show a + (d ++ e).length ≤ n
  rw [List.length_append]
  by_cases hnil : e = []
  · subst hnil
    rw [List.append_nil] at hne
    exact hd hne
  · have hend : a + d.length + e.length ≤ n := he hnil
    omega

/-- What was stored between two memories lies in RAM, and RAM is still there. -/
def Stored (n : ℕ) (m : GuestMemory) (ps : List MemWrite) (m' : GuestMemory) : Prop :=
  IsRam n m → IsRam n m' ∧ ∀ p ∈ ps, InRam n p

section

variable {n : ℕ} {m m' m'' : GuestMemory} {ps qs : List MemWrite}

theorem Stored.refl (n : ℕ) (m : GuestMemory) : Stored n m [] m := fun h => ⟨h, by simp⟩

theorem Stored.trans (h : Stored n m ps m') (h' : Stored n m' qs m'') :
    Stored n m (ps ++ qs) m'' := by
  intro hm
  obtain ⟨hm', hps⟩ := h hm
  obtain ⟨hm'', hqs⟩ := h' hm'
  refine ⟨hm'', fun p hp => ?_⟩
  rcases List.mem_append.1 hp with hp | hp
  · exact hps p hp
  · exact hqs p hp

theorem Stored.append {a : ℕ} {d e : List UInt8} (h : Stored n m [⟨a, d⟩] m')
    (h' : Stored n m' [⟨a + d.length, e⟩] m'') : Stored n m [⟨a, d ++ e⟩] m'' := by
  intro hm
  obtain ⟨hm', hd⟩ := h hm
  obtain ⟨hm'', he⟩ := h' hm'
  refine ⟨hm'', fun p hp => ?_⟩
  rw [List.mem_singleton.1 hp]
  exact (hd _ List.mem_cons_self).append (he _ List.mem_cons_self)

theorem Stored.refl_empty (n : ℕ) (m : GuestMemory) (a : ℕ) : Stored n m [⟨a, []⟩] m := by
  intro hm
  refine ⟨hm, fun p hp => ?_⟩
  rw [List.mem_singleton.1 hp]
  exact InRam.nil n a

theorem stored_writeSlice (hpos : 0 < n) (hn : n < 2 ^ 64) {a : ℕ} {d : List UInt8}
    (h : m.writeSlice a d = .ok m') : Stored n m [⟨a, d⟩] m' := by
  intro hm
  have hm' : IsRam n m' := by rw [IsRam, GuestMemory.map_range_writeSlice h, hm]
  refine ⟨hm', fun p hp => ?_⟩
  rw [List.mem_singleton.1 hp]
  rcases GuestMemory.writeSlice_ok h with ⟨rfl, -⟩ | ⟨i, off, rem, hd, hfind, -⟩
  · exact InRam.nil n a
  · obtain ⟨r, hr, hstart, hsize⟩ := hm.regions hn
    obtain ⟨s, hs, -, hend, -⟩ :=
      ((hm.wf hpos hn).findRegion_iff (List.length_pos_iff.2 hd)).1 hfind
    have hsr : s = r := by
      have hmem := List.mem_of_getElem? hs
      rwa [hr, List.mem_singleton] at hmem
    rw [hsr, hstart, hsize] at hend
    intro _
    simpa using hend

theorem stored_writeZeroesLoop (hpos : 0 < n) (hn : n < 2 ^ 64) {fuel a k : ℕ} (hk : k ≤ fuel)
    (h : GuestMemory.writeZeroesLoop fuel m a k = (.ok (), m')) :
    Stored n m [⟨a, List.replicate k 0⟩] m' := by
  induction fuel generalizing m a k with
  | zero =>
    cases h
    rw [Nat.le_zero.1 hk]
    exact Stored.refl_empty n _ a
  | succ fuel ih =>
    by_cases hzero : k = 0
    · subst hzero
      cases h
      exact Stored.refl_empty n _ a
    · simp only [GuestMemory.writeZeroesLoop, if_neg hzero] at h
      split at h
      · cases h
      · rename_i m₁ hwrite
        have hne : List.replicate (min k 4096) (0 : UInt8) ≠ [] := by
          rw [Ne, List.replicate_eq_nil_iff]
          omega
        have hlt := GuestMemory.writeSlice_lt hne hwrite
        rw [List.length_replicate] at hlt
        rw [Nat.min_eq_left (b := 2 ^ 64 - 1) (by omega)] at h
        have hsplit : List.replicate k (0 : UInt8) =
            List.replicate (min k 4096) 0 ++ List.replicate (k - min k 4096) 0 := by
          rw [List.replicate_append_replicate]
          congr 1
          omega
        rw [hsplit]
        refine (stored_writeSlice hpos hn hwrite).append ?_
        rw [List.length_replicate]
        exact ih (by omega) h

theorem stored_writeAll (hpos : 0 < n) (hn : n < 2 ^ 64) (h : writeAll m ps = .ok m') :
    Stored n m ps m' := by
  induction ps generalizing m with
  | nil =>
    cases h
    exact Stored.refl n _
  | cons p ps ih =>
    rw [writeAll, List.foldlM_cons] at h
    obtain ⟨m₁, hwrite, h⟩ := bind_eq_ok h
    exact (stored_writeSlice hpos hn hwrite).trans (ih h)

/-! ### The loaders -/

variable {kernel : List UInt8}

theorem stored_copyFile (hpos : 0 < n) (hn : n < 2 ^ 64) {ph : Elf64Phdr}
    (h : copyFile kernel ph m = .ok m') : Stored n m [⟨ph.paddr, ph.fileBytes kernel⟩] m' := by
  unfold copyFile at h
  split_ifs at h with hsz hover hlen
  · exact stored_writeSlice hpos hn (mapError_eq_ok h)
  · cases h
    have hnil : ph.fileBytes kernel = [] := by
      simp [Elf64Phdr.fileBytes, show ph.filesz = 0 by omega]
    rw [hnil]
    exact Stored.refl_empty n m ph.paddr

theorem stored_zeroBss (hpos : 0 < n) (hn : n < 2 ^ 64) {ph : Elf64Phdr}
    (h : zeroBss ph m = .ok m') :
    Stored n m [⟨ph.paddr + ph.filesz, List.replicate (ph.memsz - ph.filesz) 0⟩] m' := by
  unfold zeroBss at h
  split_ifs at h with hsz hover
  · simp only [GuestMemWriter.writeZeroes] at h
    split at h
    · rename_i m₁ hzero
      cases h
      exact stored_writeZeroesLoop hpos hn le_rfl hzero
    · cases h
  · cases h
    rw [show ph.memsz - ph.filesz = 0 by omega]
    exact Stored.refl_empty n m _

theorem stored_loadSteps (hpos : 0 < n) (hn : n < 2 ^ 64) {hdr : Elf64Header} {is : List ℕ}
    {st st' : LoadState GuestMemory} (h : is.foldlM (loadStep kernel hdr) st = .ok st') :
    ∃ phs, is.mapM (programHeader kernel hdr) = .ok phs ∧
      Stored n st.writer ((phs.filter (·.ty = ptLoad)).map (·.piece kernel)) st'.writer := by
  induction is generalizing st with
  | nil =>
    cases h
    exact ⟨[], rfl, Stored.refl n _⟩
  | cons i is ih =>
    rw [List.foldlM_cons] at h
    obtain ⟨st₁, hstep, h⟩ := bind_eq_ok h
    obtain ⟨phs, hphs, hrest⟩ := ih h
    obtain ⟨ph, hph, hcase⟩ := loadStep_eq_ok_iff.1 hstep
    refine ⟨ph :: phs, by rw [List.mapM_cons, hph, hphs]; rfl, ?_⟩
    rcases hcase with ⟨hty, rfl⟩ | ⟨hty, w₁, w₂, hcopy, hbss, -, rfl⟩
    · rw [List.filter_cons_of_neg (by simpa using hty)]
      exact hrest
    · rw [List.filter_cons_of_pos (by simpa using hty), List.map_cons]
      refine Stored.trans ((stored_copyFile hpos hn hcopy).append ?_) hrest
      rw [(copyFile_ok hcopy).1.length_fileBytes]
      exact stored_zeroBss hpos hn hbss

/-- The segments of a kernel that was loaded lie in RAM. -/
theorem stored_loadElf (hpos : 0 < n) (hn : n < 2 ^ 64) {res : KernelLoadResult}
    (h : loadElf kernel m = .ok (res, m')) :
    Stored n m ((segments kernel).map (·.piece kernel)) m' := by
  obtain ⟨hdr, st, hhdr, hst, -, -, -, -, rfl⟩ := loadElf_eq_ok_iff.1 h
  obtain ⟨phs, hphs, hstored⟩ := stored_loadSteps hpos hn hst
  have hall : programHeaders kernel = .ok phs := by
    rw [programHeaders, hhdr]
    exact hphs
  rw [segments, hall]
  exact hstored

theorem stored_placeInitramfs {host : Host} {config : VmConfig} (hpos : 0 < n) (hn : n < 2 ^ 64)
    {bp₀ bp : BootParams} (image : Image)
    (hread : readInitramfs host config = .ok image.initramfs)
    (h : placeInitramfs host config (kernelEnd (segments image.kernel)) bp₀ m = .ok (bp, m')) :
    Stored n m image.initramfsPart m' := by
  unfold placeInitramfs at h
  unfold readInitramfs at hread
  cases hpath : config.initramfsPath with
  | none =>
    rw [hpath] at h hread
    cases h
    rw [Image.initramfsPart, ← Except.ok.inj hread]
    exact Stored.refl n m
  | some path =>
    rw [hpath] at h hread
    obtain ⟨data, hdata, h⟩ := bind_eq_ok h
    obtain ⟨⟨res, m₁⟩, hload, h⟩ := bind_eq_ok h
    obtain ⟨bp₁, -, h⟩ := bind_eq_ok h
    cases h
    simp only [hdata] at hread
    rw [Image.initramfsPart, ← Except.ok.inj hread]
    have hload := mapError_eq_ok hload
    unfold loadInitramfs at hload
    simp only at hload
    split_ifs at hload with hempty hram
    obtain ⟨w, hwrite, hload⟩ := bind_eq_ok hload
    cases hload
    exact stored_writeSlice hpos hn (mapError_eq_ok hwrite)

theorem isRam_placeAcpi {config : VmConfig} (hpos : 0 < n) (hn : n < 2 ^ 64) {bp : BootParams}
    (h : placeAcpi config bp m = .ok m') (hm : IsRam n m) : IsRam n m' := by
  unfold placeAcpi at h
  by_cases hcpus : 1 < config.cpus
  · rw [if_pos hcpus] at h
    obtain ⟨m₁, hrsdp, h⟩ := bind_eq_ok h
    obtain ⟨m₂, hxsdt, h⟩ := bind_eq_ok h
    obtain ⟨table, -, h⟩ := bind_eq_ok h
    obtain ⟨m₃, hmadt, h⟩ := bind_eq_ok h
    have hone := (stored_writeSlice hpos hn (mapError_eq_ok hrsdp) hm).1
    have htwo := (stored_writeSlice hpos hn (mapError_eq_ok hxsdt) hone).1
    have hthree := (stored_writeSlice hpos hn (mapError_eq_ok hmadt) htwo).1
    exact (stored_writeSlice hpos hn (mapError_eq_ok h) hthree).1
  · rw [if_neg hcpus] at h
    cases h
    exact hm

/-- Fresh memory is RAM. -/
theorem isRam_of_addRegion {virtualAlloc : ℕ → Option ℕ} (hpage : n % 4096 = 0)
    (hn : n + 4096 < 2 ^ 64)
    (h : GuestMemory.addRegion virtualAlloc {} 0 (UInt64.ofNat n) = .ok m) : IsRam n m := by
  cases halloc : virtualAlloc n with
  | some hva =>
    obtain ⟨m₁, hadd, hm₁⟩ := addRegion_isRam halloc hpage hn
    rw [h] at hadd
    rw [Except.ok.inj hadd]
    exact hm₁
  | none =>
    have hsize : (UInt64.ofNat n).toNat = n := by
      rw [UInt64.toNat_ofNat']
      exact Nat.mod_eq_of_lt (by omega)
    have halign : GuestMemory.alignUp n GuestMemory.pageSize = some n := by
      unfold GuestMemory.alignUp GuestMemory.pageSize
      rw [if_pos (by omega), show (n + (4096 - 1)) / 4096 * 4096 = n by omega]
    unfold GuestMemory.addRegion at h
    simp only [hsize, halign, List.any_nil, halloc] at h
    split_ifs at h

end

/-! ### The parts -/

section

variable {host : Host} {vsock : Bool} {config : VmConfig} {image : Image}

theorem setupGuestMemory_inRam {cr3 : ℕ} {m : GuestMemory} (hram : 0 < ramBytes config)
    (hkernel : host.fsRead config.kernelPath = .ok image.kernel)
    (hread : readInitramfs host config = .ok image.initramfs)
    (h : setupGuestMemory host {} config = .ok (cr3, m)) : IsRam (ramBytes config) m ∧
      ∀ p ∈ pageTables (gibCount config) ++ (image.segmentParts ++ image.initramfsPart),
        InRam (ramBytes config) p := by
  obtain ⟨hpage, hbound⟩ := ramBytes_bounds config
  have hn : ramBytes config < 2 ^ 64 := by omega
  obtain ⟨m₀, hregion, h⟩ := bind_eq_ok h
  obtain ⟨⟨cr3', writes⟩, hpages, h⟩ := bind_eq_ok h
  obtain ⟨m₁, hall, h⟩ := bind_eq_ok h
  obtain ⟨kernel, hkernel', h⟩ := bind_eq_ok h
  obtain ⟨⟨loaded, m₂⟩, hload, h⟩ := bind_eq_ok h
  obtain ⟨bp₀, -, h⟩ := bind_eq_ok h
  obtain ⟨⟨bp, m₃⟩, hinit, h⟩ := bind_eq_ok h
  obtain ⟨m₄, hbp, h⟩ := bind_eq_ok h
  obtain ⟨m₅, hacpi, h⟩ := bind_eq_ok h
  have h := Except.ok.inj h
  rw [Prod.mk.injEq] at h
  obtain ⟨rfl, rfl⟩ := h
  rw [hkernel] at hkernel'
  cases hkernel'
  obtain ⟨-, -, rfl⟩ := buildPageTables_ok (mapError_eq_ok hpages)
  obtain ⟨-, -, hend, -⟩ := loadElf_ok (mapError_eq_ok hload)
  simp only [hend] at hinit
  have hfresh := isRam_of_addRegion hpage hbound (mapError_eq_ok hregion)
  have hstored := (stored_writeAll hram hn (mapError_eq_ok hall)).trans
    ((stored_loadElf hram hn (mapError_eq_ok hload)).trans
      (stored_placeInitramfs hram hn image hread hinit))
  obtain ⟨hm₃, hparts⟩ := hstored hfresh
  have hm₄ := (stored_writeSlice hram hn (mapError_eq_ok hbp) hm₃).1
  exact ⟨isRam_placeAcpi hram hn hacpi hm₄, hparts⟩

/-- The parts below 2 MiB, which is the least RAM. -/
theorem inRam_of_le {n : ℕ} {p : MemWrite} (hn : 0x200000 ≤ n)
    (hp : p.start + p.data.length ≤ 0x200000) : InRam n p := fun _ => hp.trans hn

/-- **The image lies in RAM.** -/
theorem parts_inRam {b : Booted} (h : boot host vsock config = .ok b)
    (himage : bootImage host vsock config = .ok image) {p : MemWrite}
    (hp : p ∈ image.parts config) : InRam (ramBytes config) p := by
  obtain ⟨_, hvalid, h⟩ := bind_eq_ok h
  obtain ⟨⟨cr3, m₁⟩, hsetup, h⟩ := bind_eq_ok h
  obtain ⟨m₂, hcmdline, h⟩ := bind_eq_ok h
  obtain ⟨htwo, -, hcpus⟩ := validateConfig_ok hvalid
  have hlow : 0x200000 ≤ ramBytes config := by
    simp only [ramBytes]
    omega
  have hn : ramBytes config < 2 ^ 64 := by
    have := (ramBytes_bounds config).2
    omega
  obtain ⟨kernel, hkernel, himage⟩ := bind_eq_ok himage
  obtain ⟨initramfs, hread, himage⟩ := bind_eq_ok himage
  obtain ⟨bp, -, himage⟩ := bind_eq_ok himage
  obtain ⟨cmdline, htext, himage⟩ := bind_eq_ok himage
  cases himage
  -- the image shares its kernel and its initramfs with what the setup has loaded
  let image : Image := ⟨kernel, initramfs, finalBootParams config bp, cmdline⟩
  have hread : readInitramfs host config = .ok image.initramfs := hread
  obtain ⟨hm₁, hparts⟩ := setupGuestMemory_inRam (by omega) hkernel hread hsetup
  obtain ⟨cmdline', htext', hcmdline⟩ := bind_eq_ok hcmdline
  rw [htext] at htext'
  cases htext'
  have hcmd := (stored_writeSlice (by omega) hn (mapError_eq_ok hcmdline) hm₁).2
  simp only [Image.parts, Image.fixedParts, List.mem_append, List.mem_cons] at hp hparts
  rcases hp with (rfl | rfl | rfl | hp | hp) | hp
  · exact inRam_of_le hlow (by decide)
  · refine inRam_of_le hlow ?_
    simp only [Image.bootParamsPart, BootParams.length_asBytes, bootParamsGpa]
    omega
  · exact hcmd _ List.mem_cons_self
  · exact hparts p (Or.inl hp)
  · unfold acpiTables at hp
    split_ifs at hp with hmore
    · refine inRam_of_le hlow ?_
      simp only [List.mem_cons, List.not_mem_nil, or_false] at hp
      rcases hp with rfl | rfl | rfl
      · simp only [length_buildRsdp, rsdpGpa]
        omega
      · simp only [length_buildXsdt, xsdtGpa]
        omega
      · simp only [length_madt, madtGpa]
        omega
    · cases hp
  · exact hparts p (Or.inr hp)

end

end Hitz.Vmm
