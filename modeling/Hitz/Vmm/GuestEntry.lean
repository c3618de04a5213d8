import Hitz.Boot.AcpiChecksums
import Hitz.Boot.ElfChecked
import Hitz.Boot.ZeroPage
import Hitz.Vmm.BootIntegrity
import Hitz.Vmm.BootRam
import Hitz.Vmm.BootRegs

/-!
# What the first vCPU finds (`hitz-vmm/src/boot_regs.rs`, `hitz-vmm/src/vm.rs`)

The kernel starts with nothing but its registers: it reads memory through the page tables that CR3
points to, takes the zero page from RSI, and follows the addresses in it.  `Entered` says what it
finds there, and `boot_entered` that it does so after every successful boot whose parts fit.
-/

namespace Hitz.Vmm

open Api Boot Bytes Checksum Hal Layout Packed X86Paging

/-! ### The registers -/

/-- RFLAGS: only the bit that is always set. -/
def rflagsInit : UInt64 := 0x2

/-- The registers of `configure_regs`. -/
def configureRegs (entryPoint bootParamsGpa : UInt64) : StandardRegs :=
  { rip := entryPoint, rsi := bootParamsGpa, rsp := 0, rflags := rflagsInit }

/-- The registers that the first vCPU starts with. -/
def Booted.regs (b : Booted) : StandardRegs :=
  configureRegs (UInt64.ofNat b.entryPoint) (UInt64.ofNat bootParamsGpa)

/-- Its special registers. -/
def Booted.sregs (b : Booted) : SpecialRegs := configureSregs (UInt64.ofNat b.cr3)

/-! ### What the guest reads -/

/-- What the first vCPU reads at a virtual address. -/
def Booted.read (b : Booted) (va n : ℕ) : Option (List UInt8) :=
  loadBytes b.mem.byte b.sregs.cr3.toNat va n

/-- An ACPI table with a header: its length is in bytes 4 to 7. -/
def Booted.readTable (b : Booted) (va : ℕ) : Option (List UInt8) :=
  (b.read va sdtHeaderLen).bind fun header => b.read va (leAt header 4 4)

/-- The processor is in 64-bit mode, with paging and without interrupts. -/
structure LongMode (regs : StandardRegs) (sregs : SpecialRegs) : Prop where
  /-- PE and PG. -/
  paging : sregs.cr0 &&& 0x80000001 = 0x80000001
  pae : sregs.cr4 &&& 0x20 = 0x20
  /-- LME and LMA. -/
  active : sregs.efer &&& 0x500 = 0x500
  code : sregs.cs.longMode = 1 ∧ sregs.cs.db = 0
  /-- IF. -/
  masked : regs.rflags &&& 0x200 = 0

/-- A segment register has what the entry of the GDT under its selector says. -/
def Loaded (b : Booted) (seg : SegmentDescriptor) : Prop :=
  seg.selector.toNat + 7 ≤ b.sregs.gdt.limit.toNat ∧
    ∃ raw, b.read (b.sregs.gdt.base.toNat + seg.selector.toNat) 8 = some raw ∧
      decodeGdtEntry (leNat raw) seg.selector = seg

/-- The tables that the RSDP at `va` leads to. -/
structure FindsAcpi (cpus : ℕ) (b : Booted) (va : ℕ) (rsdp xsdt madt : List UInt8) : Prop where
  read_rsdp : b.read va 36 = some rsdp
  rsdp_valid : RsdpValid rsdp
  read_xsdt : b.readTable (leAt rsdp 24 8) = some xsdt
  xsdt_valid : Valid xsdt
  read_madt : b.readTable (leAt xsdt 36 8) = some madt
  madt_valid : MadtValid cpus madt

/-- What the first vCPU finds. -/
structure Entered (config : VmConfig) (image : Image) (b : Booted) (page : ZeroPage) : Prop where
  mode : LongMode b.regs b.sregs
  /-- It starts at the entry point of the kernel. -/
  entry : IsElf64 image.kernel ∧ b.regs.rip.toNat = (headerOf image.kernel).entry
  /-- The segments of the kernel, with their zeroes. -/
  kernel : ∀ ph ∈ segments image.kernel, b.read ph.paddr (max ph.filesz ph.memsz) =
    some (ph.fileBytes image.kernel ++ List.replicate (ph.memsz - ph.filesz) 0)
  /-- RSI points to the zero page. -/
  zeroPage : (b.read b.regs.rsi.toNat 4096).map readZeroPage = some page
  header : page.header = 0x53726448
  memoryMap : page.e820Table = e820Map (ramBytes config)
  cmdline : b.read page.cmdLinePtr (image.cmdline.utf8ByteSize + 1) = some (cstring image.cmdline)
  initramfs : ∀ data, image.initramfs = some data →
    page.ramdiskSize = data.length ∧ b.read page.ramdiskImage page.ramdiskSize = some data
  noInitramfs : image.initramfs = none → page.ramdiskSize = 0
  acpi : 1 < config.cpus →
    ∃ rsdp xsdt madt, FindsAcpi config.cpus.toNat b page.acpiRsdpAddr rsdp xsdt madt
  noAcpi : ¬1 < config.cpus → page.acpiRsdpAddr = 0
  /-- The flat segments are loaded. -/
  segments : ∀ seg ∈ [b.sregs.cs, b.sregs.ds, b.sregs.es, b.sregs.fs, b.sregs.gs, b.sregs.ss],
    Loaded b seg
  /-- The task register is loaded: its descriptor in memory is still the available one. -/
  task : b.sregs.tr.type = 0xB ∧ Loaded b { b.sregs.tr with type := 9 }

/-! ### Reading the parts -/

/-- A part of a piece that is held. -/
theorem holds_slice {mem : ℕ → UInt8} {p : MemWrite} (h : Holds mem p) (o n : ℕ) :
    Holds mem ⟨p.start + o, slice p.data o n⟩ := by
  intro i a hi
  have hget : p.data[o + i]? = some a := by
    have hi : ((p.data.drop o).take n)[i]? = some a := hi
    rw [List.getElem?_take] at hi
    split_ifs at hi with hin
    rwa [List.getElem?_drop] at hi
  have hheld := h (o + i) a hget
  rwa [← Nat.add_assoc] at hheld

theorem length_slice {data : List UInt8} {o n : ℕ} (h : o + n ≤ data.length) :
    (slice data o n).length = n :=
  List.length_take_of_le (by rw [List.length_drop]; omega)

theorem slice_self (data : List UInt8) : slice data 0 data.length = data := by
  rw [slice, List.drop_zero, List.take_length]

section

variable {host : Host} {vsock : Bool} {config : VmConfig} {image : Image} {b : Booted}

/-- When the parts fit, the image is intact. -/
theorem intact_of_fits (h : boot host vsock config = .ok b)
    (himage : bootImage host vsock config = .ok image) (hfits : Fits config image) :
    Intact config image b ∧ b.cr3 = pml4Gpa := by
  obtain ⟨image', bp, m, himage', hgib, hcr3, hin, hbyte⟩ := boot_ok h
  rw [himage] at himage'
  cases himage'
  have hpair := (pairwise_parts hgib hin).2 hfits
  have hholds : ∀ p ∈ image.parts config, Holds b.mem.byte p := by
    intro p hp
    rw [hbyte]
    exact holds_parts hpair hp
  have hpages : ∀ p ∈ pageTables (gibCount config), Holds b.mem.byte p := by
    intro p hp
    apply hholds
    simp [Image.parts, Image.fixedParts, hp]
  exact ⟨⟨hpair, hholds, fun a ha => identity_of_holds hgib hcr3 hpages ha⟩, hcr3⟩

/-- Every part of the image can be read where it was stored. -/
def Readable (config : VmConfig) (image : Image) (b : Booted) : Prop :=
  ∀ p ∈ image.parts config, ∀ o n, o + n ≤ p.data.length →
    b.read (p.start + o) n = some (slice p.data o n)

theorem readable_of_fits (h : boot host vsock config = .ok b)
    (himage : bootImage host vsock config = .ok image) (hfits : Fits config image) :
    Readable config image b := by
  obtain ⟨hintact, hcr3⟩ := intact_of_fits h himage hfits
  intro p hp o n hon
  have hroot : b.sregs.cr3.toNat = b.cr3 := by
    rw [Booted.sregs, configureSregs, hcr3]
    rfl
  have hid : ∀ a ∈ (⟨p.start + o, slice p.data o n⟩ : MemWrite).range,
      (walk b.mem.byte b.sregs.cr3.toNat a).map Mapping.addr = some a := by
    intro a ha
    rw [Piece.mem_range, length_slice hon] at ha
    have hlt : a < p.start + o + n := ha.2
    have hne : p.data ≠ [] := by
      rintro hnil
      have hle : p.start + o ≤ a := ha.1
      rw [hnil, List.length_nil] at hon
      omega
    have hram := parts_inRam h himage hp hne
    rw [hroot]
    exact hintact.identity a (by omega)
  have hread := loadBytes_of_holds (holds_slice (hintact.holds p hp) o n) hid
  rwa [length_slice hon] at hread

theorem Readable.all (hread : Readable config image b) {a : ℕ} {d : List UInt8}
    (hp : (⟨a, d⟩ : MemWrite) ∈ image.parts config) {n : ℕ} (hn : d.length = n) :
    b.read a n = some d := by
  have hall : b.read (a + 0) n = some (slice d 0 n) := hread ⟨a, d⟩ hp 0 n (by simp [hn])
  rwa [← hn, slice_self, Nat.add_zero, hn] at hall

/-- A table that says its length. -/
theorem Readable.table (hread : Readable config image b) {a : ℕ} {table : List UInt8}
    (hp : (⟨a, table⟩ : MemWrite) ∈ image.parts config) (hlen : sdtHeaderLen ≤ table.length)
    (hlength : leAt table 4 4 = table.length) : b.readTable a = some table := by
  have hheader : b.read (a + 0) sdtHeaderLen = some (slice table 0 sdtHeaderLen) :=
    hread ⟨a, table⟩ hp 0 sdtHeaderLen (by simpa using hlen)
  rw [Nat.add_zero] at hheader
  have hfield : leAt (slice table 0 sdtHeaderLen) 4 4 = leAt table 4 4 := by
    rw [leAt, leAt, slice, slice, slice, List.drop_zero, List.drop_take, List.take_take]
    rfl
  rw [Booted.readTable, hheader, Option.bind_some, hfield, hlength]
  exact hread.all hp rfl

end

/-! ### The zero page -/

/-- Where the zero page says that the initramfs is, and its size. -/
def initramfsFields (kernel : List UInt8) : Option (List UInt8) → ℕ × ℕ
  | none => (0, 0)
  | some data => (initramfsGpa (kernelEnd (segments kernel)), data.length)

/-- The zero page of a boot is built like one with an initramfs and an RSDP, at address 0 and of
size 0 where there are none. -/
theorem initialBootParams_ok {config : VmConfig} {kernel : List UInt8}
    {initramfs : Option (List UInt8)} {bp : BootParams}
    (h : initialBootParams config kernel initramfs = .ok bp) :
    ∃ bp₀ bp₁, buildBootParams (ramBytes config) cmdlineGpa = .ok bp₀ ∧
      setInitramfsParams bp₀ (initramfsFields kernel initramfs).1
        (initramfsFields kernel initramfs).2 = .ok bp₁ ∧
      finalBootParams config bp = setAcpiRsdp bp₁ (if 1 < config.cpus then rsdpGpa else 0) := by
  obtain ⟨bp₀, hbuild, h⟩ := bind_eq_ok h
  refine ⟨bp₀, bp, hbuild, ?_, ?_⟩
  · cases initramfs with
    | none =>
      cases h
      unfold buildBootParams at hbuild
      split_ifs at hbuild with hsmall
      cases hbuild
      rfl
    | some data => exact h
  · unfold finalBootParams
    split_ifs with hcpus
    · rfl
    · have hzero : bp.acpiRsdpAddr = 0 := by
        unfold buildBootParams at hbuild
        split_ifs at hbuild with hsmall
        cases hbuild
        cases initramfs with
        | none =>
          cases h
          rfl
        | some data =>
          have h : setInitramfsParams _ _ _ = .ok bp := h
          unfold setInitramfsParams at h
          split_ifs at h
          cases h
          rfl
      rw [setAcpiRsdp, show UInt64.ofNat 0 = bp.acpiRsdpAddr from hzero.symm]

/-- What the kernel takes from the zero page of a boot. -/
theorem readZeroPage_built {ramBytes cmdline gpa size rsdp : ℕ} {bp bp' : BootParams}
    (hram : ramBytes < 2 ^ 64) (hcmd : cmdline < 2 ^ 32) (hrsdp : rsdp < 2 ^ 64)
    (hbuild : buildBootParams ramBytes cmdline = .ok bp)
    (hset : setInitramfsParams bp gpa size = .ok bp') :
    (readZeroPage (setAcpiRsdp bp' rsdp).asBytes).header = 0x53726448 ∧
      (readZeroPage (setAcpiRsdp bp' rsdp).asBytes).e820Table = e820Map ramBytes ∧
      (readZeroPage (setAcpiRsdp bp' rsdp).asBytes).cmdLinePtr = cmdline ∧
      (readZeroPage (setAcpiRsdp bp' rsdp).asBytes).ramdiskImage = gpa ∧
      (readZeroPage (setAcpiRsdp bp' rsdp).asBytes).ramdiskSize = size ∧
      (readZeroPage (setAcpiRsdp bp' rsdp).asBytes).acpiRsdpAddr = rsdp := by
  obtain ⟨hgpa, hsize⟩ := setInitramfsParams_lt hset
  have hhigh : ramBytes - 0x100000 < 256 ^ 8 := by omega
  rw [BootParams.asBytes_eq_pack, fields_of_ok hram hcmd hrsdp hbuild hset]
  have hread := leAt_fields (ramBytes - 0x100000) cmdline gpa size rsdp
  have hentries : leAt (pack (pageFields (ramBytes - 0x100000) cmdline gpa size rsdp ++
      emptyFields)) 0x1E8 1 = 3 := hread 3 rfl (by decide)
  generalize pack (pageFields (ramBytes - 0x100000) cmdline gpa size rsdp ++ emptyFields) = page
    at hread hentries ⊢
  refine ⟨hread 13 rfl (by decide), ?_, hread 28 rfl hcmd, hread 22 rfl hgpa, hread 23 rfl hsize,
    hread 1 rfl hrsdp⟩
  show (List.range (leAt page 0x1E8 1)).map _ = _
  rw [hentries]
  simp only [List.range_succ, List.range_zero, List.nil_append, List.map_cons, List.map_nil,
    List.cons_append, e820Map, List.cons.injEq, and_true, readE820, E820Region.mk.injEq]
  exact ⟨⟨hread 36 rfl (by decide), hread 37 rfl (by decide), hread 38 rfl (by decide)⟩,
    ⟨hread 39 rfl (by decide), hread 40 rfl (by decide), hread 41 rfl (by decide)⟩,
    hread 42 rfl (by decide), hread 43 rfl hhigh, hread 44 rfl (by decide)⟩

/-! ### The first vCPU -/

theorem booted_longMode (b : Booted) : LongMode b.regs b.sregs where
  paging := show cr0LongMode &&& 0x80000001 = 0x80000001 by decide
  pae := show cr4LongMode &&& 0x20 = 0x20 by decide
  active := show eferLongMode &&& 0x500 = 0x500 by decide
  code := show (decodeGdtEntry gdtCode64 csSelector).longMode = 1 ∧
    (decodeGdtEntry gdtCode64 csSelector).db = 0 by decide
  masked := show rflagsInit &&& 0x200 = 0 by decide

section

variable {host : Host} {vsock : Bool} {config : VmConfig} {image : Image} {b : Booted}

theorem Readable.loaded (hread : Readable config image b) {seg : SegmentDescriptor}
    (hlimit : seg.selector.toNat + 8 ≤ 40)
    (hdecode : decodeGdtEntry (leAt Image.gdtPart.data seg.selector.toNat 8) seg.selector = seg) :
    Loaded b seg := by
  refine ⟨?_, slice Image.gdtPart.data seg.selector.toNat 8, ?_, hdecode⟩
  · show seg.selector.toNat + 7 ≤ (UInt16.ofNat (gdtEntryCount * gdtEntrySize - 1)).toNat
    rw [show (UInt16.ofNat (gdtEntryCount * gdtEntrySize - 1)).toNat = 39 from rfl]
    omega
  · refine hread Image.gdtPart (by simp [Image.parts, Image.fixedParts]) _ 8 ?_
    rw [length_gdt]
    exact hlimit

theorem Readable.segments (hread : Readable config image b) :
    ∀ seg ∈ [b.sregs.cs, b.sregs.ds, b.sregs.es, b.sregs.fs, b.sregs.gs, b.sregs.ss],
      Loaded b seg := by
  have hcode : Loaded b (decodeGdtEntry gdtCode64 csSelector) :=
    hread.loaded (by decide) (by decide +kernel)
  have hdata : Loaded b (decodeGdtEntry gdtData64 dsSelector) :=
    hread.loaded (by decide) (by decide +kernel)
  intro seg hseg
  simp only [List.mem_cons, List.not_mem_nil, or_false] at hseg
  rcases hseg with rfl | hseg
  · exact hcode
  · have hflat : seg = decodeGdtEntry gdtData64 dsSelector := by
      rcases hseg with rfl | rfl | rfl | rfl | rfl <;> rfl
    rw [hflat]
    exact hdata

theorem Readable.findsAcpi (hread : Readable config image b) (hcpus : 1 < config.cpus)
    (hmax : config.cpus.toNat ≤ 255) :
    FindsAcpi config.cpus.toNat b rsdpGpa buildRsdp buildXsdt (madt config.cpus.toNat) := by
  have htables : acpiTables config = [⟨rsdpGpa, buildRsdp⟩, ⟨xsdtGpa, buildXsdt⟩,
      ⟨madtGpa, madt config.cpus.toNat⟩] := if_pos hcpus
  have hmem : ∀ p ∈ acpiTables config, p ∈ image.parts config := by
    intro p hp
    simp [Image.parts, Image.fixedParts, hp]
  simp only [htables, List.forall_mem_cons] at hmem
  obtain ⟨hrsdpPart, hxsdtPart, hmadtPart, -⟩ := hmem
  have hxsdt : leAt buildRsdp 24 8 = xsdtGpa := by decide +kernel
  have hmadt : leAt buildXsdt 36 8 = madtGpa := by decide +kernel
  refine ⟨hread.all hrsdpPart length_buildRsdp, buildRsdp_valid, ?_, buildXsdt_valid, ?_,
    madt_valid hmax⟩
  · rw [hxsdt]
    exact hread.table hxsdtPart (by decide +kernel) (by decide +kernel)
  · have hlen := length_madt config.cpus.toNat
    have hheader : sdtHeaderLen ≤ (madt config.cpus.toNat).length := by
      rw [hlen]
      exact (show 36 ≤ 44 by decide).trans (Nat.le_add_right _ _)
    rw [hmadt]
    exact hread.table hmadtPart hheader ((leAt_madt_length hmax).trans hlen.symm)

/-- The first vCPU starts at the entry point in the header of the kernel. -/
theorem entryPoint_ok (h : boot host vsock config = .ok b)
    (himage : bootImage host vsock config = .ok image) :
    IsElf64 image.kernel ∧ b.regs.rip.toNat = (headerOf image.kernel).entry := by
  obtain ⟨_, -, h⟩ := bind_eq_ok h
  obtain ⟨⟨cr3, m₁⟩, -, h⟩ := bind_eq_ok h
  obtain ⟨m₂, -, h⟩ := bind_eq_ok h
  obtain ⟨m₃, -, h⟩ := bind_eq_ok h
  obtain ⟨_, -, h⟩ := bind_eq_ok h
  obtain ⟨kernel, hkernel, h⟩ := bind_eq_ok h
  obtain ⟨⟨loaded, m₄⟩, hload, h⟩ := bind_eq_ok h
  cases h
  obtain ⟨kernel', hkernel', himage⟩ := bind_eq_ok himage
  obtain ⟨initramfs, -, himage⟩ := bind_eq_ok himage
  obtain ⟨bp, -, himage⟩ := bind_eq_ok himage
  obtain ⟨cmdline, -, himage⟩ := bind_eq_ok himage
  cases himage
  rw [hkernel] at hkernel'
  cases hkernel'
  obtain ⟨hdr, st, hhdr, -, -, -, -, hentry, -⟩ := loadElf_eq_ok_iff.1 (mapError_eq_ok hload)
  obtain ⟨helf, rfl⟩ := parseElfHeader_eq_ok_iff.1 hhdr
  refine ⟨helf, ?_⟩
  show (UInt64.ofNat loaded.entryPoint).toNat = (headerOf kernel).entry
  rw [← hentry]
  exact UInt64.toNat_ofNat_of_lt' (leAt_lt kernel 24 8)

/-- **What the first vCPU finds.**  After a successful boot whose parts fit, the first vCPU is in
64-bit mode at the entry point of the kernel, and through its own page tables it reads every segment
of the kernel; RSI leads it to the zero page, and the zero page to the command line, the initramfs
and the ACPI tables; and its segment registers are what its GDT says. -/
theorem boot_entered (h : boot host vsock config = .ok b)
    (himage : bootImage host vsock config = .ok image) (hfits : Fits config image) :
    ∃ page, Entered config image b page := by
  have hread := readable_of_fits h himage hfits
  obtain ⟨_, _, _, himage', -, -, hin, -⟩ := boot_ok h
  rw [himage] at himage'
  cases himage'
  obtain ⟨_, hvalid, -⟩ := bind_eq_ok h
  obtain ⟨-, -, hcpus⟩ := validateConfig_ok hvalid
  have hentry := entryPoint_ok h himage
  obtain ⟨kernel, hkernel, himage⟩ := bind_eq_ok himage
  obtain ⟨initramfs, hinitramfs, himage⟩ := bind_eq_ok himage
  obtain ⟨bp, hbp, himage⟩ := bind_eq_ok himage
  obtain ⟨cmdline, htext, himage⟩ := bind_eq_ok himage
  cases himage
  obtain ⟨bp₀, bp₁, hbuild, hset, hfinal⟩ := initialBootParams_ok (mapError_eq_ok hbp)
  have hram : ramBytes config < 2 ^ 64 := by
    have := (ramBytes_bounds config).2
    omega
  have hrsdp : (if 1 < config.cpus then rsdpGpa else 0) < 2 ^ 64 := by
    split_ifs <;> decide
  obtain ⟨hheader, hmap, hcmd, hgpa, hsize, hacpi⟩ :=
    readZeroPage_built hram (show cmdlineGpa < 2 ^ 32 by decide) hrsdp hbuild hset
  rw [← hfinal] at hheader hmap hcmd hgpa hsize hacpi
  refine ⟨readZeroPage (finalBootParams config bp).asBytes, booted_longMode b, hentry, ?_, ?_,
    hheader, hmap, ?_, ?_, ?_, ?_, ?_, hread.segments, rfl, ?_⟩
  · intro ph hph
    refine hread.all (d := (ph.piece kernel).data) ?_ (hin ph hph).length_piece
    simp only [Image.parts, Image.segmentParts, List.mem_append, List.mem_map]
    exact Or.inr (Or.inl ⟨ph, hph, rfl⟩)
  · show (b.read bootParamsGpa 4096).map readZeroPage = _
    rw [hread.all (d := (finalBootParams config bp).asBytes) ?_ (BootParams.length_asBytes _)]
    · rfl
    · simp [Image.parts, Image.fixedParts, Image.bootParamsPart]
  · rw [hcmd]
    refine hread.all ?_ (length_cstring _)
    simp [Image.parts, Image.fixedParts, Image.cmdlinePart]
  · rintro data hdata
    have hdata : initramfs = some data := hdata
    subst hdata
    refine ⟨hsize, ?_⟩
    rw [hgpa, hsize]
    refine hread.all ?_ rfl
    simp [Image.parts, Image.initramfsPart, initramfsFields]
  · intro hnone
    have hnone : initramfs = none := hnone
    subst hnone
    exact hsize
  · intro hmore
    rw [if_pos hmore] at hacpi
    rw [hacpi]
    exact ⟨_, _, _, hread.findsAcpi hmore hcpus⟩
  · intro hone
    rw [hacpi, if_neg hone]
  · have htask : Loaded b (tssSegment (UInt64.ofNat tssGpa) (UInt32.ofNat (tssSize - 1))
        trSelector) := hread.loaded (by decide) (by decide +kernel)
    exact htask

end

/-! ### A small guest -/

/-- With 256 MiB the low areas end below 1 MiB, and the kernel and the initramfs are above. -/
theorem fits_testConfig (bp : BootParams) :
    Fits (testConfig 256) ⟨testKernel, some [1, 2, 3], bp, defaultCmdline⟩ := by
  have hgib : gibCount (testConfig 256) = 1 := by decide +kernel
  have hcpus : (testConfig 256).cpus.toNat = 2 := by decide +kernel
  have hlen : defaultCmdline.utf8ByteSize = 32 := by decide +kernel
  have hend : initramfsGpa (kernelEnd (segments testKernel)) = 0x101000 := by decide +kernel
  have hlow : ∀ x ∈ lowAreas (testConfig 256) defaultCmdline, x < 0x100000 := by
    intro x hx
    simp only [lowAreas, hgib, hcpus, hlen, Set.mem_union, Set.mem_ofPred_eq, Set.mem_Ico] at hx
    omega
  have hsegment : segmentRange ⟨1, 120, 0x100000, 2, 2⟩ = Set.Ico 0x100000 0x100002 := rfl
  have hinitramfs : initramfsRange testKernel [1, 2, 3] = Set.Ico 0x101000 0x101003 := by
    rw [initramfsRange, hend]
    rfl
  constructor
  · decide +kernel
  · intro _
    simp only [hlen]
    omega
  · simp only [segments_testKernel, List.mem_singleton, forall_eq, hsegment]
    exact (disjoint_of_cut 0x100000 hlow fun x hx => hx.1).symm
  · simp only [segments_testKernel]
    exact List.pairwise_singleton _ _
  · rintro data hdata
    cases hdata
    rw [hinitramfs]
    exact (disjoint_of_cut 0x100000 hlow fun x hx => le_trans (by decide) hx.1).symm
  · rintro data hdata
    cases hdata
    simp only [segments_testKernel, List.mem_singleton, forall_eq, hsegment, hinitramfs]
    exact disjoint_of_cut 0x101000 (fun x hx => lt_trans hx.2 (by decide)) fun x hx => hx.1

/-- A guest with two vCPUs, 256 MiB and an initramfs. -/
theorem boot_entered_small_guest : ∃ b image page, boot testHost false (testConfig 256) = .ok b ∧
    bootImage testHost false (testConfig 256) = .ok image ∧
      Entered (testConfig 256) image b page := by
  obtain ⟨bp, hbp⟩ :=
    exists_eq_ok (x := initialBootParams (testConfig 256) testKernel (some [1, 2, 3]))
      (by decide +kernel)
  obtain ⟨b, hb⟩ := testHost_boots (by decide +kernel) (by decide +kernel) hbp
  have himage := bootImage_testHost hbp
  obtain ⟨page, hpage⟩ := boot_entered hb himage (fits_testConfig _)
  exact ⟨b, _, page, hb, himage, hpage⟩

end Hitz.Vmm
