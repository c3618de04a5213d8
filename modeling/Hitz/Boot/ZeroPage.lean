import Hitz.Boot.Params
import Hitz.Lib.Packed

/-!
# Reading the zero page

`readZeroPage` reads a page as the Linux boot protocol says, by offset; it knows nothing of the
structures that were written.  `readZeroPage_asBytes`: it finds what the builders were given, the
memory map is in order, and the other bytes of the page are zero.
-/

namespace Hitz.Boot

open Bytes Packed

/-! ### The protocol -/

/-- An entry of the memory map. -/
structure E820Region where
  addr : ℕ
  size : ℕ
  type : ℕ
  deriving DecidableEq, Repr

/-- What the kernel takes from the zero page. -/
structure ZeroPage where
  acpiRsdpAddr : ℕ
  e820Entries : ℕ
  bootFlag : ℕ
  header : ℕ
  typeOfLoader : ℕ
  loadflags : ℕ
  ramdiskImage : ℕ
  ramdiskSize : ℕ
  heapEndPtr : ℕ
  cmdLinePtr : ℕ
  cmdlineSize : ℕ
  e820Table : List E820Region
  deriving DecidableEq, Repr

/-- The entry at `offset`. -/
def readE820 (page : List UInt8) (offset : ℕ) : E820Region where
  addr := leAt page offset 8
  size := leAt page (offset + 8) 8
  type := leAt page (offset + 16) 4

/-- Read a page by the offsets of the boot protocol. -/
def readZeroPage (page : List UInt8) : ZeroPage where
  acpiRsdpAddr := leAt page 0x070 8
  e820Entries := leAt page 0x1E8 1
  bootFlag := leAt page 0x1FE 2
  header := leAt page 0x202 4
  typeOfLoader := leAt page 0x210 1
  loadflags := leAt page 0x211 1
  ramdiskImage := leAt page 0x218 4
  ramdiskSize := leAt page 0x21C 4
  heapEndPtr := leAt page 0x224 2
  cmdLinePtr := leAt page 0x228 4
  cmdlineSize := leAt page 0x238 4
  e820Table := (List.range (leAt page 0x1E8 1)).map fun i => readE820 page (0x2D0 + 20 * i)

/-- The offsets and widths that are read, with three entries in the memory map. -/
def readFields : List (ℕ × ℕ) := [
  (0x070, 8), (0x1E8, 1), (0x1FE, 2), (0x202, 4), (0x210, 1), (0x211, 1), (0x218, 4), (0x21C, 4),
  (0x224, 2), (0x228, 4), (0x238, 4), (0x2D0, 8), (0x2D8, 8), (0x2E0, 4), (0x2E4, 8), (0x2EC, 8),
  (0x2F4, 4), (0x2F8, 8), (0x300, 8), (0x308, 4)]

/-- The entries are sorted, have no address in common, and lie in RAM. -/
structure MapsRam (ramBytes : ℕ) (table : List E820Region) : Prop where
  sorted : table.Pairwise fun r s => r.addr < s.addr
  apart : table.Pairwise fun r s =>
    Disjoint (Set.Ico r.addr (r.addr + r.size)) (Set.Ico s.addr (s.addr + s.size))
  inRam : ∀ r ∈ table, r.addr + r.size ≤ ramBytes

/-! ### The fields of the structure -/

/-- The fields of an entry with their widths. -/
def BootE820Entry.fields (e : BootE820Entry) : List (ℕ × ℕ) :=
  [(8, e.addr.toNat), (8, e.size.toNat), (4, e.type.toNat)]

/-- The fields of the zero page and its padding, with their widths. -/
def BootParams.fields (bp : BootParams) : List (ℕ × ℕ) :=
  [(0x070, 0), (8, bp.acpiRsdpAddr.toNat), (0x170, 0), (1, bp.e820Entries.toNat), (8, 0)] ++
    bp.hdr.fields ++ [(0x2D0 - 0x23C, 0)] ++ bp.e820Table.toList.flatMap BootE820Entry.fields ++
    [(0x1000 - (0x2D0 + 128 * 20), 0)]

theorem pack_flatMap_fields (es : List BootE820Entry) :
    pack (es.flatMap BootE820Entry.fields) = es.flatMap BootE820Entry.asBytes := by
  induction es with
  | nil => rfl
  | cons e es ih =>
    rw [List.flatMap_cons, List.flatMap_cons, pack_append, ih]
    simp only [BootE820Entry.fields, BootE820Entry.asBytes, pack_cons, pack_nil, List.append_nil,
      List.append_assoc]

theorem BootParams.asBytes_eq_pack (bp : BootParams) : bp.asBytes = pack bp.fields := by
  rw [fields, pack_append, pack_append, pack_append, pack_append, pack_flatMap_fields]
  simp only [pack_cons, pack_nil, List.append_nil, leBytes_zero, List.append_assoc]
  simp only [asBytes, List.append_assoc]
  rfl

/-! ### What the builders leave -/

/-- The fields up to the third entry of the memory map, which has `highRam` bytes. -/
def pageFields (highRam cmdline gpa size rsdp : ℕ) : List (ℕ × ℕ) := [
  (0x070, 0), (8, rsdp), (0x170, 0), (1, 3), (8, 0),
  (1, 0), (2, 0), (4, 0), (2, 0), (2, 0), (2, 0), (2, 0xAA55), (2, 0), (4, 0x53726448), (2, 0),
  (4, 0), (2, 0), (2, 0), (1, 0xFF), (1, 0x81), (2, 0), (4, 0), (4, gpa), (4, size), (4, 0),
  (2, 0xFE00), (1, 0), (1, 0), (4, cmdline), (4, 0), (4, 0), (1, 0), (1, 0), (2, 0), (4, 255),
  (0x2D0 - 0x23C, 0), (8, 0), (8, 0x9FC00), (4, 1), (8, 0x9FC00), (8, 0x400), (4, 2),
  (8, 0x100000), (8, highRam), (4, 1)]

/-- The empty entries of the memory map, and the padding behind it. -/
def emptyFields : List (ℕ × ℕ) :=
  (List.replicate 125 ({} : BootE820Entry)).flatMap BootE820Entry.fields ++
    [(0x1000 - (0x2D0 + 128 * 20), 0)]

theorem eq_zero_of_mem_emptyFields {f : ℕ × ℕ} (h : f ∈ emptyFields) : f.2 = 0 := by
  rw [emptyFields, List.mem_append, List.mem_flatMap, List.mem_singleton] at h
  rcases h with ⟨e, he, hf⟩ | rfl
  · rw [List.eq_of_mem_replicate he] at hf
    have hall : ∀ g ∈ BootE820Entry.fields {}, g.2 = 0 := by decide
    exact hall f hf
  · rfl

/-- The memory map of the builder. -/
def e820Map (ramBytes : ℕ) : List E820Region :=
  [⟨0, 0x9FC00, 1⟩, ⟨0x9FC00, 0x400, 2⟩, ⟨0x100000, ramBytes - 0x100000, 1⟩]

theorem mapsRam_e820Map {ramBytes : ℕ} (h : 0x200000 ≤ ramBytes) :
    MapsRam ramBytes (e820Map ramBytes) := by
  constructor
  · simp [e820Map]
  · simp only [e820Map, List.pairwise_cons, List.mem_cons, List.not_mem_nil, or_false,
      forall_eq_or_imp, forall_eq, Set.Ico_disjoint_Ico, false_imp_iff, implies_true,
      List.Pairwise.nil, and_true]
    omega
  · simp only [e820Map, List.mem_cons, List.not_mem_nil, or_false, forall_eq_or_imp, forall_eq]
    omega

section Built

variable {ramBytes cmdline gpa size rsdp : ℕ} {bp bp' : BootParams}

theorem fields_of_ok (hram : ramBytes < 2 ^ 64) (hcmd : cmdline < 2 ^ 32) (hrsdp : rsdp < 2 ^ 64)
    (hbuild : buildBootParams ramBytes cmdline = .ok bp)
    (hset : setInitramfsParams bp gpa size = .ok bp') :
    (setAcpiRsdp bp' rsdp).fields =
      pageFields (ramBytes - 0x100000) cmdline gpa size rsdp ++ emptyFields := by
  unfold buildBootParams at hbuild
  split_ifs at hbuild with hsmall
  cases hbuild
  unfold setInitramfsParams at hset
  split_ifs at hset with hgpa hsize
  cases hset
  have hrsdp' : (UInt64.ofNat rsdp).toNat = rsdp := UInt64.toNat_ofNat_of_lt' hrsdp
  have hcmd' : (UInt32.ofNat cmdline).toNat = cmdline := UInt32.toNat_ofNat_of_lt' hcmd
  have hgpa' : (UInt32.ofNat gpa).toNat = gpa :=
    UInt32.toNat_ofNat_of_lt' (Nat.lt_succ_of_le (not_lt.1 hgpa))
  have hsize' : (UInt32.ofNat size).toNat = size :=
    UInt32.toNat_ofNat_of_lt' (Nat.lt_succ_of_le (not_lt.1 hsize))
  have hram' : (UInt64.ofNat (ramBytes - 0x100000)).toNat = ramBytes - 0x100000 :=
    UInt64.toNat_ofNat_of_lt' ((Nat.sub_le _ _).trans_lt hram)
  calc (setAcpiRsdp _ rsdp).fields
      = pageFields (UInt64.ofNat (ramBytes - 0x100000)).toNat (UInt32.ofNat cmdline).toNat
          (UInt32.ofNat gpa).toNat (UInt32.ofNat size).toNat (UInt64.ofNat rsdp).toNat ++
          emptyFields := rfl
    _ = pageFields (ramBytes - 0x100000) cmdline gpa size rsdp ++ emptyFields := by
        rw [hram', hcmd', hgpa', hsize', hrsdp']

theorem setInitramfsParams_lt (hset : setInitramfsParams bp gpa size = .ok bp') :
    gpa < 2 ^ 32 ∧ size < 2 ^ 32 := by
  unfold setInitramfsParams at hset
  split_ifs at hset with hgpa hsize
  omega

theorem le_of_buildBootParams (hbuild : buildBootParams ramBytes cmdline = .ok bp) :
    0x200000 ≤ ramBytes := by
  unfold buildBootParams at hbuild
  split_ifs at hbuild with hsmall
  exact not_lt.1 hsmall

/-- Field number `k` reads back. -/
theorem leAt_fields (highRam cmdline gpa size rsdp k : ℕ) {offset width value : ℕ}
    (h : (layout 0 (pageFields highRam cmdline gpa size rsdp))[k]? = some ⟨offset, width, value⟩)
    (hv : value < 256 ^ width) :
    leAt (pack (pageFields highRam cmdline gpa size rsdp ++ emptyFields)) offset width = value := by
  refine leAt_pack ?_ hv
  rw [layout_append]
  exact List.mem_append_left _ (List.mem_of_getElem? h)

/-- What is not read is zero. -/
theorem readFields_of_ne_zero (highRam cmdline gpa size rsdp : ℕ) :
    ∀ f ∈ layout 0 (pageFields highRam cmdline gpa size rsdp ++ emptyFields),
      f.value = 0 ∨ (f.offset, f.width) ∈ readFields := by
  intro f hf
  rw [layout_append, List.mem_append] at hf
  rcases hf with hf | hf
  · revert f
    simp [pageFields, layout, readFields]
  · exact Or.inl (eq_zero_of_mem_emptyFields (mem_of_mem_layout hf))

/-- **The zero page decodes back.**  Read by the offsets of the protocol, it has the addresses and
sizes the builders were given and the values the protocol asks for; the memory map is in order; and
all that is not read is zero. -/
theorem readZeroPage_asBytes (hram : ramBytes < 2 ^ 64) (hcmd : cmdline < 2 ^ 32)
    (hrsdp : rsdp < 2 ^ 64) (hbuild : buildBootParams ramBytes cmdline = .ok bp)
    (hset : setInitramfsParams bp gpa size = .ok bp') :
    readZeroPage (setAcpiRsdp bp' rsdp).asBytes = {
      acpiRsdpAddr := rsdp
      e820Entries := 3
      bootFlag := 0xAA55
      header := 0x53726448
      typeOfLoader := 0xFF
      loadflags := 0x81
      ramdiskImage := gpa
      ramdiskSize := size
      heapEndPtr := 0xFE00
      cmdLinePtr := cmdline
      cmdlineSize := 255
      e820Table := e820Map ramBytes } ∧
    MapsRam ramBytes (e820Map ramBytes) ∧
    ∀ x < 4096, (∀ f ∈ readFields, x ∉ Set.Ico f.1 (f.1 + f.2)) →
      (setAcpiRsdp bp' rsdp).asBytes[x]? = some 0 := by
  have hlow := le_of_buildBootParams hbuild
  obtain ⟨hgpa, hsize⟩ := setInitramfsParams_lt hset
  have hlen := (setAcpiRsdp bp' rsdp).length_asBytes
  rw [BootParams.asBytes_eq_pack, fields_of_ok hram hcmd hrsdp hbuild hset] at hlen ⊢
  refine ⟨?_, mapsRam_e820Map hlow, fun x hx hout => ?_⟩
  · have hhigh : ramBytes - 0x100000 < 256 ^ 8 := by omega
    have hread := leAt_fields (ramBytes - 0x100000) cmdline gpa size rsdp
    have hentries : leAt (pack (pageFields (ramBytes - 0x100000) cmdline gpa size rsdp ++
        emptyFields)) 0x1E8 1 = 3 := hread 3 rfl (by decide)
    rw [readZeroPage, ZeroPage.mk.injEq]
    refine ⟨hread 1 rfl hrsdp, hentries, hread 11 rfl (by decide),
      hread 13 rfl (by decide), hread 18 rfl (by decide), hread 19 rfl (by decide),
      hread 22 rfl hgpa, hread 23 rfl hsize, hread 25 rfl (by decide), hread 28 rfl hcmd,
      hread 34 rfl (by decide), ?_⟩
    rw [hentries]
    simp only [List.range_succ, List.range_zero, List.nil_append, List.map_cons, List.map_nil,
      List.cons_append, e820Map, List.cons.injEq, and_true, readE820, E820Region.mk.injEq]
    refine ⟨⟨hread 36 rfl (by decide), hread 37 rfl (by decide), hread 38 rfl (by decide)⟩,
      ⟨hread 39 rfl (by decide), hread 40 rfl (by decide), hread 41 rfl (by decide)⟩,
      hread 42 rfl (by decide), hread 43 rfl hhigh, hread 44 rfl (by decide)⟩
  · refine getElem?_pack_eq_zero (Nat.zero_le x) (by rwa [hlen, Nat.zero_add]) fun f hf => ?_
    rcases readFields_of_ne_zero _ _ _ _ _ f hf with hzero | hread
    · exact Or.inl hzero
    · exact Or.inr (hout _ hread)

end Built

/-- A guest with 128 MiB of RAM and an initramfs at 3 MiB. -/
theorem readZeroPage_small : ∃ bp bp', buildBootParams 0x8000000 0x20000 = .ok bp ∧
    setInitramfsParams bp 0x300000 8192 = .ok bp' ∧
    (readZeroPage (setAcpiRsdp bp' 0xE0000).asBytes).ramdiskImage = 0x300000 ∧
    (setAcpiRsdp bp' 0xE0000).asBytes[0x22C]? = some 0 := by
  obtain ⟨bp, hbuild⟩ : ∃ bp, buildBootParams 0x8000000 0x20000 = .ok bp := ⟨_, rfl⟩
  obtain ⟨bp', hset⟩ : ∃ bp', setInitramfsParams bp 0x300000 8192 = .ok bp' := ⟨_, rfl⟩
  have hpage := readZeroPage_asBytes (by decide) (by decide) (show 0xE0000 < 2 ^ 64 by decide)
    hbuild hset
  obtain ⟨hread, -, hzero⟩ := hpage
  refine ⟨bp, bp', hbuild, hset, by rw [hread], hzero 0x22C (by decide) ?_⟩
  simp [readFields]

end Hitz.Boot
