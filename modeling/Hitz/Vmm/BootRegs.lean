import Hitz.Vmm.Boot
import Hitz.Whp.Convert

/-!
# Segments at boot (`hitz-vmm/src/boot_regs.rs`)

A raw GDT entry scatters base and limit over its 64 bits.  The VMM builds one for the TSS and
decodes those of the flat segments into the segment registers.

* `low_eq_join`: the fields of a TSS descriptor;
* `inWidths_decodeGdtEntry`: whatever the entry, the decoded fields fit their bits.

`segment_encodings_agree`: the encodings of a segment agree with each other.
-/

namespace Hitz.Vmm

open BitFields Hal Whp

/-- `decode_gdt_entry`. -/
def decodeGdtEntry (raw : ℕ) (selector : UInt16) : SegmentDescriptor :=
  let baseLow := (raw >>> 16) &&& 0xFFFF
  let baseMid := (raw >>> 32) &&& 0xFF
  let baseHigh := (raw >>> 56) &&& 0xFF
  let base := (baseHigh <<< 24) ||| (baseMid <<< 16) ||| baseLow
  let limitLow := raw &&& 0xFFFF
  let limitHigh := (raw >>> 48) &&& 0x0F
  let granularity := (raw >>> 55) &&& 1
  let limitRaw := (limitHigh <<< 16) ||| limitLow
  let limit := if granularity = 1 then (limitRaw <<< 12) ||| 0xFFF else limitRaw
  let access := (raw >>> 40) &&& 0xFF
  let flags := (raw >>> 52) &&& 0x0F
  { base := UInt64.ofNat base
    limit := UInt32.ofNat limit
    selector
    type := UInt8.ofNat (access &&& 0x0F)
    s := UInt8.ofNat ((access >>> 4) &&& 1)
    dpl := UInt8.ofNat ((access >>> 5) &&& 3)
    present := UInt8.ofNat ((access >>> 7) &&& 1)
    longMode := UInt8.ofNat ((flags >>> 1) &&& 1)
    db := UInt8.ofNat ((flags >>> 2) &&& 1)
    granularity := UInt8.ofNat granularity }

/-- A 64-bit TSS that is present, counted in bytes. -/
def tssSegment (base : UInt64) (limit : UInt32) (selector : UInt16) : SegmentDescriptor where
  base
  limit
  selector
  type := 9
  s := 0
  dpl := 0
  present := 1
  longMode := 0
  db := 0
  granularity := 0

/-- CR0: PE, MP, ET, NE, WP, AM and PG. -/
def cr0LongMode : UInt64 := 0x80050033

/-- CR4: PAE, OSFXSR and OSXMMEXCPT. -/
def cr4LongMode : UInt64 := 0x620

/-- EFER: LME and LMA. -/
def eferLongMode : UInt64 := 0x500

def csSelector : UInt16 := 0x08
def dsSelector : UInt16 := 0x10
def trSelector : UInt16 := 0x18

/-- `null_segment`. -/
def nullSegment (selector : UInt16) : SegmentDescriptor :=
  ⟨0, 0, selector, 0, 0, 0, 0, 0, 0, 0⟩

/-- The special registers of `configure_sregs`.  The TSS is loaded, which makes its type busy. -/
def configureSregs (pml4Gpa : UInt64) : SpecialRegs where
  cr0 := cr0LongMode
  cr3 := pml4Gpa
  cr4 := cr4LongMode
  efer := eferLongMode
  cs := decodeGdtEntry gdtCode64 csSelector
  ds := decodeGdtEntry gdtData64 dsSelector
  es := decodeGdtEntry gdtData64 dsSelector
  fs := decodeGdtEntry gdtData64 dsSelector
  gs := decodeGdtEntry gdtData64 dsSelector
  ss := decodeGdtEntry gdtData64 dsSelector
  tr :=
    { tssSegment (UInt64.ofNat tssGpa) (UInt32.ofNat (tssSize - 1)) trSelector with type := 0xB }
  ldt := nullSegment 0
  gdt := ⟨UInt64.ofNat gdtGpa, UInt16.ofNat (gdtEntryCount * gdtEntrySize - 1)⟩
  idt := ⟨0, 0xFFFF⟩

/-! ### The TSS descriptor -/

/-- The fields of the low word. -/
def tssFields (base limit : ℕ) : List (ℕ × ℕ) :=
  [(16, bits limit 0 16), (16, bits base 0 16), (8, bits base 16 8), (8, 0x89),
    (4, bits limit 16 4), (4, 0), (8, bits base 24 8)]

theorem tssFields_lt (base limit : ℕ) : ∀ f ∈ tssFields base limit, f.2 < 2 ^ f.1 := by
  simp only [tssFields, List.forall_mem_cons]
  exact ⟨bits_lt .., bits_lt .., bits_lt .., by decide, bits_lt .., by decide, bits_lt .., by simp⟩

theorem low_eq_join (base limit : ℕ) :
    (buildTssDescriptor base limit).1 = join (tssFields base limit) := by
  simp only [buildTssDescriptor, tssFields, bits, join, Nat.shiftLeft_or_distrib,
    ← Nat.shiftLeft_add, Nat.zero_shiftLeft, Nat.zero_or, Nat.or_zero, Nat.or_assoc,
    Nat.shiftRight_zero]
  rfl

theorem fieldsOf_low (base limit : ℕ) :
    fieldsOf (buildTssDescriptor base limit).1 0 [16, 16, 8, 8, 4, 4, 8] =
      tssFields base limit := by
  rw [low_eq_join]
  exact fieldsOf_join (tssFields_lt base limit)

/-- The parts of a base of 32 bits, as `decode_gdt_entry` puts them together. -/
theorem join_base (base : ℕ) : (bits base 24 8 <<< 24) ||| (bits base 16 8 <<< 16) |||
    bits base 0 16 = base % 2 ^ 32 := by
  have hjoin : join (fieldsOf base 0 [16, 8, 8]) = bits base 0 32 := join_fieldsOf base 0 [16, 8, 8]
  rw [bits_eq base 0 32, pow_zero, Nat.div_one] at hjoin
  rw [← hjoin]
  simp only [fieldsOf, join, Nat.shiftLeft_or_distrib, ← Nat.shiftLeft_add, Nat.zero_shiftLeft,
    Nat.or_zero]
  rw [Nat.or_comm, Nat.or_comm (bits base 24 8 <<< 24)]

/-- The parts of a limit of 20 bits. -/
theorem join_limit {limit : ℕ} (h : limit < 2 ^ 20) :
    (bits limit 16 4 <<< 16) ||| bits limit 0 16 = limit := by
  have hjoin : join (fieldsOf limit 0 [16, 4]) = bits limit 0 20 := join_fieldsOf limit 0 [16, 4]
  rw [bits_of_lt h] at hjoin
  conv_rhs => rw [← hjoin]
  simp only [fieldsOf, join, Nat.zero_shiftLeft, Nat.or_zero]
  exact Nat.or_comm _ _

/-- **The low word of a TSS descriptor decodes to the TSS.** -/
theorem decodeGdtEntry_low (base : UInt64) {limit : ℕ} (hlimit : limit < 2 ^ 20)
    (selector : UInt16) :
    decodeGdtEntry (buildTssDescriptor base.toNat limit).1 selector =
      tssSegment (UInt64.ofNat (base.toNat % 2 ^ 32)) (UInt32.ofNat limit) selector := by
  have hfields := fieldsOf_low base.toNat limit
  generalize (buildTssDescriptor base.toNat limit).1 = low at hfields ⊢
  simp only [fieldsOf, tssFields, List.cons.injEq, Prod.mk.injEq, true_and, and_true] at hfields
  obtain ⟨hlimitLow, hbaseLow, hbaseMid, haccess, hlimitHigh, hflags, hbaseHigh⟩ := hfields
  have hbase : (bits low 56 8 <<< 24) ||| (bits low 32 8 <<< 16) ||| bits low 16 16 =
      base.toNat % 2 ^ 32 := by
    rw [hbaseHigh, hbaseMid, hbaseLow, join_base]
  have hraw : (bits low 48 4 <<< 16) ||| bits low 0 16 = limit := by
    rw [hlimitHigh, hlimitLow, join_limit hlimit]
  have hgranularity : bits low 55 1 = 0 := by
    have hbit : bits (bits low 52 4) 3 1 = bits low 55 1 := bits_bits (by decide)
    rw [← hbit, hflags]
    rfl
  have hcount : (if bits low 55 1 = 1 then
      (((bits low 48 4 <<< 16) ||| bits low 0 16) <<< 12) ||| 0xFFF
    else (bits low 48 4 <<< 16) ||| bits low 0 16) = limit := by
    rw [hgranularity, if_neg (by decide), hraw]
  have hbyte : ∀ {x y : ℕ} (f : ℕ → ℕ), x = y → UInt8.ofNat (f x) = UInt8.ofNat (f y) := by
    rintro x y f rfl
    rfl
  exact SegmentDescriptor.ext (congrArg UInt64.ofNat hbase) (congrArg UInt32.ofNat hcount) rfl
    (hbyte (· &&& 0x0F) haccess) (hbyte (fun a => (a >>> 7) &&& 1) haccess)
    (hbyte (fun a => (a >>> 5) &&& 3) haccess) (hbyte (fun a => (a >>> 2) &&& 1) hflags)
    (hbyte id hgranularity) (hbyte (fun a => (a >>> 1) &&& 1) hflags)
    (hbyte (fun a => (a >>> 4) &&& 1) haccess)

/-! ### Any entry -/

theorem inWidths_decodeGdtEntry (raw : ℕ) (selector : UInt16) :
    (decodeGdtEntry raw selector).InWidths := by
  have hmask : ∀ {x m n : ℕ}, m < n → (UInt8.ofNat (x &&& m)).toNat < n := by
    intro x m n hmn
    rw [UInt8.toNat_ofNat']
    exact ((Nat.mod_le _ _).trans Nat.and_le_right).trans_lt hmn
  exact
    { type := hmask (by decide)
      present := hmask (by decide)
      dpl := hmask (by decide)
      db := hmask (by decide)
      granularity := hmask (by decide)
      longMode := hmask (by decide)
      s := hmask (by decide) }

/-- The special registers at boot reach the platform unchanged. -/
theorem configureSregs_trip {V : Type} (u : RegisterValue V) (pml4Gpa : UInt64) :
    u.valuesToSpecialRegs (u.specialRegsToValues (configureSregs pml4Gpa)) =
      configureSregs pml4Gpa := by
  have hdecoded := inWidths_decodeGdtEntry
  have htr : (configureSregs pml4Gpa).tr.InWidths := by
    constructor <;> exact of_decide_eq_true rfl
  have hldt : (configureSregs pml4Gpa).ldt.InWidths := by
    constructor <;> exact of_decide_eq_true rfl
  refine u.valuesToSpecialRegs_specialRegsToValues ?_
  simp only [SpecialRegs.segments, List.forall_mem_cons]
  exact ⟨hdecoded _ _, hdecoded _ _, hdecoded _ _, hdecoded _ _, hdecoded _ _, hdecoded _ _, htr,
    hldt, by simp⟩

/-- **The encodings of a segment agree**: the TSS descriptor with its decoding, and both with the
registers of the platform. -/
theorem segment_encodings_agree {V : Type} (u : RegisterValue V) (base : UInt64) {limit : ℕ}
    (hlimit : limit < 2 ^ 20) (selector : UInt16) :
    decodeGdtEntry (buildTssDescriptor base.toNat limit).1 selector =
        tssSegment (UInt64.ofNat (base.toNat % 2 ^ 32)) (UInt32.ofNat limit) selector ∧
      (buildTssDescriptor base.toNat limit).2 = base.toNat / 2 ^ 32 ∧
      (∀ seg : SegmentDescriptor, seg.InWidths → whpSegToHal (halSegToWhp seg) = seg) ∧
      ∀ seg ∈ SpecialRegs.segments, ∀ (sregs : SpecialRegs) (raw : UInt64) (selector : UInt16),
        seg sregs = decodeGdtEntry raw.toNat selector →
          seg (u.valuesToSpecialRegs (u.specialRegsToValues sregs)) =
            decodeGdtEntry raw.toNat selector := by
  refine ⟨decodeGdtEntry_low base hlimit selector, Nat.shiftRight_eq_div_pow _ _,
    fun seg => whpSegToHal_halSegToWhp, fun seg hseg sregs raw selector heq => ?_⟩
  rw [u.segment_trip hseg, heq, whpSegToHal_halSegToWhp (inWidths_decodeGdtEntry _ _)]

/-- The TSS at boot, and the union as it is in memory. -/
theorem segment_encodings_at_boot :
    decodeGdtEntry (buildTssDescriptor 0x528 0x67).1 0x18 = tssSegment 0x528 0x67 0x18 ∧
      ∀ (sregs : SpecialRegs) (raw : UInt64), sregs.tr = decodeGdtEntry raw.toNat 0x18 →
        (twoWords.valuesToSpecialRegs (twoWords.specialRegsToValues sregs)).tr =
          decodeGdtEntry raw.toNat 0x18 := by
  obtain ⟨htss, -, -, htrip⟩ :=
    segment_encodings_agree twoWords 0x528 (by decide : 0x67 < 2 ^ 20) 0x18
  exact ⟨htss, fun sregs raw => htrip SpecialRegs.tr (by simp [SpecialRegs.segments]) sregs raw _⟩

end Hitz.Vmm
