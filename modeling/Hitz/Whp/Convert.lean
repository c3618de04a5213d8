import Hitz.Hal.SpecialRegs
import Hitz.Lib.BitFields

/-!
# Special registers of the platform (`hitz-whp/src/convert.rs`)

The platform takes registers as an array of unions.  A segment has an attribute word with four
reserved bits in its middle.

* `RegisterValue`: the union, with what is known of it: a member that has just been written is read
  back, and the low half of `Reg128` is `Reg64`;
* `whpSegToHal_halSegToWhp`: the attribute word changes no segment with fields in their widths;
* `valuesToSpecialRegs_specialRegsToValues`: neither does the array.
-/

namespace Hitz.Whp

open BitFields Hal

/-- `WHV_X64_SEGMENT_REGISTER`. -/
@[ext]
structure SegmentRegister where
  base : UInt64
  limit : UInt32
  selector : UInt16
  attributes : UInt16
  deriving DecidableEq, Repr

/-- `WHV_X64_TABLE_REGISTER`. -/
@[ext]
structure TableRegister where
  pad : Fin 3 → UInt16
  limit : UInt16
  base : UInt64
  deriving DecidableEq

/-- `WHV_REGISTER_VALUE`, a union of 16 bytes, by the members that are used here. -/
structure RegisterValue (V : Type) where
  zeroed : V
  reg128 : (low64 high64 : UInt64) → V
  setSegment : V → SegmentRegister → V
  setTable : V → TableRegister → V
  reg64 : V → UInt64
  segment : V → SegmentRegister
  table : V → TableRegister
  reg64_reg128 : ∀ low64 high64, reg64 (reg128 low64 high64) = low64
  segment_setSegment : ∀ v seg, segment (setSegment v seg) = seg
  table_setTable : ∀ v t, table (setTable v t) = t

/-- `whp_seg_to_hal`. -/
def whpSegToHal (seg : SegmentRegister) : SegmentDescriptor :=
  let attrs := seg.attributes.toNat
  { base := seg.base
    limit := seg.limit
    selector := seg.selector
    type := UInt8.ofNat (attrs &&& 0xF)
    s := UInt8.ofNat ((attrs >>> 4) &&& 1)
    dpl := UInt8.ofNat ((attrs >>> 5) &&& 3)
    present := UInt8.ofNat ((attrs >>> 7) &&& 1)
    longMode := UInt8.ofNat ((attrs >>> 13) &&& 1)
    db := UInt8.ofNat ((attrs >>> 14) &&& 1)
    granularity := UInt8.ofNat ((attrs >>> 15) &&& 1) }

/-- The attribute word of `hal_seg_to_whp`. -/
def attributes (seg : SegmentDescriptor) : ℕ :=
  (seg.type.toNat &&& 0xF) ||| ((seg.s.toNat &&& 1) <<< 4) ||| ((seg.dpl.toNat &&& 3) <<< 5) |||
    ((seg.present.toNat &&& 1) <<< 7) ||| ((seg.longMode.toNat &&& 1) <<< 13) |||
    ((seg.db.toNat &&& 1) <<< 14) ||| ((seg.granularity.toNat &&& 1) <<< 15)

/-- `hal_seg_to_whp`. -/
def halSegToWhp (seg : SegmentDescriptor) : SegmentRegister where
  base := seg.base
  limit := seg.limit
  selector := seg.selector
  attributes := UInt16.ofNat (attributes seg)

/-- `whp_table_to_hal`. -/
def whpTableToHal (table : TableRegister) : DescriptorTable := ⟨table.base, table.limit⟩

/-- `hal_table_to_whp`. -/
def halTableToWhp (table : DescriptorTable) : TableRegister := ⟨fun _ => 0, table.limit, table.base⟩

namespace RegisterValue

variable {V : Type} (u : RegisterValue V)

/-- `reg64_val`. -/
def reg64Val (val : UInt64) : V := u.reg128 val 0

/-- `special_regs_to_values`. -/
def specialRegsToValues (sregs : SpecialRegs) : Vector V 14 :=
  ⟨#[u.reg64Val sregs.cr0, u.reg64Val sregs.cr3, u.reg64Val sregs.cr4, u.reg64Val sregs.efer,
    u.setSegment u.zeroed (halSegToWhp sregs.cs), u.setSegment u.zeroed (halSegToWhp sregs.ds),
    u.setSegment u.zeroed (halSegToWhp sregs.es), u.setSegment u.zeroed (halSegToWhp sregs.fs),
    u.setSegment u.zeroed (halSegToWhp sregs.gs), u.setSegment u.zeroed (halSegToWhp sregs.ss),
    u.setSegment u.zeroed (halSegToWhp sregs.tr), u.setSegment u.zeroed (halSegToWhp sregs.ldt),
    u.setTable u.zeroed (halTableToWhp sregs.gdt),
    u.setTable u.zeroed (halTableToWhp sregs.idt)], rfl⟩

/-- `values_to_special_regs`. -/
def valuesToSpecialRegs (v : Vector V 14) : SpecialRegs where
  cr0 := u.reg64 (v.get 0)
  cr3 := u.reg64 (v.get 1)
  cr4 := u.reg64 (v.get 2)
  efer := u.reg64 (v.get 3)
  cs := whpSegToHal (u.segment (v.get 4))
  ds := whpSegToHal (u.segment (v.get 5))
  es := whpSegToHal (u.segment (v.get 6))
  fs := whpSegToHal (u.segment (v.get 7))
  gs := whpSegToHal (u.segment (v.get 8))
  ss := whpSegToHal (u.segment (v.get 9))
  tr := whpSegToHal (u.segment (v.get 10))
  ldt := whpSegToHal (u.segment (v.get 11))
  gdt := whpTableToHal (u.table (v.get 12))
  idt := whpTableToHal (u.table (v.get 13))

end RegisterValue

/-! ### The attribute word -/

/-- The fields of the attribute word; five bits are unused. -/
def attributeFields (seg : SegmentDescriptor) : List (ℕ × ℕ) :=
  [(4, seg.type.toNat), (1, seg.s.toNat), (2, seg.dpl.toNat), (1, seg.present.toNat), (5, 0),
    (1, seg.longMode.toNat), (1, seg.db.toNat), (1, seg.granularity.toNat)]

theorem attributeFields_lt {seg : SegmentDescriptor} (h : seg.InWidths) :
    ∀ f ∈ attributeFields seg, f.2 < 2 ^ f.1 := by
  simp only [attributeFields, List.forall_mem_cons]
  exact ⟨h.type, h.s, h.dpl, h.present, by decide, h.longMode, h.db, h.granularity, by simp⟩

theorem attributes_eq {seg : SegmentDescriptor} (h : seg.InWidths) :
    attributes seg = join (attributeFields seg) := by
  have hmask : ∀ {x m} n, x < 2 ^ n → m = 2 ^ n - 1 → x &&& m = x := by
    rintro x m n hx rfl
    exact Nat.and_two_pow_sub_one_of_lt_two_pow hx
  rw [attributes, hmask (m := 0xF) 4 h.type rfl, hmask (m := 1) 1 h.s rfl,
    hmask (m := 3) 2 h.dpl rfl, hmask (m := 1) 1 h.present rfl, hmask (m := 1) 1 h.longMode rfl,
    hmask (m := 1) 1 h.db rfl, hmask (m := 1) 1 h.granularity rfl]
  simp only [attributeFields, join, Nat.shiftLeft_or_distrib, ← Nat.shiftLeft_add,
    Nat.zero_shiftLeft, Nat.zero_or, Nat.or_zero, Nat.or_assoc]

theorem fieldsOf_attributes {seg : SegmentDescriptor} (h : seg.InWidths) :
    fieldsOf (halSegToWhp seg).attributes.toNat 0 [4, 1, 2, 1, 5, 1, 1, 1] =
      attributeFields seg := by
  have hlt : attributes seg < 2 ^ 16 := by
    rw [attributes_eq h]
    exact join_lt (attributeFields_lt h)
  have hword : (halSegToWhp seg).attributes.toNat = join (attributeFields seg) := by
    rw [← attributes_eq h]
    exact UInt16.toNat_ofNat_of_lt' hlt
  rw [hword]
  exact fieldsOf_join (attributeFields_lt h)

/-- **A segment survives the attribute word.** -/
theorem whpSegToHal_halSegToWhp {seg : SegmentDescriptor} (h : seg.InWidths) :
    whpSegToHal (halSegToWhp seg) = seg := by
  have hfields := fieldsOf_attributes h
  simp only [fieldsOf, attributeFields, List.cons.injEq, Prod.mk.injEq, true_and, and_true]
    at hfields
  obtain ⟨htype, hs, hdpl, hpresent, -, hlong, hdb, hgranularity⟩ := hfields
  have hbyte : ∀ {x : ℕ} {b : UInt8}, x = b.toNat → UInt8.ofNat x = b := by
    rintro x b rfl
    exact UInt8.ofNat_toNat
  exact SegmentDescriptor.ext rfl rfl rfl (hbyte htype) (hbyte hpresent) (hbyte hdpl) (hbyte hdb)
    (hbyte hgranularity) (hbyte hlong) (hbyte hs)

/-! ### The array -/

namespace RegisterValue

variable {V : Type} (u : RegisterValue V)

/-- What a segment register holds after the trip. -/
theorem segment_trip {seg : SpecialRegs → SegmentDescriptor} (hseg : seg ∈ SpecialRegs.segments)
    (sregs : SpecialRegs) : seg (u.valuesToSpecialRegs (u.specialRegsToValues sregs)) =
      whpSegToHal (halSegToWhp (seg sregs)) := by
  simp only [SpecialRegs.segments, List.mem_cons, List.not_mem_nil, or_false] at hseg
  obtain rfl | rfl | rfl | rfl | rfl | rfl | rfl | rfl := hseg
  all_goals exact congrArg whpSegToHal (u.segment_setSegment _ _)

/-- **Special registers survive the array.** -/
theorem valuesToSpecialRegs_specialRegsToValues {sregs : SpecialRegs}
    (h : ∀ seg ∈ SpecialRegs.segments, (seg sregs).InWidths) :
    u.valuesToSpecialRegs (u.specialRegsToValues sregs) = sregs := by
  have hreg : ∀ val, u.reg64 (u.reg64Val val) = val := fun val => u.reg64_reg128 val 0
  have htable : ∀ t, whpTableToHal (u.table (u.setTable u.zeroed (halTableToWhp t))) = t := by
    intro t
    rw [u.table_setTable]
    rfl
  have hseg : ∀ seg ∈ SpecialRegs.segments,
      seg (u.valuesToSpecialRegs (u.specialRegsToValues sregs)) = seg sregs := by
    intro seg hmem
    rw [u.segment_trip hmem, whpSegToHal_halSegToWhp (h seg hmem)]
  simp only [SpecialRegs.segments, List.forall_mem_cons] at hseg
  obtain ⟨hcs, hds, hes, hfs, hgs, hss, htr, hldt, -⟩ := hseg
  exact SpecialRegs.ext (hreg _) (hreg _) (hreg _) (hreg _) hcs hds hes hfs hgs hss htr hldt
    (htable _) (htable _)

end RegisterValue

/-! ### The union in memory -/

/-- The fields of a word of 64 bits. -/
theorem fieldsOf_word {fs : List (ℕ × ℕ)} (h : ∀ f ∈ fs, f.2 < 2 ^ f.1)
    (hsum : (fs.map Prod.fst).sum = 64) :
    fieldsOf (UInt64.ofNat (join fs)).toNat 0 (fs.map Prod.fst) = fs := by
  have hlt : join fs < 2 ^ 64 := by
    rw [← hsum]
    exact join_lt h
  rw [UInt64.toNat_ofNat_of_lt' hlt, fieldsOf_join h]

/-- The upper word of a segment register. -/
def segmentWord (seg : SegmentRegister) : List (ℕ × ℕ) :=
  [(32, seg.limit.toNat), (16, seg.selector.toNat), (16, seg.attributes.toNat)]

/-- The lower word of a table register. -/
def tableWord (t : TableRegister) : List (ℕ × ℕ) :=
  [(16, (t.pad 0).toNat), (16, (t.pad 1).toNat), (16, (t.pad 2).toNat), (16, t.limit.toNat)]

theorem fieldsOf_segmentWord (seg : SegmentRegister) :
    fieldsOf (UInt64.ofNat (join (segmentWord seg))).toNat 0 [32, 16, 16] = segmentWord seg := by
  refine fieldsOf_word ?_ rfl
  simp only [segmentWord, List.forall_mem_cons]
  exact ⟨seg.limit.toNat_lt, seg.selector.toNat_lt, seg.attributes.toNat_lt, by simp⟩

theorem fieldsOf_tableWord (t : TableRegister) :
    fieldsOf (UInt64.ofNat (join (tableWord t))).toNat 0 [16, 16, 16, 16] = tableWord t := by
  refine fieldsOf_word ?_ rfl
  simp only [tableWord, List.forall_mem_cons]
  exact ⟨(t.pad 0).toNat_lt, (t.pad 1).toNat_lt, (t.pad 2).toNat_lt, t.limit.toNat_lt, by simp⟩

theorem ofNat_of_eq_toNat {x : ℕ} {a : UInt16} (h : x = a.toNat) : UInt16.ofNat x = a := by
  rw [h, UInt16.ofNat_toNat]

/-- The union as two words. -/
def twoWords : RegisterValue (UInt64 × UInt64) where
  zeroed := (0, 0)
  reg128 low64 high64 := (low64, high64)
  setSegment _ seg := (seg.base, UInt64.ofNat (join (segmentWord seg)))
  setTable _ t := (UInt64.ofNat (join (tableWord t)), t.base)
  reg64 v := v.1
  segment v := ⟨v.1, UInt32.ofNat (bits v.2.toNat 0 32), UInt16.ofNat (bits v.2.toNat 32 16),
    UInt16.ofNat (bits v.2.toNat 48 16)⟩
  table v := ⟨fun i => UInt16.ofNat (bits v.1.toNat (16 * i) 16),
    UInt16.ofNat (bits v.1.toNat 48 16), v.2⟩
  reg64_reg128 _ _ := rfl
  segment_setSegment _ seg := by
    have hfields := fieldsOf_segmentWord seg
    simp only [fieldsOf, segmentWord, List.cons.injEq, Prod.mk.injEq, true_and, and_true]
      at hfields
    obtain ⟨hlimit, hselector, hattributes⟩ := hfields
    refine SegmentRegister.ext rfl ?_ (ofNat_of_eq_toNat hselector) (ofNat_of_eq_toNat hattributes)
    exact (congrArg UInt32.ofNat hlimit).trans UInt32.ofNat_toNat
  table_setTable _ t := by
    have hfields := fieldsOf_tableWord t
    simp only [fieldsOf, tableWord, List.cons.injEq, Prod.mk.injEq, true_and, and_true]
      at hfields
    obtain ⟨hpad₀, hpad₁, hpad₂, hlimit⟩ := hfields
    refine TableRegister.ext (funext fun i => ?_) (ofNat_of_eq_toNat hlimit) rfl
    fin_cases i
    · exact ofNat_of_eq_toNat hpad₀
    · exact ofNat_of_eq_toNat hpad₁
    · exact ofNat_of_eq_toNat hpad₂

end Hitz.Whp
