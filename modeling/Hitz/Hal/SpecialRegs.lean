import Mathlib

/-!
# Special registers (`hitz-hal/src/types.rs`)

Control registers, segments and descriptor tables.  The source keeps the small fields of a segment
in bytes; `InWidths` says that they fit the bits they have in the processor.
-/

namespace Hitz.Hal

/-- A segment. -/
@[ext]
structure SegmentDescriptor where
  base : UInt64
  limit : UInt32
  selector : UInt16
  type : UInt8
  present : UInt8
  dpl : UInt8
  db : UInt8
  granularity : UInt8
  longMode : UInt8
  s : UInt8
  deriving DecidableEq, Repr

/-- The fields fit their bits. -/
structure SegmentDescriptor.InWidths (seg : SegmentDescriptor) : Prop where
  type : seg.type.toNat < 2 ^ 4
  present : seg.present.toNat < 2 ^ 1
  dpl : seg.dpl.toNat < 2 ^ 2
  db : seg.db.toNat < 2 ^ 1
  granularity : seg.granularity.toNat < 2 ^ 1
  longMode : seg.longMode.toNat < 2 ^ 1
  s : seg.s.toNat < 2 ^ 1

/-- GDTR or IDTR. -/
structure DescriptorTable where
  base : UInt64
  limit : UInt16
  deriving DecidableEq, Repr

/-- The special registers of a vCPU. -/
@[ext]
structure SpecialRegs where
  cr0 : UInt64
  cr3 : UInt64
  cr4 : UInt64
  efer : UInt64
  cs : SegmentDescriptor
  ds : SegmentDescriptor
  es : SegmentDescriptor
  fs : SegmentDescriptor
  gs : SegmentDescriptor
  ss : SegmentDescriptor
  tr : SegmentDescriptor
  ldt : SegmentDescriptor
  gdt : DescriptorTable
  idt : DescriptorTable
  deriving DecidableEq, Repr

/-- The segment registers. -/
def SpecialRegs.segments : List (SpecialRegs → SegmentDescriptor) :=
  [cs, ds, es, fs, gs, ss, tr, ldt]

end Hitz.Hal
