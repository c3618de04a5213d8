import Hitz.Devices.Vsock
import Hitz.Lib.Packed

/-!
# The header of a socket packet

The header is a packed record of ten little-endian numbers.  `to_bytes` copies them to their offsets
in a zeroed array (`toBytes_eq_copies`), and `from_bytes` reads them from these offsets.

`vsockHdr_codec`: the two are inverse to each other on 44 bytes.
-/

namespace Hitz.Devices

namespace VsockHdr

open Bytes Packed

/-- The fields in their order, with their widths. -/
def fields (h : VsockHdr) : List (ℕ × ℕ) :=
  [(8, h.srcCid.toNat), (8, h.dstCid.toNat), (4, h.srcPort.toNat), (4, h.dstPort.toNat),
    (4, h.len.toNat), (2, h.type.toNat), (2, h.op.toNat), (4, h.flags.toNat),
    (4, h.bufAlloc.toNat), (4, h.fwdCnt.toNat)]

theorem toBytes_eq_pack (h : VsockHdr) : h.toBytes = pack h.fields := by
  simp only [toBytes, fields, pack_cons, pack_nil, List.append_nil, List.append_assoc]

/-- The copies of `to_bytes`, at the offsets of the source. -/
theorem toBytes_eq_copies (h : VsockHdr) : h.toBytes =
    [⟨0, 8, h.srcCid.toNat⟩, ⟨8, 8, h.dstCid.toNat⟩, ⟨16, 4, h.srcPort.toNat⟩,
      ⟨20, 4, h.dstPort.toNat⟩, ⟨24, 4, h.len.toNat⟩, ⟨28, 2, h.type.toNat⟩,
      ⟨30, 2, h.op.toNat⟩, ⟨32, 4, h.flags.toNat⟩, ⟨36, 4, h.bufAlloc.toNat⟩,
      ⟨40, 4, h.fwdCnt.toNat⟩].foldl put (List.replicate vsockHdrSize 0) := by
  have hput := foldl_put h.fields []
  rw [← toBytes_eq_pack, length_toBytes, List.nil_append, List.nil_append] at hput
  exact hput.symm

/-- The header is in the first 44 bytes. -/
theorem fromBytes_append {p : List UInt8} (h : vsockHdrSize ≤ p.length) (t : List UInt8) :
    fromBytes (p ++ t) = fromBytes p := by
  have hfield : ∀ a w, a + w ≤ vsockHdrSize → field (p ++ t) a w = field p a w := by
    intro a w haw
    unfold field
    rw [List.drop_append_of_le_length (by omega), List.take_append_of_le_length]
    rw [List.length_drop]
    omega
  unfold fromBytes
  rw [if_neg (by rw [List.length_append]; omega), if_neg (by omega)]
  simp (disch := decide) only [hfield]

theorem fromBytes_eq_none {raw : List UInt8} (h : raw.length < vsockHdrSize) :
    fromBytes raw = none := if_pos h

theorem exists_fromBytes {raw : List UInt8} (h : vsockHdrSize ≤ raw.length) :
    ∃ hdr, fromBytes raw = some hdr := ⟨_, if_neg (by omega)⟩

/-- The numbers that `from_bytes` reads. -/
theorem fields_of_fromBytes {bytes : List UInt8} {h : VsockHdr} (hfrom : fromBytes bytes = some h) :
    h.fields = unpack bytes 0 [8, 8, 4, 4, 4, 2, 2, 4, 4, 4] := by
  have h16 : ∀ o, (UInt16.ofNat (field bytes o 2)).toNat = leAt bytes o 2 := fun o =>
    UInt16.toNat_ofNat_of_lt' (leAt_lt bytes o 2)
  have h32 : ∀ o, (UInt32.ofNat (field bytes o 4)).toNat = leAt bytes o 4 := fun o =>
    UInt32.toNat_ofNat_of_lt' (leAt_lt bytes o 4)
  have h64 : ∀ o, (UInt64.ofNat (field bytes o 8)).toNat = leAt bytes o 8 := fun o =>
    UInt64.toNat_ofNat_of_lt' (leAt_lt bytes o 8)
  rw [fromBytes] at hfrom
  split_ifs at hfrom
  rw [← Option.some.inj hfrom]
  simp only [fields, h16, h32, h64, unpack]

theorem fields_lt (h : VsockHdr) : ∀ f ∈ h.fields, f.2 < 256 ^ f.1 := by
  simp only [fields, List.forall_mem_cons]
  exact ⟨h.srcCid.toNat_lt, h.dstCid.toNat_lt, h.srcPort.toNat_lt, h.dstPort.toNat_lt,
    h.len.toNat_lt, h.type.toNat_lt, h.op.toNat_lt, h.flags.toNat_lt, h.bufAlloc.toNat_lt,
    h.fwdCnt.toNat_lt, by simp⟩

theorem fields_inj {h k : VsockHdr} (hfields : h.fields = k.fields) : h = k := by
  cases h
  cases k
  simp only [fields, List.cons.injEq, Prod.mk.injEq, UInt16.toNat_inj, UInt32.toNat_inj,
    UInt64.toNat_inj] at hfields
  simp [hfields]

theorem fromBytes_toBytes (h : VsockHdr) : fromBytes h.toBytes = some h := by
  obtain ⟨k, hk⟩ := exists_fromBytes (length_toBytes h).ge
  have hfields : k.fields = h.fields := by
    rw [fields_of_fromBytes hk, toBytes_eq_pack]
    exact unpack_pack h.fields_lt []
  rw [hk, fields_inj hfields]

theorem toBytes_of_fromBytes {bytes : List UInt8} {h : VsockHdr} (hfrom : fromBytes bytes = some h)
    (hlen : vsockHdrSize ≤ bytes.length) : h.toBytes = bytes.take vsockHdrSize := by
  rw [toBytes_eq_pack, fields_of_fromBytes hfrom]
  exact pack_unpack hlen

/-- **The codec of the header is a bijection** between headers and 44 bytes; fewer bytes are
refused. -/
theorem vsockHdr_codec :
    (∀ h : VsockHdr, fromBytes h.toBytes = some h) ∧
      ∀ b : List UInt8,
        (vsockHdrSize ≤ b.length →
          ∃ h, fromBytes b = some h ∧ h.toBytes = b.take vsockHdrSize) ∧
        (b.length < vsockHdrSize → fromBytes b = none) := by
  refine ⟨fromBytes_toBytes, fun b => ⟨fun hlen => ?_, fromBytes_eq_none⟩⟩
  obtain ⟨h, hh⟩ := exists_fromBytes hlen
  exact ⟨h, hh, toBytes_of_fromBytes hh hlen⟩

end VsockHdr

end Hitz.Devices
