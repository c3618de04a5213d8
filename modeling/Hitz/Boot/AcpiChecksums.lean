import Hitz.Boot.Acpi
import Hitz.Lib.Checksum
import Hitz.Lib.Packed

/-!
# The checksums of the ACPI tables

The guest adds up the bytes of each table and ignores the table unless the sum is zero.

* `RsdpValid`: both sums of the RSDP are zero;
* `MadtValid`: the MADT has the length that it says, a zero sum, and an enabled entry for each
  processor.

`acpi_checksums_valid` puts them together.
-/

namespace Hitz.Boot

open Bytes Checksum Packed

/-- The legacy checksum covers 20 bytes, the extended one all of them. -/
structure RsdpValid (rsdp : List UInt8) : Prop where
  legacy : Valid (rsdp.take 20)
  extended : Valid rsdp

/-- The MADT of `cpuCount` processors: an enabled Local APIC for each, in order of their ids. -/
structure MadtValid (cpuCount : ℕ) (table : List UInt8) : Prop where
  length : leAt table 4 4 = table.length
  sum : Valid table
  count : table.length = 44 + 8 * cpuCount
  entries : ∀ i < cpuCount, ∃ id : UInt8, id.toNat = i ∧
    slice table (44 + 8 * i) 8 = [0, 8, id, id, 1, 0, 0, 0]

theorem valid_putChecksum {i : ℕ} {table : List UInt8} (h : i < table.length) :
    Valid (putChecksum i table) :=
  valid_set (List.getElem?_set_self h)

theorem slice_putChecksum {i o n : ℕ} (h : i < o ∨ o + n ≤ i) (table : List UInt8) :
    slice (putChecksum i table) o n = slice table o n := by
  rw [putChecksum, slice_set h, slice_set h]

theorem buildXsdt_valid : Valid buildXsdt := valid_putChecksum (by decide)

/-- The second checksum stands behind the bytes that the first one covers. -/
theorem buildRsdp_valid : RsdpValid buildRsdp := by
  have hzero : (rsdpFields.set 8 0)[8]? = some 0 := by decide
  refine ⟨?_, valid_putChecksum (by decide)⟩
  rw [buildRsdp, putChecksum, List.take_set_of_le (by decide), List.take_set_of_le (by decide)]
  exact valid_take_set hzero (by decide)

/-! ### The MADT -/

/-- What follows the length in a header. -/
def sdtHeaderRest : List UInt8 :=
  [1, 0] ++ oemId ++ oemTableId ++ leBytes 4 oemRevision ++ creatorId ++ leBytes 4 creatorRevision

theorem buildSdtHeader_eq {signature : List UInt8} (h : signature.length = 4) (totalLength : ℕ) :
    buildSdtHeader signature totalLength =
      signature ++ (leBytes 4 totalLength ++ sdtHeaderRest) := by
  obtain ⟨a, b, c, d, rfl⟩ := List.length_eq_four.1 h
  simp [buildSdtHeader, overwrite, leBytes, sdtHeaderLen, sdtHeaderRest, oemId, oemTableId,
    creatorId, ascii, oemRevision, creatorRevision]

/-- The parts of the MADT before its checksum. -/
def madtParts (cpuCount : ℕ) : List (List UInt8) :=
  [ascii "APIC", leBytes 4 (44 + 8 * cpuCount), sdtHeaderRest, leBytes 4 localApicAddress,
    leBytes 4 madtFlagsPcatCompat] ++ (List.range cpuCount).map madtLapicEntry

theorem madt_eq (cpuCount : ℕ) : madt cpuCount = putChecksum 9 (madtParts cpuCount).flatten := by
  have hlength : sdtHeaderLen + (4 + 4 + cpuCount * 8) = 44 + 8 * cpuCount := by
    rw [sdtHeaderLen]
    omega
  rw [madt, madtParts, hlength, buildSdtHeader_eq (by decide), List.flatten_append,
    ← List.flatMap_def]
  simp only [List.flatten_cons, List.flatten_nil, List.append_assoc, List.append_nil]

theorem leAt_madt_length {cpuCount : ℕ} (h : cpuCount ≤ 255) :
    leAt (madt cpuCount) 4 4 = 44 + 8 * cpuCount := by
  have hslice : slice (madtParts cpuCount).flatten 4 4 = leBytes 4 (44 + 8 * cpuCount) :=
    slice_flatten (madtParts cpuCount) (k := 1) rfl rfl
  rw [leAt, madt_eq, slice_putChecksum (by decide), hslice, leNat_leBytes]
  exact Nat.mod_eq_of_lt (by omega)

theorem slice_madt_entry {cpuCount i : ℕ} (hi : i < cpuCount) :
    slice (madt cpuCount) (44 + 8 * i) 8 = madtLapicEntry i := by
  have hget : (madtParts cpuCount)[5 + i]? = some (madtLapicEntry i) := by
    rw [madtParts, List.getElem?_append_right (by simp), List.getElem?_map]
    simp [hi]
  have hlen : ∀ f ∈ (List.range cpuCount).map madtLapicEntry, f.length = 8 := by
    simp [madtLapicEntry]
  have hstart : start (madtParts cpuCount) (5 + i) = 44 + 8 * i :=
    start_append hlen (by rw [List.length_map, List.length_range]; exact hi.le)
  rw [madt_eq, slice_putChecksum (Or.inl (by omega))]
  exact slice_flatten (madtParts cpuCount) hget hstart

theorem madtLapicEntry_eq {i : ℕ} (h : i ≤ 255) :
    ∃ id : UInt8, id.toNat = i ∧ madtLapicEntry i = [0, 8, id, id, 1, 0, 0, 0] :=
  ⟨UInt8.ofNat i, by rw [UInt8.toNat_ofNat', Nat.mod_eq_of_lt (by omega)], rfl⟩

theorem madt_valid {cpuCount : ℕ} (h : cpuCount ≤ 255) : MadtValid cpuCount (madt cpuCount) where
  length := by rw [leAt_madt_length h, length_madt]
  sum := by
    rw [madt_eq]
    refine valid_putChecksum ?_
    have hlen := length_madt cpuCount
    rw [madt_eq, length_putChecksum] at hlen
    omega
  count := length_madt cpuCount
  entries i hi := by
    rw [slice_madt_entry hi]
    exact madtLapicEntry_eq (by omega)

theorem buildMadt_valid {cpuCount : ℕ} {table : List UInt8} (h : buildMadt cpuCount = .ok table) :
    MadtValid cpuCount table := by
  have hcount : cpuCount ≤ 255 := by
    unfold buildMadt at h
    split_ifs at h with hzero hmax
    exact Nat.le_of_not_lt hmax
  rw [buildMadt_ok h]
  exact madt_valid hcount

/-- **The checksums of the ACPI tables validate.** -/
theorem acpi_checksums_valid {t : List UInt8} {i cpuCount : ℕ} {table : List UInt8}
    (hzero : t[i]? = some 0) (hmadt : buildMadt cpuCount = .ok table) :
    Valid (t.set i (acpiChecksum t)) ∧ MadtValid cpuCount table ∧ RsdpValid buildRsdp :=
  ⟨valid_set hzero, buildMadt_valid hmadt, buildRsdp_valid⟩

/-- A sum of five, and the table of two processors. -/
theorem acpi_checksums_of_two :
    Valid [5, 251] ∧ MadtValid 2 (madt 2) ∧ RsdpValid buildRsdp :=
  acpi_checksums_valid (t := [5, 0]) (i := 1) rfl rfl

end Hitz.Boot
