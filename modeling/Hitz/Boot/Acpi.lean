import Hitz.Boot.PageTables

/-!
# ACPI tables (`hitz-boot/src/acpi.rs`)

RSDP, XSDT and MADT, so that the kernel finds more than one vCPU.
-/

namespace Hitz.Boot

open Bytes

def rsdpGpa : ℕ := 0xE0000
def xsdtGpa : ℕ := 0xE1000
def madtGpa : ℕ := 0xE2000
def localApicAddress : ℕ := 0xFEE00000
def madtTypeLocalApic : ℕ := 0
def madtLapicEntryLen : ℕ := 8
def madtFlagsPcatCompat : ℕ := 1
def lapicFlagsEnabled : ℕ := 1
def maxCpus : ℕ := 255
def sdtHeaderLen : ℕ := 36

/-- A byte string literal. -/
def ascii (s : String) : List UInt8 := s.toList.map fun c => UInt8.ofNat c.toNat

def oemId : List UInt8 := ascii "HITZ  "
def oemTableId : List UInt8 := ascii "HITZVM  "
def oemRevision : ℕ := 1
def creatorId : List UInt8 := ascii "HITZ"
def creatorRevision : ℕ := 1

/-- `acpi_checksum`: the byte that makes the sum zero. -/
def acpiChecksum (data : List UInt8) : UInt8 := 0 - data.foldl (· + ·) 0

/-- Put the checksum of a table at position `i`. -/
def putChecksum (i : ℕ) (table : List UInt8) : List UInt8 :=
  (table.set i 0).set i (acpiChecksum (table.set i 0))

/-- The RSDP before its checksums. -/
def rsdpFields : List UInt8 :=
  let rsdp := List.replicate 36 0
  let rsdp := overwrite rsdp 0 (ascii "RSD PTR ")
  let rsdp := overwrite rsdp 9 oemId
  let rsdp := rsdp.set 15 2
  let rsdp := overwrite rsdp 20 (leBytes 4 36)
  overwrite rsdp 24 (leBytes 8 xsdtGpa)

/-- `build_rsdp`: the checksum of the first 20 bytes, then that of all 36. -/
def buildRsdp : List UInt8 :=
  let rsdp := rsdpFields.set 8 0
  let rsdp := rsdp.set 8 (acpiChecksum (rsdp.take 20))
  putChecksum 32 rsdp

/-- `build_sdt_header`. -/
def buildSdtHeader (signature : List UInt8) (totalLength : ℕ) : List UInt8 :=
  let hdr := List.replicate sdtHeaderLen 0
  let hdr := overwrite hdr 0 signature
  let hdr := overwrite hdr 4 (leBytes 4 totalLength)
  let hdr := hdr.set 8 1
  let hdr := overwrite hdr 10 oemId
  let hdr := overwrite hdr 16 oemTableId
  let hdr := overwrite hdr 24 (leBytes 4 oemRevision)
  let hdr := overwrite hdr 28 creatorId
  overwrite hdr 32 (leBytes 4 creatorRevision)

/-- `build_xsdt`: a header and one pointer, to the MADT. -/
def buildXsdt : List UInt8 :=
  putChecksum 9 (buildSdtHeader (ascii "XSDT") (sdtHeaderLen + 8) ++ leBytes 8 madtGpa)

/-- A Local APIC entry, as `MadtLapicEntry::to_bytes` gives it. -/
def madtLapicEntry (i : ℕ) : List UInt8 :=
  leBytes 1 madtTypeLocalApic ++ leBytes 1 madtLapicEntryLen ++ leBytes 1 i ++ leBytes 1 i ++
    leBytes 4 lapicFlagsEnabled

/-- The MADT of `build_madt`, for any number of processors. -/
def madt (cpuCount : ℕ) : List UInt8 :=
  putChecksum 9 (buildSdtHeader (ascii "APIC") (sdtHeaderLen + (4 + 4 + cpuCount * 8)) ++
    leBytes 4 localApicAddress ++ leBytes 4 madtFlagsPcatCompat ++
    (List.range cpuCount).flatMap madtLapicEntry)

/-- `build_madt`. -/
def buildMadt (cpuCount : ℕ) : Except BootError (List UInt8) :=
  if cpuCount = 0 then throw (.invalidBootParams "cpu_count must be at least 1")
  else if maxCpus < cpuCount then
    throw (.invalidBootParams ("cpu_count (" ++ toString cpuCount ++ ") exceeds maximum of " ++
      toString maxCpus))
  else pure (madt cpuCount)

theorem buildMadt_ok {cpuCount : ℕ} {table : List UInt8} (h : buildMadt cpuCount = .ok table) :
    table = madt cpuCount := by
  unfold buildMadt at h
  split_ifs at h
  exact (Except.ok.inj h).symm

@[simp] theorem length_putChecksum (i : ℕ) (table : List UInt8) :
    (putChecksum i table).length = table.length := by
  simp [putChecksum]

theorem length_buildRsdp : buildRsdp.length = 36 := by decide +kernel

theorem length_buildSdtHeader {signature : List UInt8} (h : signature.length = 4)
    (totalLength : ℕ) : (buildSdtHeader signature totalLength).length = 36 := by
  simp [buildSdtHeader, overwrite, sdtHeaderLen, h, oemId, oemTableId, creatorId, ascii]

theorem length_buildXsdt : buildXsdt.length = 44 := by
  simp [buildXsdt, length_buildSdtHeader, ascii]

theorem length_madt (cpuCount : ℕ) : (madt cpuCount).length = 44 + 8 * cpuCount := by
  have hentries : ((List.range cpuCount).flatMap madtLapicEntry).length = cpuCount * 8 := by
    simp [List.length_flatMap, madtLapicEntry]
  simp only [madt, length_putChecksum, List.length_append, length_leBytes, hentries]
  rw [length_buildSdtHeader (by simp [ascii])]
  omega

end Hitz.Boot
