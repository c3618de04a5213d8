import Hitz.Boot.PageTables

/-!
# The zero page (`hitz-boot/src/boot_params.rs`)

`BootParams` is a packed structure, so its bytes are its fields one after the other: the RSDP
address at `0x070`, the number of E820 entries at `0x1E8`, the setup header at `0x1F1` and the E820
table at `0x2D0`.
-/

namespace Hitz.Boot

open Bytes

/-- Guest physical address of the zero page. -/
def bootParamsGpa : ℕ := 0x7000

/-- Guest physical address of the kernel command line. -/
def cmdlineGpa : ℕ := 0x20000

/-- Normal usable RAM. -/
def e820Ram : UInt32 := 1

/-- Reserved memory. -/
def e820Reserved : UInt32 := 2

/-- An entry of the E820 memory map, 20 bytes. -/
structure BootE820Entry where
  addr : UInt64 := 0
  size : UInt64 := 0
  type : UInt32 := 0
  deriving DecidableEq, Repr

def BootE820Entry.asBytes (e : BootE820Entry) : List UInt8 :=
  leBytes 8 e.addr.toNat ++ leBytes 8 e.size.toNat ++ leBytes 4 e.type.toNat

/-- The setup header of the Linux boot protocol, in the order of its fields. -/
structure SetupHeader where
  setupSects : UInt8 := 0
  rootFlags : UInt16 := 0
  syssize : UInt32 := 0
  ramSize : UInt16 := 0
  vidMode : UInt16 := 0
  rootDev : UInt16 := 0
  bootFlag : UInt16 := 0
  jump : UInt16 := 0
  header : UInt32 := 0
  version : UInt16 := 0
  realmodeSwtch : UInt32 := 0
  startSysSeg : UInt16 := 0
  kernelVersion : UInt16 := 0
  typeOfLoader : UInt8 := 0
  loadflags : UInt8 := 0
  setupMoveSize : UInt16 := 0
  code32Start : UInt32 := 0
  ramdiskImage : UInt32 := 0
  ramdiskSize : UInt32 := 0
  bootsectKludge : UInt32 := 0
  heapEndPtr : UInt16 := 0
  extLoaderVer : UInt8 := 0
  extLoaderType : UInt8 := 0
  cmdLinePtr : UInt32 := 0
  initrdAddrMax : UInt32 := 0
  kernelAlignment : UInt32 := 0
  relocatableKernel : UInt8 := 0
  minAlignment : UInt8 := 0
  xloadflags : UInt16 := 0
  cmdlineSize : UInt32 := 0
  deriving DecidableEq, Repr

/-- The fields of the setup header with their widths in bytes. -/
def SetupHeader.fields (h : SetupHeader) : List (ℕ × ℕ) := [
  (1, h.setupSects.toNat), (2, h.rootFlags.toNat), (4, h.syssize.toNat), (2, h.ramSize.toNat),
  (2, h.vidMode.toNat), (2, h.rootDev.toNat), (2, h.bootFlag.toNat), (2, h.jump.toNat),
  (4, h.header.toNat), (2, h.version.toNat), (4, h.realmodeSwtch.toNat),
  (2, h.startSysSeg.toNat), (2, h.kernelVersion.toNat), (1, h.typeOfLoader.toNat),
  (1, h.loadflags.toNat), (2, h.setupMoveSize.toNat), (4, h.code32Start.toNat),
  (4, h.ramdiskImage.toNat), (4, h.ramdiskSize.toNat), (4, h.bootsectKludge.toNat),
  (2, h.heapEndPtr.toNat), (1, h.extLoaderVer.toNat), (1, h.extLoaderType.toNat),
  (4, h.cmdLinePtr.toNat), (4, h.initrdAddrMax.toNat), (4, h.kernelAlignment.toNat),
  (1, h.relocatableKernel.toNat), (1, h.minAlignment.toNat), (2, h.xloadflags.toNat),
  (4, h.cmdlineSize.toNat)]

def SetupHeader.asBytes (h : SetupHeader) : List UInt8 :=
  h.fields.flatMap fun f => leBytes f.1 f.2

/-- The fields of the zero page that are not padding. -/
structure BootParams where
  acpiRsdpAddr : UInt64 := 0
  e820Entries : UInt8 := 0
  hdr : SetupHeader := {}
  e820Table : Vector BootE820Entry 128 := Vector.replicate 128 {}

/-- `BootParams::as_bytes`. -/
def BootParams.asBytes (bp : BootParams) : List UInt8 :=
  List.replicate 0x070 0 ++ leBytes 8 bp.acpiRsdpAddr.toNat ++ List.replicate 0x170 0 ++
    leBytes 1 bp.e820Entries.toNat ++ List.replicate 8 0 ++ bp.hdr.asBytes ++
    List.replicate (0x2D0 - 0x23C) 0 ++ bp.e820Table.toList.flatMap BootE820Entry.asBytes ++
    List.replicate (0x1000 - (0x2D0 + 128 * 20)) 0

/-- `build_boot_params`. -/
def buildBootParams (ramBytes cmdlineGpa : ℕ) : Except BootError BootParams :=
  if ramBytes < 0x200000 then
    throw (.invalidBootParams ("ram_bytes (" ++ hex ramBytes ++ ") must be at least 2 MiB"))
  else pure {
    hdr := {
      bootFlag := 0xAA55
      header := 0x53726448
      typeOfLoader := 0xFF
      loadflags := 0x81
      heapEndPtr := 0xFE00
      cmdLinePtr := UInt32.ofNat cmdlineGpa
      cmdlineSize := 255 }
    e820Table := (((Vector.replicate 128 {}).set 0 { size := 0x9FC00, type := e820Ram }).set 1
      { addr := 0x9FC00, size := 0x400, type := e820Reserved }).set 2
      { addr := 0x100000, size := UInt64.ofNat (ramBytes - 0x100000), type := e820Ram }
    e820Entries := 3 }

/-- `set_initramfs_params`. -/
def setInitramfsParams (bp : BootParams) (gpa size : ℕ) : Except BootError BootParams :=
  if 0xFFFFFFFF < gpa then
    throw (.invalidBootParams ("initramfs GPA " ++ hex gpa ++ " exceeds 32-bit limit"))
  else if 0xFFFFFFFF < size then
    throw (.invalidBootParams ("initramfs size " ++ hex size ++ " exceeds 32-bit limit"))
  else pure { bp with hdr := { bp.hdr with
    ramdiskImage := UInt32.ofNat gpa
    ramdiskSize := UInt32.ofNat size } }

/-- `set_acpi_rsdp`. -/
def setAcpiRsdp (bp : BootParams) (rsdpGpa : ℕ) : BootParams :=
  { bp with acpiRsdpAddr := UInt64.ofNat rsdpGpa }

theorem SetupHeader.length_asBytes (h : SetupHeader) : h.asBytes.length = 75 := by
  simp [SetupHeader.asBytes, SetupHeader.fields]

theorem BootE820Entry.length_asBytes (e : BootE820Entry) : e.asBytes.length = 20 := by
  simp [BootE820Entry.asBytes]

/-- The zero page fills a page. -/
theorem BootParams.length_asBytes (bp : BootParams) : bp.asBytes.length = 4096 := by
  have htable : (bp.e820Table.toList.flatMap BootE820Entry.asBytes).length = 128 * 20 := by
    simp only [List.length_flatMap, BootE820Entry.length_asBytes, List.map_const',
      List.sum_replicate,
      Vector.length_toList, smul_eq_mul]
  simp only [BootParams.asBytes, List.length_append, List.length_replicate, length_leBytes,
    SetupHeader.length_asBytes, htable]

end Hitz.Boot
