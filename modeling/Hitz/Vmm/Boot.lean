import Hitz.Boot.Acpi
import Hitz.Boot.Loader
import Hitz.Boot.Params
import Hitz.Net.Ethernet
import Hitz.Vmm.Config

/-!
# The boot pipeline (`hitz-vmm/src/vm.rs`, `hitz-vmm/src/boot_regs.rs`)

`boot` is `boot_and_run` up to the moment the first vCPU starts: guest memory is allocated and
filled, the command line and the GDT are written, and the kernel is loaded a second time for its
entry point.  Files, the host allocator and the hypervisor are outside (`Host`); the files do not
change during a boot.
-/

namespace Hitz.Vmm

open Api Boot Bytes Layout

/-! ### Guest memory as a writer -/

/-- The text of a memory error. -/
def MemError.display : MemError → String
  | .invalidSize gpa size =>
    "invalid size " ++ toString size ++ " bytes at GPA " ++ hex gpa
  | .allocFailed gpa size =>
    "allocation failed for " ++ toString size ++ " bytes at GPA " ++ hex gpa
  | .notMapped gpa len => "GPA " ++ hex gpa ++ " + " ++ toString len ++ " bytes is not mapped"
  | .outOfBounds gpa len =>
    "GPA " ++ hex gpa ++ " + " ++ toString len ++ " overflows region boundary"
  | .overlap gpa size =>
    "HAL error: failed to map guest memory at GPA " ++ hex gpa ++ ", size " ++ hex size ++
      ": region overlaps with an existing memory region"

instance : GuestMemWriter GuestMemory where
  writeBytes m gpa data := (m.writeSlice gpa data).mapError fun e => .writeFailed e.display
  writeZeroes m gpa len :=
    match m.writeZeroes gpa len with
    | (.ok (), m') => .ok m'
    | (.error e, _) => .error (.writeFailed e.display)

/-! ### GDT -/

/-- Guest physical address of the GDT. -/
def gdtGpa : ℕ := 0x500

def gdtNull : ℕ := 0
def gdtCode64 : ℕ := 0x00AF9B000000FFFF
def gdtData64 : ℕ := 0x00CF93000000FFFF
def gdtEntryCount : ℕ := 5
def gdtEntrySize : ℕ := 8

/-- Guest physical address of the TSS, right after the GDT. -/
def tssGpa : ℕ := gdtGpa + gdtEntryCount * gdtEntrySize

def tssSize : ℕ := 0x68

/-- `build_tss_descriptor`: the low and the high word. -/
def buildTssDescriptor (base limit : ℕ) : ℕ × ℕ :=
  let baseLo := base &&& 0xFFFF
  let baseMid := (base >>> 16) &&& 0xFF
  let baseHi := (base >>> 24) &&& 0xFF
  let baseUpper := base >>> 32
  let limitLo := limit &&& 0xFFFF
  let limitHi := (limit >>> 16) &&& 0xF
  (limitLo ||| (baseLo <<< 16) ||| (baseMid <<< 32) ||| (0x89 <<< 40) ||| (limitHi <<< 48) |||
    (baseHi <<< 56), baseUpper)

/-- The entries of the GDT. -/
def gdtEntries : List ℕ :=
  let tss := buildTssDescriptor tssGpa (tssSize - 1)
  [gdtNull, gdtCode64, gdtData64, tss.1, tss.2]

/-- `write_gdt`, from entry number `i` on. -/
def writeGdtEntries : ℕ → List ℕ → GuestMemory → Except MemError GuestMemory
  | _, [], mem => pure mem
  | i, entry :: entries, mem => do
    let mem ← mem.writeSlice (gdtGpa + i * gdtEntrySize) (leBytes 8 entry)
    writeGdtEntries (i + 1) entries mem

/-- `write_gdt`. -/
def writeGdt (mem : GuestMemory) : Except MemError GuestMemory := writeGdtEntries 0 gdtEntries mem

/-! ### Command line -/

def virtioMmioBase : ℕ := 0xD0000000
def virtioMmioSize : ℕ := 0x1000
def virtioIrqBase : ℕ := 5
def virtioIrqNet : ℕ := 6
def virtioIrqVsock : ℕ := 7

/-- The parameter that announces a device. -/
def deviceParam (base irq : ℕ) : String :=
  " virtio_mmio.device=" ++ hex virtioMmioSize ++ "@" ++ hex base ++ ":" ++ toString irq

/-- Four octets with dots. -/
def dotted (ip : Vector UInt8 4) : String :=
  toString ip[0] ++ "." ++ toString ip[1] ++ "." ++ toString ip[2] ++ "." ++ toString ip[3]

/-- The parameters for a network, if there is one. -/
def netParams : Option NetConfig → Except VmError String
  | none => pure ""
  | some net =>
    match Net.parseCidr net.guestIp with
    | .error e => throw (.config e)
    | .ok (guestIp, _) =>
      match Net.parseCidr net.hostIp with
      | .error e => throw (.config e)
      | .ok (gatewayIp, _) =>
        pure (deviceParam (virtioMmioBase + virtioMmioSize) virtioIrqNet ++ " ip=" ++
          dotted guestIp ++ "::" ++ dotted gatewayIp ++ ":255.255.255.0::eth0:off")

/-- The text that `build_kernel_cmdline` builds, without the final NUL. -/
def kernelCmdline (config : VmConfig) (vsock : Bool) : Except VmError String := do
  let net ← netParams config.net
  let vsockParam :=
    if vsock then deviceParam (virtioMmioBase + virtioMmioSize * 2) virtioIrqVsock else ""
  pure (config.effectiveCmdline ++ net ++ vsockParam)

/-- The bytes of a text with a final NUL. -/
def cstring (s : String) : List UInt8 := (s.push '\x00').toByteArray.data.toList

/-- `build_kernel_cmdline`. -/
def buildKernelCmdline (mem : GuestMemory) (config : VmConfig) (vsock : Bool) :
    Except VmError GuestMemory := do
  let cmdline ← kernelCmdline config vsock
  (mem.writeSlice cmdlineGpa (cstring cmdline)).mapError .mem

/-! ### Guest memory -/

/-- What a boot finds outside: which files exist, what they hold, whether the host has memory, and
whether the hypervisor makes a partition with this memory. -/
structure Host where
  fileExists : String → Bool
  read : String → Except String (List UInt8)
  virtualAlloc : ℕ → Option ℕ
  partition : VmConfig → GuestMemory → Except VmError Unit

/-- `fs::read`. -/
def Host.fsRead (host : Host) (path : String) : Except VmError (List UInt8) :=
  (host.read path).mapError .io

/-- RAM in bytes. -/
def ramBytes (config : VmConfig) : ℕ := config.ramMib.toNat * 1024 * 1024

/-- The GiB that the page tables map. -/
def gibCount (config : VmConfig) : ℕ := max ((config.ramMib.toNat + 1023) / 1024) 1

/-- Store pieces in guest memory. -/
def writeAll (mem : GuestMemory) (writes : List MemWrite) : Except MemError GuestMemory :=
  writes.foldlM (fun mem write => mem.writeSlice write.start write.data) mem

/-- The initramfs, if there is one, and the fields of the zero page that point to it. -/
def placeInitramfs (host : Host) (config : VmConfig) (kernelEnd : ℕ) (bp : BootParams)
    (mem : GuestMemory) : Except VmError (BootParams × GuestMemory) :=
  match config.initramfsPath with
  | none => pure (bp, mem)
  | some path => do
    let data ← host.fsRead path
    let (res, mem) ← (loadInitramfs data kernelEnd (ramBytes config) mem).mapError .boot
    let bp ← (setInitramfsParams bp res.gpa res.size).mapError .boot
    pure (bp, mem)

/-- The ACPI tables of a guest with more than one vCPU; the zero page is written again. -/
def placeAcpi (config : VmConfig) (bp : BootParams) (mem : GuestMemory) :
    Except VmError GuestMemory :=
  if 1 < config.cpus then do
    let mem ← (mem.writeSlice rsdpGpa buildRsdp).mapError .mem
    let mem ← (mem.writeSlice xsdtGpa buildXsdt).mapError .mem
    let madt ← (buildMadt config.cpus.toNat).mapError .boot
    let mem ← (mem.writeSlice madtGpa madt).mapError .mem
    (mem.writeSlice bootParamsGpa (setAcpiRsdp bp rsdpGpa).asBytes).mapError .mem
  else pure mem

/-- `setup_guest_memory`: the address for CR3 and the memory. -/
def setupGuestMemory (host : Host) (mem : GuestMemory) (config : VmConfig) :
    Except VmError (ℕ × GuestMemory) := do
  let mem ← (mem.addRegion host.virtualAlloc 0 (UInt64.ofNat (ramBytes config))).mapError .mem
  let (pml4, writes) ← (buildPageTables (gibCount config)).mapError .boot
  let mem ← (writeAll mem writes).mapError .mem
  let kernel ← host.fsRead config.kernelPath
  let (loaded, mem) ← (loadElf kernel mem).mapError .boot
  let bp ← (buildBootParams (ramBytes config) cmdlineGpa).mapError .boot
  let (bp, mem) ← placeInitramfs host config loaded.kernelEnd bp mem
  let mem ← (mem.writeSlice bootParamsGpa bp.asBytes).mapError .mem
  let mem ← placeAcpi config bp mem
  pure (pml4, mem)

/-- A guest that is ready: its memory, CR3 and the entry point of the first vCPU. -/
structure Booted where
  mem : GuestMemory
  cr3 : ℕ
  entryPoint : ℕ

/-- `boot_and_run` until the first vCPU starts. -/
def boot (host : Host) (vsock : Bool) (config : VmConfig) : Except VmError Booted := do
  validateConfig host.fileExists config
  let (pml4, mem) ← setupGuestMemory host {} config
  let mem ← buildKernelCmdline mem config vsock
  let mem ← (writeGdt mem).mapError .mem
  host.partition config mem
  let kernel ← host.fsRead config.kernelPath
  let (loaded, mem) ← (loadElf kernel mem).mapError .boot
  pure ⟨mem, pml4, loaded.entryPoint⟩

end Hitz.Vmm
