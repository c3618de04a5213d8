import Hitz.Devices.MmioBus
import Hitz.Net.WintunIo
import Hitz.Vmm.BootProgress

/-!
# Setting up the devices (`hitz-vmm/src/vm.rs`, `setup_devices`)

The block, network and vsock devices have fixed slots in a window that starts at `0xD0000000`, in
the middle of what a guest with more than 3328 MiB has as RAM.

* `setupDevices` follows the source; disk files, the network driver and random numbers are outside;
* `setupDevices_ok`: the slots it registers and what it sets the host's adapter to;
* `RamClear`: RAM and the reported memory map leave the devices alone.
-/

namespace Hitz.Vmm

open Api Boot Devices Intervals

/-- What sits behind a virtio transport. -/
inductive VirtioDevice
  | block (path : String)
  | net (mac : Vector UInt8 6)
  | vsock (guestCid : UInt32)
  deriving DecidableEq, Repr

/-- `VirtioMmioTransport`: the device and its interrupt. -/
structure VirtioTransport where
  device : VirtioDevice
  irq : UInt8
  deriving DecidableEq, Repr

/-- How the set-up ends early. -/
inductive SetupAbort
  | panic (p : Panic)
  | error (e : VmError)
  deriving DecidableEq, Repr

/-- What the set-up finds outside: whether a disk image opens, a random MAC address, and the
network driver. -/
structure DeviceHost where
  openDisk : String → Except String Unit
  randomMac : Vector UInt8 6
  wintun : Net.Wintun

/-- Slot number `i` of the device window. -/
def virtioSlot (i : ℕ) (device : VirtioDevice) (irq : ℕ) : MmioSlot VirtioTransport where
  base := UInt64.ofNat (virtioMmioBase + virtioMmioSize * i)
  size := UInt64.ofNat virtioMmioSize
  device := ⟨device, UInt8.ofNat irq⟩

/-- `mmio_bus.register` of a slot. -/
def registerSlot (checked : Bool) (bus : MmioBus VirtioTransport)
    (s : MmioSlot VirtioTransport) : Except SetupAbort (MmioBus VirtioTransport) :=
  (bus.register checked s.base s.size s.device).mapError .panic

/-- The block device, if there is a disk. -/
def setupDisk (checked : Bool) (host : DeviceHost) (bus : MmioBus VirtioTransport) :
    Option String → Except SetupAbort (MmioBus VirtioTransport)
  | none => pure bus
  | some path => do
    (host.openDisk path).mapError fun e => .error (.io e)
    registerSlot checked bus (virtioSlot 0 (.block path) virtioIrqBase)

/-- The guest's MAC address: configured or random. -/
def guestMac (host : DeviceHost) : Option String → Except SetupAbort (Vector UInt8 6)
  | none => pure host.randomMac
  | some mac => (Net.parseMac mac).mapError fun e => .error (.config e)

/-- The network device and the host's adapter, if there is a network. -/
def setupNet (checked : Bool) (host : DeviceHost) (bus : MmioBus VirtioTransport) :
    Option NetConfig → Except SetupAbort (MmioBus VirtioTransport × Option Net.Adapter)
  | none => pure (bus, none)
  | some net => do
    let mac ← guestMac host net.mac
    let _ ← (Net.parseCidr net.hostIp).mapError fun e => SetupAbort.error (.config e)
    let bus ← registerSlot checked bus (virtioSlot 1 (.net mac) virtioIrqNet)
    let adapter ← (Net.startNetIo host.wintun (net.adapterName.getD "hitz-net")
      net.hostIp).mapError fun e => .error (.config ("network setup: " ++ e.display))
    pure (bus, some adapter)

/-- The vsock device, if there are channels for it. -/
def setupVsock (checked : Bool) (bus : MmioBus VirtioTransport) (guestCid : UInt32) (vsock : Bool) :
    Except SetupAbort (MmioBus VirtioTransport) :=
  if vsock then registerSlot checked bus (virtioSlot 2 (.vsock guestCid) virtioIrqVsock)
  else pure bus

/-- `setup_devices`: the bus, and what the host's adapter is set to. -/
def setupDevices (checked : Bool) (host : DeviceHost) (config : VmConfig) (vsock : Bool) :
    Except SetupAbort (MmioBus VirtioTransport × Option Net.Adapter) := do
  let bus ← setupDisk checked host {} config.diskPath
  let (bus, adapter) ← setupNet checked host bus config.net
  let bus ← setupVsock checked bus config.guestCid vsock
  pure (bus, adapter)

/-! ### What is registered -/

/-- The slots of a configuration; `mac` is the address of the network device. -/
def deviceSlots (config : VmConfig) (mac : Vector UInt8 6) (vsock : Bool) :
    List (MmioSlot VirtioTransport) :=
  (config.diskPath.toList.map fun path => virtioSlot 0 (.block path) virtioIrqBase) ++
    (config.net.toList.map fun _ => virtioSlot 1 (.net mac) virtioIrqNet) ++
    (if vsock then [virtioSlot 2 (.vsock config.guestCid) virtioIrqVsock] else [])

theorem virtioSlot_lo {i : ℕ} (hi : i < 3) (device : VirtioDevice) (irq : ℕ) :
    (virtioSlot i device irq).lo = 0xD0000000 + 0x1000 * i ∧
      (virtioSlot i device irq).hi = 0xD0000000 + 0x1000 * (i + 1) := by
  have hlo : (virtioSlot i device irq).lo = 0xD0000000 + 0x1000 * i := by
    simp only [virtioSlot, MmioSlot.lo, virtioMmioBase, virtioMmioSize, UInt64.toNat_ofNat']
    omega
  refine ⟨hlo, ?_⟩
  show (virtioSlot i device irq).lo + 0x1000 = _
  rw [hlo]
  omega

/-- Slots below slot `i`, in order. -/
def SlotsBelow (i : ℕ) (slots : List (MmioSlot VirtioTransport)) : Prop :=
  (slots.Pairwise fun s t => s.hi ≤ t.lo) ∧ ∀ s ∈ slots, s.hi ≤ 0xD0000000 + 0x1000 * i

theorem SlotsBelow.mono {i j : ℕ} (hij : i ≤ j) {slots : List (MmioSlot VirtioTransport)}
    (h : SlotsBelow i slots) : SlotsBelow j slots :=
  ⟨h.1, fun s hs => le_trans (h.2 s hs) (by omega)⟩

/-- A slot above the others goes to the end. -/
theorem registerSlot_eq (checked : Bool) {bus : MmioBus VirtioTransport} {i : ℕ} (hi : i < 3)
    (h : SlotsBelow i bus.slots) (device : VirtioDevice) (irq : ℕ) :
    registerSlot checked bus (virtioSlot i device irq) =
        .ok { slots := bus.slots ++ [virtioSlot i device irq] } ∧
      SlotsBelow (i + 1) (bus.slots ++ [virtioSlot i device irq]) := by
  obtain ⟨hlo, hhi⟩ := virtioSlot_lo hi device irq
  have hbelow : ∀ s ∈ bus.slots, s.hi ≤ (virtioSlot i device irq).lo := by
    intro s hs
    rw [hlo]
    exact h.2 s hs
  have hsorted : bus.slots.Pairwise fun s t => s.lo ≤ t.lo :=
    h.1.imp fun hst => le_trans (Nat.le_add_right _ _) hst
  have hfit : MmioBus.Fits (virtioSlot i device irq) := by
    show (virtioSlot i device irq).hi < 2 ^ 64
    rw [hhi]
    omega
  constructor
  · rw [registerSlot, MmioBus.register_above checked hfit hsorted hbelow]
    rfl
  · refine ⟨List.pairwise_append.2 ⟨h.1, List.pairwise_singleton _ _, ?_⟩, ?_⟩
    · intro s hs t ht
      rw [List.mem_singleton.1 ht]
      exact hbelow s hs
    · intro s hs
      rcases List.mem_append.1 hs with hs | hs
      · have := h.2 s hs
        omega
      · rw [List.mem_singleton.1 hs, hhi]

theorem setupDisk_ok {checked : Bool} {host : DeviceHost} {bus : MmioBus VirtioTransport}
    {disk : Option String} (h : setupDisk checked host {} disk = .ok bus) :
    bus.slots = disk.toList.map (fun path => virtioSlot 0 (.block path) virtioIrqBase) ∧
      SlotsBelow 1 bus.slots := by
  have hempty : SlotsBelow 0 ({} : MmioBus VirtioTransport).slots :=
    ⟨List.Pairwise.nil, by simp⟩
  cases disk with
  | none =>
    cases h
    exact ⟨rfl, hempty.mono (by omega)⟩
  | some path =>
    obtain ⟨_, -, h⟩ := bind_eq_ok h
    obtain ⟨hreg, hbelow⟩ := registerSlot_eq checked (by omega : 0 < 3) hempty (.block path)
      virtioIrqBase
    rw [hreg] at h
    cases h
    exact ⟨rfl, hbelow⟩

theorem startNetIo_ok {driver : Net.Wintun} {name cidr : String} {adapter : Net.Adapter}
    (h : Net.startNetIo driver name cidr = .ok adapter) :
    ∃ ip length, Net.parseCidr cidr = .ok (ip, length) ∧
      adapter = ⟨ip, Net.prefixToIpv4Mask length⟩ := by
  obtain ⟨_, -, h⟩ := bind_eq_ok h
  obtain ⟨_, -, h⟩ := bind_eq_ok h
  obtain ⟨adapter', hconf, h⟩ := bind_eq_ok h
  obtain ⟨_, -, h⟩ := bind_eq_ok h
  obtain ⟨_, -, h⟩ := bind_eq_ok h
  cases h
  obtain ⟨⟨ip, length⟩, hcidr, hconf⟩ := bind_eq_ok hconf
  obtain ⟨_, -, hconf⟩ := bind_eq_ok hconf
  obtain ⟨_, -, hconf⟩ := bind_eq_ok hconf
  cases hconf
  exact ⟨ip, length, mapError_eq_ok hcidr, rfl⟩

/-- What the adapter is set to: nothing without a network, else the address and the netmask of
`host_ip`. -/
def AdapterFor : Option NetConfig → Option Net.Adapter → Prop
  | none, adapter => adapter = none
  | some net, adapter => ∃ ip length, Net.parseCidr net.hostIp = .ok (ip, length) ∧
      adapter = some ⟨ip, Net.prefixToIpv4Mask length⟩

theorem setupNet_ok {checked : Bool} {host : DeviceHost} {bus bus' : MmioBus VirtioTransport}
    {net : Option NetConfig} {adapter : Option Net.Adapter} (hbus : SlotsBelow 1 bus.slots)
    (h : setupNet checked host bus net = .ok (bus', adapter)) :
    (∃ mac, bus'.slots = bus.slots ++
      net.toList.map fun _ => virtioSlot 1 (.net mac) virtioIrqNet) ∧
    SlotsBelow 2 bus'.slots ∧ AdapterFor net adapter := by
  cases net with
  | none =>
    cases h
    exact ⟨⟨host.randomMac, by simp⟩, hbus.mono (by omega), rfl⟩
  | some net =>
    obtain ⟨mac, -, h⟩ := bind_eq_ok h
    obtain ⟨_, -, h⟩ := bind_eq_ok h
    obtain ⟨bus₁, hreg₁, h⟩ := bind_eq_ok h
    obtain ⟨adapter', hnet, h⟩ := bind_eq_ok h
    cases h
    obtain ⟨hreg, hbelow⟩ := registerSlot_eq checked (by omega : 1 < 3) hbus (.net mac)
      virtioIrqNet
    rw [hreg] at hreg₁
    cases hreg₁
    obtain ⟨ip, length, hcidr, rfl⟩ := startNetIo_ok (mapError_eq_ok hnet)
    exact ⟨⟨mac, rfl⟩, hbelow, ip, length, hcidr, rfl⟩

/-- **What `setup_devices` does** when it succeeds: the slots of the configuration in order, and
the adapter set from `host_ip`. -/
theorem setupDevices_ok {checked : Bool} {host : DeviceHost} {config : VmConfig} {vsock : Bool}
    {bus : MmioBus VirtioTransport} {adapter : Option Net.Adapter}
    (h : setupDevices checked host config vsock = .ok (bus, adapter)) :
    (∃ mac, bus.slots = deviceSlots config mac vsock) ∧ SlotsBelow 3 bus.slots ∧
      AdapterFor config.net adapter := by
  obtain ⟨bus₁, hdisk, h⟩ := bind_eq_ok h
  obtain ⟨⟨bus₂, adapter'⟩, hnet, h⟩ := bind_eq_ok h
  obtain ⟨bus₃, hvsock, h⟩ := bind_eq_ok h
  cases h
  obtain ⟨hslots₁, hbelow₁⟩ := setupDisk_ok hdisk
  obtain ⟨⟨mac, hslots₂⟩, hbelow₂, hadapter⟩ := setupNet_ok hbelow₁ hnet
  rw [hslots₁] at hslots₂
  have hslots : (∃ mac, bus.slots = deviceSlots config mac vsock) ∧ SlotsBelow 3 bus.slots := by
    unfold setupVsock at hvsock
    cases vsock with
    | false =>
      cases hvsock
      refine ⟨⟨mac, ?_⟩, hbelow₂.mono (by omega)⟩
      rw [hslots₂]
      simp [deviceSlots]
    | true =>
      obtain ⟨hreg, hbelow⟩ := registerSlot_eq checked (by omega : 2 < 3) hbelow₂
        (.vsock config.guestCid) virtioIrqVsock
      rw [if_pos rfl, hreg] at hvsock
      cases hvsock
      refine ⟨⟨mac, ?_⟩, hbelow⟩
      rw [hslots₂]
      rfl
  exact ⟨hslots.1, hslots.2, hadapter⟩

/-! ### RAM and the device window -/

/-- The RAM ranges of the memory map. -/
def ramEntries (bp : BootParams) : List BootE820Entry :=
  (bp.e820Table.toList.take bp.e820Entries.toNat).filter fun e => decide (e.type = e820Ram)

/-- An entry of the memory map covers an address. -/
def Covers (e : BootE820Entry) (x : ℕ) : Prop :=
  e.addr.toNat ≤ x ∧ x < e.addr.toNat + e.size.toNat

/-- Neither guest RAM nor the reported RAM contains an address of a device, an access there
misses guest memory and reaches its device, and devices do not share addresses. -/
structure RamClear (checked : Bool) (m : GuestMemory) (bp : BootParams)
    (bus : MmioBus VirtioTransport) : Prop where
  ram : ∀ s ∈ bus.slots, ∀ gpa, s.Contains gpa → ∀ r ∈ m.regions,
    ¬GuestRegion.Contains r gpa.toNat
  e820 : ∀ s ∈ bus.slots, ∀ gpa, s.Contains gpa → ∀ e ∈ ramEntries bp, ¬Covers e gpa.toNat
  exits : ∀ s ∈ bus.slots, ∀ gpa, s.Contains gpa →
    (∃ e, m.findRegion gpa.toNat 1 = .error e) ∧ bus.findSlot checked gpa = .ok (some s)
  disjoint : bus.slots.Pairwise fun s t => ∀ gpa, ¬(s.Contains gpa ∧ t.Contains gpa)

/-- A device is configured. -/
theorem deviceSlots_eq_nil {config : VmConfig} {mac : Vector UInt8 6} {vsock : Bool} :
    deviceSlots config mac vsock = [] ↔
      config.diskPath = none ∧ config.net = none ∧ vsock = false := by
  cases vsock with
  | false => simp [deviceSlots]
  | true => simp [deviceSlots]

/-- Every slot of a configuration lies in the first three pages of the window. -/
theorem mem_deviceSlots {config : VmConfig} {mac : Vector UInt8 6} {vsock : Bool}
    {s : MmioSlot VirtioTransport} (h : s ∈ deviceSlots config mac vsock) :
    0xD0000000 ≤ s.lo ∧ s.lo < s.hi ∧ s.hi ≤ 0xD0003000 := by
  have hslot : ∀ i < 3, ∀ device irq, s = virtioSlot i device irq →
      0xD0000000 ≤ s.lo ∧ s.lo < s.hi ∧ s.hi ≤ 0xD0003000 := by
    rintro i hi device irq rfl
    obtain ⟨hlo, hhi⟩ := virtioSlot_lo hi device irq
    rw [hlo, hhi]
    omega
  rcases List.mem_append.1 h with h | h
  · rcases List.mem_append.1 h with h | h
    · obtain ⟨path, -, rfl⟩ := List.mem_map.1 h
      exact hslot 0 (by omega) _ _ rfl
    · obtain ⟨net, -, rfl⟩ := List.mem_map.1 h
      exact hslot 1 (by omega) _ _ rfl
  · split_ifs at h
    · rw [List.mem_singleton] at h
      exact hslot 2 (by omega) _ _ h
    · cases h

theorem buildBootParams_ok {ram : ℕ} (cmdline : ℕ) (h : 0x200000 ≤ ram) (hlt : ram < 2 ^ 64) :
    ∃ bp, buildBootParams ram cmdline = .ok bp ∧ ∀ e, e ∈ ramEntries bp →
      ∀ x, Covers e x → x < ram := by
  refine ⟨_, by rw [buildBootParams, if_neg (by omega)]; rfl, ?_⟩
  intro e he x hx
  have hmem : e = { size := 0x9FC00, type := e820Ram } ∨
      e = { addr := 0x100000, size := UInt64.ofNat (ram - 0x100000), type := e820Ram } := by
    have hlist := (List.mem_filter.1 he).1
    have htype := (List.mem_filter.1 he).2
    have htake : e ∈ [({ size := 0x9FC00, type := e820Ram } : BootE820Entry),
        { addr := 0x9FC00, size := 0x400, type := e820Reserved },
        { addr := 0x100000, size := UInt64.ofNat (ram - 0x100000), type := e820Ram }] := hlist
    simp only [List.mem_cons, List.not_mem_nil, or_false] at htake
    rcases htake with rfl | rfl | rfl
    · exact Or.inl rfl
    · exact absurd htype (by decide)
    · exact Or.inr rfl
  rcases hmem with rfl | rfl
  · obtain ⟨-, hx⟩ := hx
    simp only [UInt64.reduceToNat] at hx
    omega
  · obtain ⟨-, hx⟩ := hx
    have hsize : (UInt64.ofNat (ram - 0x100000)).toNat = ram - 0x100000 := by
      rw [UInt64.toNat_ofNat']
      exact Nat.mod_eq_of_lt (by omega)
    simp only [hsize, UInt64.reduceToNat] at hx
    omega

/-- Registered slots are found. -/
theorem SlotsBelow.findSlot {checked : Bool} {i : ℕ} (hi : i < 4)
    {bus : MmioBus VirtioTransport} (h : SlotsBelow i bus.slots)
    {s : MmioSlot VirtioTransport} (hs : s ∈ bus.slots)
    {gpa : UInt64} (hc : s.Contains gpa) : bus.findSlot checked gpa = .ok (some s) := by
  have hlaid : Laid MmioSlot.lo MmioSlot.hi bus.slots := by
    refine ⟨h.1.imp fun hst => le_trans (Nat.le_add_right _ _) hst, ?_, fun _ _ =>
      Nat.le_add_right _ _⟩
    exact h.1.imp fun hst hover => absurd hover.2 (Nat.not_lt.2 hst)
  have hhides : ¬Hides MmioSlot.lo MmioSlot.hi bus.slots := by
    rintro ⟨a, b, hsub, hne, heq⟩
    have hle := List.rel_of_pairwise_cons (h.1.sublist hsub) (List.mem_singleton_self b)
    omega
  have hfit : ∀ t ∈ bus.slots, MmioBus.Fits t := by
    intro t ht
    have := h.2 t ht
    show t.hi < 2 ^ 64
    omega
  rw [MmioBus.findSlot_eq_find? hlaid hfit hhides, MmioBus.find?_eq_some_of_filter
    (MmioBus.filter_contains_le_one hlaid.apart gpa) hs (decide_eq_true hc)]

/-- RAM above the base of a device is in its way. -/
theorem IsRam.not_ramClear {checked : Bool} {n : ℕ} {m : GuestMemory} (h : IsRam n m)
    (hn : n < 2 ^ 64) {bp : BootParams} {bus : MmioBus VirtioTransport}
    {s : MmioSlot VirtioTransport} (hs : s ∈ bus.slots) (hne : s.lo < s.hi) (hlt : s.lo < n) :
    ¬RamClear checked m bp bus := by
  intro hclear
  obtain ⟨r, hr, hstart, hsize⟩ := h.regions hn
  refine hclear.ram s hs s.base ⟨le_rfl, hne⟩ r (by rw [hr]; exact List.mem_singleton_self r) ?_
  refine ⟨?_, ?_⟩
  · rw [hstart]
    exact Nat.zero_le _
  · rw [hstart, hsize, UInt64.toNat_zero, Nat.zero_add]
    exact hlt

/-- Devices above RAM, one after the other. -/
theorem IsRam.ramClear {checked : Bool} {n : ℕ} {m : GuestMemory} (h : IsRam n m) (hpos : 0 < n)
    (hn : n < 2 ^ 64) {bp : BootParams} (hcover : ∀ e ∈ ramEntries bp, ∀ x, Covers e x → x < n)
    {bus : MmioBus VirtioTransport} (hbelow : SlotsBelow 3 bus.slots)
    (hout : ∀ s ∈ bus.slots, ∀ gpa : UInt64, s.Contains gpa → n ≤ gpa.toNat) :
    RamClear checked m bp bus := by
  obtain ⟨r, hr, hstart, hsize⟩ := h.regions hn
  have hwf := h.wf hpos hn
  refine ⟨?_, ?_, ?_, ?_⟩
  · intro s hs gpa hc r' hr' hin
    rw [hr, List.mem_singleton] at hr'
    have := hout s hs gpa hc
    have hlt := hin.2
    rw [hr', hstart, hsize, UInt64.toNat_zero] at hlt
    omega
  · intro s hs gpa hc e he hcov
    have := hcover e he gpa.toNat hcov
    have := hout s hs gpa hc
    omega
  · intro s hs gpa hc
    refine ⟨?_, hbelow.findSlot (by omega) hs hc⟩
    cases hf : m.findRegion gpa.toNat 1 with
    | error e => exact ⟨e, rfl⟩
    | ok t =>
      obtain ⟨i, off, rem⟩ := t
      obtain ⟨r', hr', -, hle, -⟩ := (hwf.findRegion_iff Nat.one_pos).1 hf
      have hmem := List.mem_of_getElem? hr'
      rw [hr, List.mem_singleton] at hmem
      rw [hmem, hstart, hsize] at hle
      have := hout s hs gpa hc
      simp only [UInt64.toNat_zero] at hle
      omega
  · refine hbelow.1.imp ?_
    rintro s t hst gpa ⟨hs, ht⟩
    have h1 := hs.2
    have h2 := ht.1
    omega

/-- **RAM and devices.**  For an accepted configuration, RAM, the memory map and the devices keep
clear of each other exactly when RAM has at most 3328 MiB or there is no device. -/
theorem ramClear_iff {files : String → Bool} {virtualAlloc : ℕ → Option ℕ} {checked : Bool}
    {host : DeviceHost} {config : VmConfig} {vsock : Bool} {bus : MmioBus VirtioTransport}
    {adapter : Option Net.Adapter} {hva : ℕ} (hval : validateConfig files config = .ok ())
    (halloc : virtualAlloc (ramBytes config) = some hva)
    (hdev : setupDevices checked host config vsock = .ok (bus, adapter)) :
    ∃ m bp, GuestMemory.addRegion virtualAlloc {} 0 (UInt64.ofNat (ramBytes config)) = .ok m ∧
      buildBootParams (ramBytes config) cmdlineGpa = .ok bp ∧
      (RamClear checked m bp bus ↔ config.ramMib.toNat ≤ 3328 ∨
        (config.diskPath = none ∧ config.net = none ∧ vsock = false)) := by
  obtain ⟨hpage, hbound⟩ := ramBytes_bounds config
  obtain ⟨m, hadd, hram⟩ := addRegion_isRam halloc hpage hbound
  have hmib := (validateConfig_ok hval).1
  have hbytes : ramBytes config = config.ramMib.toNat * 1024 * 1024 := rfl
  obtain ⟨bp, hbp, hcover⟩ := buildBootParams_ok cmdlineGpa
    (by omega : 0x200000 ≤ ramBytes config) (by omega)
  refine ⟨m, bp, hadd, hbp, ?_⟩
  obtain ⟨⟨mac, hslots⟩, hbelow, -⟩ := setupDevices_ok hdev
  have hlow : ∀ s ∈ bus.slots, 0xD0000000 ≤ s.lo ∧ s.lo < s.hi ∧ s.hi ≤ 0xD0003000 := by
    intro s hs
    rw [hslots] at hs
    exact mem_deviceSlots hs
  constructor
  · intro hclear
    by_contra hc
    push Not at hc
    obtain ⟨hbig, hsome⟩ := hc
    -- some device exists, and its first address is RAM
    have hne : bus.slots ≠ [] := by
      rw [hslots]
      intro hnil
      obtain ⟨hd, hn, hv⟩ := deviceSlots_eq_nil.1 hnil
      exact hsome hd hn hv
    obtain ⟨s, hs⟩ := List.exists_mem_of_ne_nil _ hne
    obtain ⟨hlo, hlt, hhi⟩ := hlow s hs
    exact hram.not_ramClear (by omega) hs hlt (by omega) hclear
  · intro hcond
    refine hram.ramClear (by omega) (by omega) hcover hbelow ?_
    -- an address of a device is not below the size of RAM
    intro s hs gpa hc
    obtain ⟨hlo, -, -⟩ := hlow s hs
    have := hc.1
    rcases hcond with hle | ⟨hd, hn, hv⟩
    · omega
    · rw [hslots, deviceSlots_eq_nil.2 ⟨hd, hn, hv⟩] at hs
      cases hs

/-- A host where every disk opens and the network driver answers. -/
def openHost : DeviceHost where
  openDisk _ := .ok ()
  randomMac := #v[2, 0, 0, 0, 0, 1]
  wintun := ⟨.ok (), fun _ => .ok (), fun _ => .ok (), fun _ => .ok (), .ok (), .ok ()⟩

/-- An allocator that always finds room. -/
def roomyAlloc (_ : ℕ) : Option ℕ := some 0x10000

/-- A guest with a disk. -/
def diskConfig (ramMib : UInt32) : VmConfig :=
  ⟨"vmlinux", none, some "disk.img", ramMib, 1, none, none, [], 3, .disabled⟩

theorem setupDevices_diskConfig (ramMib : UInt32) :
    setupDevices true openHost (diskConfig ramMib) true =
      .ok (⟨[virtioSlot 0 (.block "disk.img") 5, virtioSlot 2 (.vsock 3) 7]⟩, none) := by
  have hempty : SlotsBelow 0 ({} : MmioBus VirtioTransport).slots :=
    ⟨List.Pairwise.nil, by simp⟩
  obtain ⟨hdisk, hbelow⟩ := registerSlot_eq true (by omega : 0 < 3) hempty (.block "disk.img") 5
  have hbelow' : SlotsBelow 2
      (⟨[virtioSlot 0 (.block "disk.img") 5]⟩ : MmioBus VirtioTransport).slots :=
    hbelow.mono (by omega)
  obtain ⟨hvsock, -⟩ := registerSlot_eq true (by omega : 2 < 3) hbelow' (.vsock 3) 7
  have h1 : setupDisk true openHost {} (some "disk.img") =
      .ok ⟨[virtioSlot 0 (.block "disk.img") 5]⟩ := hdisk
  have h2 : setupVsock true ⟨[virtioSlot 0 (.block "disk.img") 5]⟩ 3 true =
      .ok ⟨[virtioSlot 0 (.block "disk.img") 5, virtioSlot 2 (.vsock 3) 7]⟩ := hvsock
  unfold setupDevices diskConfig
  dsimp only
  rw [h1]
  show (setupVsock true ⟨[virtioSlot 0 (.block "disk.img") 5]⟩ 3 true >>=
    fun bus => pure (bus, none)) = _
  rw [h2]
  rfl

theorem small_guest_ramClear : ∃ m bp,
    GuestMemory.addRegion roomyAlloc {} 0 (UInt64.ofNat (ramBytes (diskConfig 256))) =
        .ok m ∧
      RamClear true m bp
        ⟨[virtioSlot 0 (.block "disk.img") 5, virtioSlot 2 (.vsock 3) 7]⟩ := by
  have hval : validateConfig (fun _ => true) (diskConfig 256) = .ok () := by decide +kernel
  have halloc : roomyAlloc (ramBytes (diskConfig 256)) = some 0x10000 := rfl
  obtain ⟨m, bp, hadd, -, hiff⟩ := ramClear_iff hval halloc (setupDevices_diskConfig 256)
  exact ⟨m, bp, hadd, hiff.2 (Or.inl (by decide))⟩

/-- With 4 GiB the disk's registers lie in RAM. -/
theorem large_guest_covers_disk : ∃ m bp,
    validateConfig (fun _ => true) (diskConfig 4096) = .ok () ∧
    GuestMemory.addRegion roomyAlloc {} 0 (UInt64.ofNat (ramBytes (diskConfig 4096))) =
        .ok m ∧
    buildBootParams (ramBytes (diskConfig 4096)) cmdlineGpa = .ok bp ∧
    setupDevices true openHost (diskConfig 4096) true =
      .ok (⟨[virtioSlot 0 (.block "disk.img") 5, virtioSlot 2 (.vsock 3) 7]⟩, none) ∧
    ¬RamClear true m bp
      ⟨[virtioSlot 0 (.block "disk.img") 5, virtioSlot 2 (.vsock 3) 7]⟩ := by
  have hbytes : ramBytes (diskConfig 4096) = 0x100000000 := rfl
  obtain ⟨m, hadd, hram⟩ := addRegion_isRam (n := ramBytes (diskConfig 4096))
    (rfl : roomyAlloc (ramBytes (diskConfig 4096)) = some 0x10000) (by omega) (by omega)
  obtain ⟨bp, hbp, -⟩ := buildBootParams_ok cmdlineGpa
    (by omega : 0x200000 ≤ ramBytes (diskConfig 4096)) (by omega)
  refine ⟨m, bp, by decide +kernel, hadd, hbp, setupDevices_diskConfig 4096, ?_⟩
  obtain ⟨hlo, hhi⟩ := virtioSlot_lo (by omega : 0 < 3) (.block "disk.img") 5
  exact hram.not_ramClear (by omega) List.mem_cons_self (by omega) (by omega)

end Hitz.Vmm
