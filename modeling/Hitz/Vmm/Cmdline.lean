import Hitz.Lib.CommandLine
import Hitz.Vmm.DeviceSetup

/-!
# The kernel command line (`hitz-vmm/src/vm.rs`, `build_kernel_cmdline`)

The guest finds its virtio devices only through the command line, and its address on the network
too.  `build_kernel_cmdline` and `setup_devices` derive both from the configuration, each on its
own.

* `announced` and `ipFields` read the command line back;
* `kernelCmdline_ok`: the words that `build_kernel_cmdline` adds;
* `describes_iff`: when the command line describes what `setup_devices` builds.
-/

namespace Hitz.Vmm

open Api Boot Devices CommandLine

/-! ### Reading a command line -/

/-- A device of the command line or of the bus: size, base and interrupt. -/
abbrev DeviceTriple := ℕ × ℕ × ℕ

def deviceKey : List Char := "virtio_mmio.device=".toList
def ipKey : List Char := "ip=".toList

/-- A number in hexadecimal, as in `0x1000`. -/
def readHex : List Char → Option ℕ
  | '0' :: 'x' :: digits =>
    digits.foldlM (fun n c => (Net.hexDigit c).map (n * 16 + ·)) 0
  | _ => none

/-- A number in decimal. -/
def readDecimal (digits : List Char) : Option ℕ :=
  if digits.all Char.isDigit then some (Nat.ofDigitChars 10 digits 0) else none

/-- `<size>@<base>:<irq>`. -/
def readDevice (text : List Char) : Option DeviceTriple :=
  match text.splitOn '@' with
  | [size, rest] =>
    match rest.splitOn ':' with
    | [base, irq] => do
      let size ← readHex size
      let base ← readHex base
      let irq ← readDecimal irq
      pure (size, base, irq)
    | _ => none
  | _ => none

/-- The devices that a command line announces. -/
def announced (text : List Char) : List DeviceTriple :=
  (params text).filterMap fun w => value deviceKey w >>= readDevice

/-- What an `ip=` parameter says. -/
structure IpFields where
  client : List Char
  gateway : List Char
  netmask : List Char
  deriving DecidableEq, Repr

/-- `<client>:<server>:<gateway>:<netmask>:...`. -/
def ipFields (text : List Char) : Option IpFields :=
  match text.splitOn ':' with
  | client :: _ :: gateway :: netmask :: _ => some ⟨client, gateway, netmask⟩
  | _ => none

/-- The `ip=` parameters. -/
def ipParams (text : List Char) : List (Option IpFields) :=
  ((params text).filterMap (value ipKey)).map ipFields

/-- The devices on the bus. -/
def registered (bus : MmioBus VirtioTransport) : List DeviceTriple :=
  bus.slots.map fun s => (s.size.toNat, s.base.toNat, s.device.irq.toNat)

/-- The command line describes the devices and the network. -/
structure Describes (config : VmConfig) (text : List Char) (bus : MmioBus VirtioTransport)
    (adapter : Option Net.Adapter) : Prop where
  devices : ∀ t, t ∈ announced text ↔ t ∈ registered bus
  offline : config.net = none → ipParams text = []
  online : ∀ net, config.net = some net → ∃ guest gateway glen hlen a,
    Net.parseCidr net.guestIp = .ok (guest, glen) ∧
    Net.parseCidr net.hostIp = .ok (gateway, hlen) ∧ adapter = some a ∧
    ipParams text =
      [some ⟨(dotted guest).toList, (dotted gateway).toList, (dotted a.netmask).toList⟩]

/-- The configuration's own command line has no parameter for a device or the network. -/
def NoOwnParams (config : VmConfig) : Prop :=
  ∀ w ∈ params config.effectiveCmdline.toList, value deviceKey w = none ∧ value ipKey w = none

/-! ### What is added -/

/-- The parameter for the network device. -/
def netWord : List Char := "virtio_mmio.device=0x1000@0xd0001000:6".toList

/-- The parameter for the vsock device. -/
def vsockWord : List Char := "virtio_mmio.device=0x1000@0xd0002000:7".toList

/-- The fields of the `ip=` parameter. -/
def ipParts (guest gateway : Vector UInt8 4) : List (List Char) :=
  [(dotted guest).toList, [], (dotted gateway).toList, "255.255.255.0".toList, [], "eth0".toList,
    "off".toList]

/-- The `ip=` parameter. -/
def ipWord (guest gateway : Vector UInt8 4) : List Char :=
  ipKey ++ [':'].intercalate (ipParts guest gateway)

theorem mem_dotted {ip : Vector UInt8 4} {c : Char} (h : c ∈ (dotted ip).toList) :
    c.isDigit ∨ c = '.' := by
  have hdigit : ∀ n : UInt8, c ∈ (toString n).toList → c.isDigit := by
    intro n hn
    have hn' : c ∈ Nat.toDigits 10 n.toNat := by
      rw [← Nat.toList_repr]
      exact hn
    exact Nat.isDigit_of_mem_toDigits (by decide) (by decide) hn'
  simp only [dotted, String.toList_append, List.mem_append] at h
  have hdot : c ∈ ".".toList → c = '.' := by simp
  rcases h with (((((h | h) | h) | h) | h) | h) | h
  · exact Or.inl (hdigit _ h)
  · exact Or.inr (hdot h)
  · exact Or.inl (hdigit _ h)
  · exact Or.inr (hdot h)
  · exact Or.inl (hdigit _ h)
  · exact Or.inr (hdot h)
  · exact Or.inl (hdigit _ h)

/-- Every character of the fields is a digit, a dot or a letter. -/
theorem mem_ipParts {guest gateway : Vector UInt8 4} {p : List Char}
    (hp : p ∈ ipParts guest gateway) {c : Char} (hc : c ∈ p) :
    c.isDigit ∨ c = '.' ∨ c ∈ "eth0off".toList := by
  have hmask : ∀ c ∈ "255.255.255.0".toList, c.isDigit ∨ c = '.' := by simp
  have heth : ∀ c ∈ "eth0".toList, c ∈ "eth0off".toList := by simp
  have hoff : ∀ c ∈ "off".toList, c ∈ "eth0off".toList := by simp
  simp only [ipParts, List.mem_cons, List.not_mem_nil, or_false] at hp
  rcases hp with rfl | rfl | rfl | rfl | rfl | rfl | rfl
  · exact (mem_dotted hc).imp_right Or.inl
  · cases hc
  · exact (mem_dotted hc).imp_right Or.inl
  · exact (hmask c hc).imp_right Or.inl
  · cases hc
  · exact Or.inr (Or.inr (heth c hc))
  · exact Or.inr (Or.inr (hoff c hc))

/-- A digit, a dot or one of these letters separates nothing. -/
theorem plain_char {c : Char} (h : c.isDigit ∨ c = '.' ∨ c ∈ "eth0off".toList) :
    isBlank c = false ∧ c ≠ '\x00' ∧ c ≠ ':' := by
  rcases h with h | rfl | h
  · obtain ⟨hlo, hhi⟩ : 48 ≤ c.toNat ∧ c.toNat ≤ 57 := by
      simpa [Char.isDigit, UInt32.le_iff_toNat_le] using h
    have hne : ∀ d : Char, (d.toNat < 48 ∨ 57 < d.toNat) → c ≠ d := by
      rintro d hd rfl
      omega
    refine ⟨?_, hne _ (by decide), hne _ (by decide)⟩
    have hcr : ¬c ≤ '\r' := by
      intro hle
      have : c.toNat ≤ 13 := UInt32.le_iff_toNat_le.1 hle
      omega
    simp [isBlank, hne ' ' (by decide), hcr]
  · decide
  · have hall : ∀ c ∈ "eth0off".toList, isBlank c = false ∧ c ≠ '\x00' ∧ c ≠ ':' := by
      simp [isBlank]
    exact hall c h

theorem ipWord_isWord (guest gateway : Vector UInt8 4) : IsWord (ipWord guest gateway) := by
  refine ⟨by simp [ipWord, ipKey], ?_⟩
  intro c hc
  rcases List.mem_append.1 hc with hc | hc
  · have hkey : ∀ c ∈ ipKey, isBlank c = false ∧ c ≠ '\x00' := by simp [ipKey, isBlank]
    exact hkey c hc
  · -- a separator or a character of a field
    rcases mem_intercalate hc with rfl | ⟨p, hp, hcp⟩
    · decide
    · obtain ⟨hblank, hnul, -⟩ := plain_char (mem_ipParts hp hcp)
      exact ⟨hblank, hnul⟩

/-- The `ip=` parameter says what went into it. -/
theorem ipFields_ipWord (guest gateway : Vector UInt8 4) :
    (value ipKey (ipWord guest gateway)).map ipFields =
      some (some ⟨(dotted guest).toList, (dotted gateway).toList, "255.255.255.0".toList⟩) := by
  have hsplit : ([':'].intercalate (ipParts guest gateway)).splitOn ':' = ipParts guest gateway :=
    List.splitOn_intercalate ':' (fun p hp hc => (plain_char (mem_ipParts hp hc)).2.2 rfl)
      (List.cons_ne_nil _ _)
  rw [ipWord, value_append, Option.map_some, ipFields, hsplit]
  rfl

/-- The words added for a network. -/
def NetWords : Option NetConfig → List (List Char) → Prop
  | none, ws => ws = []
  | some net, ws => ∃ guest glen gateway hlen, Net.parseCidr net.guestIp = .ok (guest, glen) ∧
      Net.parseCidr net.hostIp = .ok (gateway, hlen) ∧ ws = [netWord, ipWord guest gateway]

/-- The words added for vsock. -/
def vsockWords (vsock : Bool) : List (List Char) := if vsock then [vsockWord] else []

theorem netParams_ok {net : Option NetConfig} {s : String} (h : netParams net = .ok s) :
    ∃ ws, NetWords net ws ∧ s.toList = spaced ws := by
  cases net with
  | none =>
    cases h
    exact ⟨[], rfl, rfl⟩
  | some net =>
    cases hguest : Net.parseCidr net.guestIp with
    | error e => simp [netParams, hguest, throw, throwThe, MonadExceptOf.throw] at h
    | ok g =>
      obtain ⟨guest, glen⟩ := g
      cases hhost : Net.parseCidr net.hostIp with
      | error e => simp [netParams, hguest, hhost, throw, throwThe, MonadExceptOf.throw] at h
      | ok g =>
        obtain ⟨gateway, hlen⟩ := g
        simp only [netParams, hguest, hhost, pure, Except.pure, Except.ok.injEq] at h
        refine ⟨_, ⟨guest, glen, gateway, hlen, hguest, hhost, rfl⟩, ?_⟩
        have hdev : (deviceParam (virtioMmioBase + virtioMmioSize) virtioIrqNet).toList =
            ' ' :: netWord := by rfl
        rw [← h]
        simp only [String.toList_append, hdev]
        simp [spaced, ipWord, ipKey, ipParts, List.intercalate_cons_cons]

theorem kernelCmdline_ok {config : VmConfig} {vsock : Bool} {text : String}
    (h : kernelCmdline config vsock = .ok text) :
    ∃ ws, NetWords config.net ws ∧
      text.toList = config.effectiveCmdline.toList ++ spaced (ws ++ vsockWords vsock) := by
  obtain ⟨s, hs, h⟩ := bind_eq_ok h
  cases h
  obtain ⟨ws, hws, hlist⟩ := netParams_ok hs
  refine ⟨ws, hws, ?_⟩
  have hvsock : (if vsock then
      deviceParam (virtioMmioBase + virtioMmioSize * 2) virtioIrqVsock else "").toList =
        spaced (vsockWords vsock) := by
    cases vsock with
    | false => rfl
    | true => rfl
  rw [String.toList_append, String.toList_append, hlist, hvsock, spaced, spaced, spaced,
    List.map_append, List.flatten_append, List.append_assoc]

/-! ### Reading it back -/

/-- What a word announces. -/
def readWord (w : List Char) : Option DeviceTriple := value deviceKey w >>= readDevice

/-- What is read in the words of the devices. -/
theorem read_words : readWord netWord = some (0x1000, 0xD0001000, 6) ∧
    readWord vsockWord = some (0x1000, 0xD0002000, 7) ∧ value ipKey netWord = none ∧
    (netWord ≠ [] ∧ netWord.all (fun c => isBlank c = false ∧ c ≠ '\x00') = true) ∧
    (vsockWord ≠ [] ∧ vsockWord.all (fun c => isBlank c = false ∧ c ≠ '\x00') = true) := by
  decide +kernel

theorem readWord_netWord : readWord netWord = some (0x1000, 0xD0001000, 6) := read_words.1

theorem readWord_vsockWord : readWord vsockWord = some (0x1000, 0xD0002000, 7) := read_words.2.1

theorem readWord_ipWord (guest gateway : Vector UInt8 4) :
    readWord (ipWord guest gateway) = none := by rfl

/-- The network device, if there is one. -/
def netTriple (config : VmConfig) : List DeviceTriple :=
  config.net.toList.map fun _ => (0x1000, 0xD0001000, 6)

/-- The vsock device, if there is one. -/
def vsockTriple (vsock : Bool) : List DeviceTriple :=
  if vsock then [(0x1000, 0xD0002000, 7)] else []

theorem registered_eq {config : VmConfig} {mac : Vector UInt8 6} {vsock : Bool}
    {bus : MmioBus VirtioTransport} (h : bus.slots = deviceSlots config mac vsock) :
    registered bus = (config.diskPath.toList.map fun _ => (0x1000, 0xD0000000, 5)) ++
      netTriple config ++ vsockTriple vsock := by
  have htriple : ∀ i < 3, ∀ device, ∀ irq < 256,
      ((virtioSlot i device irq).size.toNat, (virtioSlot i device irq).base.toNat,
        (virtioSlot i device irq).device.irq.toNat) = (0x1000, 0xD0000000 + 0x1000 * i, irq) := by
    intro i hi device irq hirq
    have hlo : (virtioSlot i device irq).base.toNat = 0xD0000000 + 0x1000 * i :=
      (virtioSlot_lo hi device irq).1
    have hirq' : (virtioSlot i device irq).device.irq.toNat = irq := by
      show (UInt8.ofNat irq).toNat = irq
      rw [UInt8.toNat_ofNat', Nat.mod_eq_of_lt hirq]
    rw [hlo, hirq']
    rfl
  cases vsock with
  | false =>
    simp [registered, h, deviceSlots, netTriple, vsockTriple, Function.comp_def, htriple,
      virtioIrqBase, virtioIrqNet]
  | true =>
    simp [registered, h, deviceSlots, netTriple, vsockTriple, Function.comp_def, htriple,
      virtioIrqBase, virtioIrqNet, virtioIrqVsock]

theorem netWord_isWord : IsWord netWord :=
  isWord_of_all read_words.2.2.2.1.1 read_words.2.2.2.1.2

theorem vsockWord_isWord : IsWord vsockWord :=
  isWord_of_all read_words.2.2.2.2.1 read_words.2.2.2.2.2

/-- The words that are added can be parameters. -/
theorem added_isWord {net : Option NetConfig} {vsock : Bool} {ws : List (List Char)}
    (hws : NetWords net ws) : ∀ w ∈ ws ++ vsockWords vsock, IsWord w := by
  intro w hw
  rcases List.mem_append.1 hw with hw | hw
  · cases net with
    | none =>
      rw [show ws = [] from hws] at hw
      cases hw
    | some net =>
      obtain ⟨guest, -, gateway, -, -, -, rfl⟩ := hws
      rcases List.mem_pair.1 hw with rfl | rfl
      · exact netWord_isWord
      · exact ipWord_isWord guest gateway
  · cases vsock with
    | false => cases hw
    | true =>
      rw [List.mem_singleton.1 hw]
      exact vsockWord_isWord

section Text

variable {config : VmConfig} {vsock : Bool} {ws : List (List Char)} {text : List Char}
  (hown : NoOwnParams config) (hws : NetWords config.net ws)
  (htext : text = config.effectiveCmdline.toList ++ spaced (ws ++ vsockWords vsock))

include hown hws htext

/-- The announced devices: none behind a NUL, and never the disk. -/
theorem announced_eq : announced text =
    if '\x00' ∈ config.effectiveCmdline.toList then []
    else netTriple config ++ vsockTriple vsock := by
  have hnone : ∀ w ∈ params config.effectiveCmdline.toList, readWord w = none := by
    intro w hw
    rw [readWord, (hown w hw).1]
    rfl
  have hread : (ws ++ vsockWords vsock).filterMap readWord =
      netTriple config ++ vsockTriple vsock := by
    rw [List.filterMap_append]
    congr 1
    · cases hnet : config.net with
      | none =>
        rw [hnet] at hws
        rw [show ws = [] from hws, netTriple, hnet]
        rfl
      | some net =>
        rw [hnet] at hws
        obtain ⟨guest, -, gateway, -, -, -, rfl⟩ := hws
        rw [netTriple, hnet, List.filterMap_cons_some readWord_netWord,
          List.filterMap_cons_none (readWord_ipWord guest gateway)]
        rfl
    · cases vsock with
      | false => rfl
      | true => rw [vsockWords, if_pos rfl, List.filterMap_cons_some readWord_vsockWord]; rfl
  show (params text).filterMap readWord = _
  rw [htext, filterMap_params hnone (added_isWord hws), hread]

/-- The `ip=` parameters: none behind a NUL. -/
theorem ipParams_eq : ipParams text =
    if '\x00' ∈ config.effectiveCmdline.toList then []
    else (ws.filterMap (value ipKey)).map ipFields := by
  have hnone : ∀ w ∈ params config.effectiveCmdline.toList, value ipKey w = none :=
    fun w hw => (hown w hw).2
  have hvsock : (vsockWords vsock).filterMap (value ipKey) = [] := by
    cases vsock with
    | false => rfl
    | true => rfl
  rw [ipParams, htext, filterMap_params hnone (added_isWord hws), List.filterMap_append, hvsock,
    List.append_nil]
  split_ifs with hnul
  · rfl
  · rfl

end Text

/-- Only the length 24 has the netmask of the `ip=` parameter. -/
theorem dotted_mask_iff : ∀ n < 33,
    (dotted (Net.prefixToIpv4Mask (UInt8.ofNat n))).toList = "255.255.255.0".toList ↔ n = 24 := by
  decide +kernel

theorem parseCidr_length {s : String} {ip : Vector UInt8 4} {length : UInt8}
    (h : Net.parseCidr s = .ok (ip, length)) : length.toNat < 33 := by
  unfold Net.parseCidr at h
  split_ifs at h
  split at h
  · cases h
  · obtain ⟨_, -, h⟩ := bind_eq_ok h
    obtain ⟨_, -, h⟩ := bind_eq_ok h
    obtain ⟨_, -, h⟩ := bind_eq_ok h
    obtain ⟨_, -, h⟩ := bind_eq_ok h
    dsimp only at h
    split_ifs at h
    split at h
    · cases h
    · split_ifs at h with hle
      cases h
      have : ¬(32 : UInt8).toNat < length.toNat := fun hlt => hle (UInt8.lt_iff_toNat_lt.2 hlt)
      simp only [UInt8.reduceToNat] at this
      omega

theorem mask_iff {s : String} {ip : Vector UInt8 4} {length : UInt8}
    (h : Net.parseCidr s = .ok (ip, length)) :
    (dotted (Net.prefixToIpv4Mask length)).toList = "255.255.255.0".toList ↔ length = 24 := by
  have hiff := dotted_mask_iff length.toNat (parseCidr_length h)
  rw [UInt8.ofNat_toNat] at hiff
  rw [hiff]
  exact UInt8.toNat_inj (b := 24)

theorem ipParams_ipWord (guest gateway : Vector UInt8 4) :
    (([netWord, ipWord guest gateway].filterMap (value ipKey)).map ipFields) =
      [some ⟨(dotted guest).toList, (dotted gateway).toList, "255.255.255.0".toList⟩] := by
  obtain ⟨v, hv, hfields⟩ := Option.map_eq_some_iff.1 (ipFields_ipWord guest gateway)
  have hnet : value ipKey netWord = none := read_words.2.2.1
  rw [List.filterMap_cons_none hnet, List.filterMap_cons_some hv, List.filterMap_nil,
    List.map_singleton, hfields]

theorem disk_not_announced {config : VmConfig} {vsock : Bool} :
    (0x1000, 0xD0000000, 5) ∉ netTriple config ++ vsockTriple vsock := by
  intro hmem
  rcases List.mem_append.1 hmem with hmem | hmem
  · obtain ⟨_, -, heq⟩ := List.mem_map.1 hmem
    exact absurd heq (by decide)
  · cases vsock with
    | false => cases hmem
    | true => exact absurd (List.mem_singleton.1 hmem) (by decide)

section Built

variable {checked : Bool} {host : DeviceHost} {config : VmConfig} {vsock : Bool} {text : String}
  {bus : MmioBus VirtioTransport} {adapter : Option Net.Adapter} (hown : NoOwnParams config)
  (htext : kernelCmdline config vsock = .ok text)
  (hdev : setupDevices checked host config vsock = .ok (bus, adapter))

include hown htext hdev

/-- A disk is on the bus, and nothing announces it. -/
theorem Describes.no_disk (h : Describes config text.toList bus adapter) :
    config.diskPath = none := by
  obtain ⟨ws, hws, hlist⟩ := kernelCmdline_ok htext
  obtain ⟨⟨mac, hslots⟩, -, -⟩ := setupDevices_ok hdev
  cases hdisk : config.diskPath with
  | none => rfl
  | some path =>
    have hreg : (0x1000, 0xD0000000, 5) ∈ registered bus := by
      rw [registered_eq hslots]
      simp [hdisk]
    have hmem := (h.devices _).2 hreg
    rw [announced_eq hown hws hlist] at hmem
    split_ifs at hmem
    · cases hmem
    · exact absurd hmem disk_not_announced

/-- The netmask on the command line has the length 24. -/
theorem Describes.length_eq (h : Describes config text.toList bus adapter) {net : NetConfig}
    (hnet : config.net = some net) : ∃ ip, Net.parseCidr net.hostIp = .ok (ip, 24) := by
  obtain ⟨ws, hws, hlist⟩ := kernelCmdline_ok htext
  obtain ⟨-, -, hadapter⟩ := setupDevices_ok hdev
  obtain ⟨guest, gateway, glen, hlen, a, -, -, ha, hfields⟩ := h.online net hnet
  have hip := ipParams_eq hown hws hlist
  rw [hnet] at hws hadapter
  obtain ⟨guest', -, gateway', -, -, -, rfl⟩ := hws
  obtain ⟨ip, length, hhost, hset⟩ := hadapter
  rw [ipParams_ipWord] at hip
  rw [hip] at hfields
  split_ifs at hfields
  obtain rfl : a = ⟨ip, Net.prefixToIpv4Mask length⟩ := by
    rw [ha] at hset
    exact Option.some.inj hset
  have hmask : (dotted (Net.prefixToIpv4Mask length)).toList = "255.255.255.0".toList := by
    simp only [List.cons.injEq, Option.some.injEq, IpFields.mk.injEq, and_true] at hfields
    exact hfields.2.2.symm
  rw [(mask_iff hhost).1 hmask] at hhost
  exact ⟨ip, hhost⟩

/-- A NUL hides what is added. -/
theorem Describes.no_nul (h : Describes config text.toList bus adapter)
    (hsome : config.net.isSome ∨ vsock = true) : '\x00' ∉ config.effectiveCmdline.toList := by
  intro hnul
  obtain ⟨ws, hws, hlist⟩ := kernelCmdline_ok htext
  obtain ⟨⟨mac, hslots⟩, -, -⟩ := setupDevices_ok hdev
  rcases hsome with hnet | rfl
  · obtain ⟨net, hnet⟩ := Option.isSome_iff_exists.1 hnet
    obtain ⟨_, _, _, _, _, -, -, -, hfields⟩ := h.online net hnet
    rw [ipParams_eq hown hws hlist, if_pos hnul] at hfields
    cases hfields
  · have hreg : (0x1000, 0xD0002000, 7) ∈ registered bus := by
      rw [registered_eq hslots]
      simp [vsockTriple]
    have hmem := (h.devices _).2 hreg
    rw [announced_eq hown hws hlist, if_pos hnul] at hmem
    cases hmem

/-- **The command line.**  It describes the devices and the network exactly when there is no disk,
the host's address has the length 24, and the configuration's own text has no NUL before what is
added. -/
theorem describes_iff : Describes config text.toList bus adapter ↔
    config.diskPath = none ∧
      (∀ net, config.net = some net → ∃ ip, Net.parseCidr net.hostIp = .ok (ip, 24)) ∧
      (config.net.isSome ∨ vsock = true → '\x00' ∉ config.effectiveCmdline.toList) := by
  obtain ⟨ws, hws, hlist⟩ := kernelCmdline_ok htext
  obtain ⟨⟨mac, hslots⟩, -, hadapter⟩ := setupDevices_ok hdev
  have hip := ipParams_eq hown hws hlist
  constructor
  · intro h
    exact ⟨h.no_disk hown htext hdev, fun net hnet => h.length_eq hown htext hdev hnet,
      h.no_nul hown htext hdev⟩
  · rintro ⟨hdisk, hlen, hnul⟩
    refine ⟨?_, ?_, ?_⟩
    · intro t
      rw [announced_eq hown hws hlist, registered_eq hslots, hdisk]
      split_ifs with h
      · -- with a NUL in the configuration's own text there is no device to announce
        obtain ⟨hnet, hvsock⟩ : config.net = none ∧ vsock = false := by
          constructor
          · by_contra hne
            exact hnul (Or.inl (Option.isSome_iff_ne_none.2 hne)) h
          · by_contra hne
            exact hnul (Or.inr (by simpa using hne)) h
        simp [netTriple, vsockTriple, hnet, hvsock]
      · simp
    · intro hnet
      rw [hnet] at hws
      rw [hip, show ws = [] from hws]
      split_ifs
      · rfl
      · rfl
    · intro net hnet
      obtain ⟨ip, hhost⟩ := hlen net hnet
      rw [if_neg (hnul (Or.inl (by rw [hnet]; rfl)))] at hip
      rw [hnet] at hws hadapter
      obtain ⟨guest, glen, gateway, hlen, hguest, hhost', rfl⟩ := hws
      obtain ⟨ip', length, hhost'', hset⟩ := hadapter
      obtain rfl : length = 24 := by
        rw [hhost] at hhost''
        cases hhost''
        rfl
      refine ⟨guest, gateway, glen, hlen, _, hguest, hhost', hset, ?_⟩
      rw [hip, ipParams_ipWord, (mask_iff hhost'').2 rfl]

end Built

/-- A guest with a network and no disk; `hostIp` is the host's address. -/
def netConfig (hostIp : String) : VmConfig :=
  ⟨"vmlinux", none, none, 256, 1, none, some ⟨none, hostIp, "10.0.0.2/24", none⟩, [], 3, .disabled⟩

theorem noOwnParams_of_default {config : VmConfig} (h : config.cmdline = none) :
    NoOwnParams config := by
  have hall : (params defaultCmdline.toList).all
      (fun w => value deviceKey w = none ∧ value ipKey w = none) = true := by
    decide +kernel
  intro w hw
  rw [VmConfig.effectiveCmdline, h] at hw
  exact of_decide_eq_true (List.all_eq_true.1 hall w hw)

theorem net_guest_described : ∃ text bus adapter,
    kernelCmdline (netConfig "10.0.0.1/24") true = .ok text ∧
    setupDevices true openHost (netConfig "10.0.0.1/24") true = .ok (bus, adapter) ∧
    Describes (netConfig "10.0.0.1/24") text.toList bus adapter := by
  obtain ⟨text, htext⟩ := exists_eq_ok
    (by decide +kernel : (kernelCmdline (netConfig "10.0.0.1/24") true).isOk = true)
  obtain ⟨⟨bus, adapter⟩, hdev⟩ := exists_eq_ok
    (by decide +kernel : (setupDevices true openHost (netConfig "10.0.0.1/24") true).isOk = true)
  have hnul : (defaultCmdline.toList.all (· ≠ '\x00')) = true := by decide +kernel
  refine ⟨text, bus, adapter, htext, hdev,
    (describes_iff (noOwnParams_of_default rfl) htext hdev).2 ⟨rfl, ?_, ?_⟩⟩
  · intro net hnet
    cases hnet
    exact ⟨#v[10, 0, 0, 1], by decide +kernel⟩
  · intro _ hmem
    exact of_decide_eq_true (List.all_eq_true.1 hnul _ hmem) rfl

/-- A disk is not announced, and next to a host with a shorter prefix the guest gets the wrong
netmask. -/
theorem drift_disk_and_netmask :
    (∃ text bus adapter, kernelCmdline (diskConfig 256) true = .ok text ∧
      setupDevices true openHost (diskConfig 256) true = .ok (bus, adapter) ∧
      NoOwnParams (diskConfig 256) ∧ ¬Describes (diskConfig 256) text.toList bus adapter) ∧
    ∃ text bus adapter, kernelCmdline (netConfig "10.0.0.1/16") true = .ok text ∧
      setupDevices true openHost (netConfig "10.0.0.1/16") true = .ok (bus, adapter) ∧
      NoOwnParams (netConfig "10.0.0.1/16") ∧
      ¬Describes (netConfig "10.0.0.1/16") text.toList bus adapter := by
  constructor
  · obtain ⟨text, htext⟩ := exists_eq_ok
      (by decide +kernel : (kernelCmdline (diskConfig 256) true).isOk = true)
    have hdev := setupDevices_diskConfig 256
    have hown := noOwnParams_of_default (rfl : (diskConfig 256).cmdline = none)
    refine ⟨text, _, _, htext, hdev, hown, ?_⟩
    intro h
    exact Option.some_ne_none _ (h.no_disk hown htext hdev)
  · obtain ⟨text, htext⟩ := exists_eq_ok
      (by decide +kernel : (kernelCmdline (netConfig "10.0.0.1/16") true).isOk = true)
    obtain ⟨⟨bus, adapter⟩, hdev⟩ := exists_eq_ok
      (by decide +kernel : (setupDevices true openHost (netConfig "10.0.0.1/16") true).isOk = true)
    have hown := noOwnParams_of_default (rfl : (netConfig "10.0.0.1/16").cmdline = none)
    refine ⟨text, bus, adapter, htext, hdev, hown, ?_⟩
    intro h
    obtain ⟨ip, hip⟩ := h.length_eq hown htext hdev rfl
    have hlen : (Net.parseCidr "10.0.0.1/16").toOption.map Prod.snd = some 16 := by decide +kernel
    rw [hip] at hlen
    exact absurd (Option.some.inj hlen : (24 : UInt8) = 16) (by decide)

end Hitz.Vmm
