import Hitz.Vmm.Memory
import Hitz.Devices.Block

/-!
# The block device is a byte store

What the device is for: a disk that answers a read with the latest bytes written to the range, or
with its initial content where nothing was written.  `latest` says so for a history of writes;
`StoreInv.run` shows that the device keeps it over every history of requests, whatever their
headers, sectors, lengths, flags and guest memories, and whichever file operations fail.
-/

namespace Hitz.Devices

open ByteStore Bytes

/-! ### Writes to a byte vector -/

/-- The byte at `x` after a history of writes (offset and bytes), newest first. -/
def latest (init : ℕ → UInt8) : List (ℕ × List UInt8) → ℕ → UInt8
  | [], x => init x
  | (off, buf) :: older, x =>
    if off ≤ x ∧ x < off + buf.length then buf.getD (x - off) 0 else latest init older x

namespace Disk

/-- A write inside the file fills no gap. -/
theorem splice_eq {data buf : List UInt8} {off : ℕ} (h : off + buf.length ≤ data.length) :
    splice data off buf = overwrite data off buf := by
  rw [splice, Nat.sub_eq_zero_of_le (by omega), List.replicate_zero, List.append_nil]

/-- The bytes of an inner range. -/
theorem getElem?_slice (d : Disk) {off n i : ℕ} (hi : i < n) :
    (d.slice off n)[i]? = d.data[off + i]? := by
  rw [slice, List.getElem?_take_of_lt hi, List.getElem?_drop]

end Disk

/-! ### Histories of requests -/

namespace VirtioBlockDevice

variable {M : Type} [ByteStore M]

/-- Process a history of requests, each with its own chain and guest memory. -/
def runRequests (dev : VirtioBlockDevice) : List (DescriptorChain × M) → Option VirtioBlockDevice
  | [] => some dev
  | (chain, mem) :: rest => (dev.processRequest chain mem).bind fun r => r.dev.runRequests rest

/-- The bytes a request has put on the disk: those of an OUT request that succeeded. -/
def acceptedWrite (dev : VirtioBlockDevice) (chain : DescriptorChain) (mem : M) :
    Option (ℕ × List UInt8) := do
  let r ← (parseRequest chain mem).1
  let t ← dev.transfer r mem
  if r.reqType = virtioBlkTOut ∧ t.status = virtioBlkSOk then
    some (byteOffset r.sector, bytes mem r.data.gpa.toNat r.data.len.toNat)
  else none

/-- The accepted writes of a history, newest first. -/
def acceptedWrites (dev : VirtioBlockDevice) : List (DescriptorChain × M) → List (ℕ × List UInt8)
  | [] => []
  | (chain, mem) :: rest =>
    match dev.processRequest chain mem with
    | none => []
    | some r => r.dev.acceptedWrites rest ++ (dev.acceptedWrite chain mem).toList

/-- The device after a request is the device after its transfer; a request that is not parsed
leaves it alone. -/
theorem dev_processRequest (dev : VirtioBlockDevice) (chain : DescriptorChain) (mem : M) :
    ∃ s, dev.processRequest chain mem = some s ∧
      match (parseRequest chain mem).1 with
      | none => s.dev = dev
      | some r => ∃ t, dev.transfer r mem = some t ∧ TransferOk dev r mem t ∧ s.dev = t.dev := by
  obtain ⟨s, hs⟩ := Option.isSome_iff_exists.1 (dev.isSome_processRequest chain mem)
  refine ⟨s, hs, ?_⟩
  unfold processRequest at hs
  cases hp : parseRequest chain mem with
  | mk or chain' =>
    rw [hp] at hs
    cases or with
    | none =>
      cases hs
      rfl
    | some r =>
      obtain ⟨t, ht, hok⟩ := dev.transfer_spec r mem
      simp only [ht, Option.bind_some] at hs
      exact ⟨t, ht, hok, (writeStatus_eq_some hs).1⟩

/-- What every request keeps: the capacity, the length of the file, and the disk as the initial
content overlaid with the accepted writes. -/
structure StoreInv (init : VirtioBlockDevice) (writes : List (ℕ × List UInt8))
    (dev : VirtioBlockDevice) : Prop where
  capacity_eq : dev.capacity = init.capacity
  length_eq : dev.disk.data.length = init.disk.data.length
  confined : dev.Confined
  data : ∀ x < init.disk.data.length,
    dev.disk.data[x]? = some (latest (fun i => init.disk.data.getD i 0) writes x)

theorem storeInv_init {init : VirtioBlockDevice} (hnew : init.disk.touched = []) :
    StoreInv init [] init where
  capacity_eq := rfl
  length_eq := rfl
  confined := by
    intro p hp
    rw [hnew] at hp
    cases hp
  data x hx := by simp [latest, hx]

/-- One request keeps the invariant; its accepted write, if any, becomes the newest. -/
theorem StoreInv.step {init dev : VirtioBlockDevice} {writes : List (ℕ × List UInt8)}
    (hlen : init.capacity.toNat * sectorSize ≤ init.disk.data.length)
    (h : StoreInv init writes dev) (chain : DescriptorChain) (mem : M) :
    ∃ s, dev.processRequest chain mem = some s ∧
      StoreInv init ((dev.acceptedWrite chain mem).toList ++ writes) s.dev := by
  obtain ⟨s, hs, hdev⟩ := dev.dev_processRequest chain mem
  refine ⟨s, hs, ?_⟩
  unfold acceptedWrite
  cases hp : (parseRequest chain mem).1 with
  | none =>
    rw [hp] at hdev
    rw [hdev]
    exact h
  | some r =>
    rw [hp] at hdev
    obtain ⟨t, ht, hok, hst⟩ := hdev
    simp only [Option.bind_eq_bind, Option.bind_some, ht]
    rw [hst]
    by_cases hw : r.reqType = virtioBlkTOut ∧ t.status = virtioBlkSOk
    · rw [if_pos hw]
      obtain ⟨hbound, hdata⟩ := hok.out_ok hw.1 hw.2
      set off := byteOffset r.sector
      set buf := bytes mem r.data.gpa.toNat r.data.len.toNat with hbuf
      have hblen : buf.length = r.data.len.toNat := length_bytes _ _ _
      have hle : off + buf.length ≤ dev.disk.data.length := by
        rw [hblen, h.length_eq]
        rw [h.capacity_eq] at hbound
        omega
      exact {
        capacity_eq := hok.capacity_eq.trans h.capacity_eq
        length_eq := by rw [hdata, Disk.splice_eq hle, length_overwrite hle, h.length_eq]
        confined := hok.confined h.confined
        data := by
          intro x hx
          rw [hdata, Disk.splice_eq hle, getElem?_overwrite hle, Option.toList_some,
            List.singleton_append, latest]
          split_ifs with hin
          · rw [List.getD_eq_getElem?_getD, List.getElem?_eq_getElem (by omega), Option.getD_some]
          · exact h.data x hx }
    · rw [if_neg hw]
      exact {
        capacity_eq := hok.capacity_eq.trans h.capacity_eq
        length_eq := by rw [hok.unchanged hw, h.length_eq]
        confined := hok.confined h.confined
        data := by
          rw [hok.unchanged hw]
          exact h.data }

/-- Every history of requests keeps the invariant. -/
theorem StoreInv.run {init : VirtioBlockDevice}
    (hlen : init.capacity.toNat * sectorSize ≤ init.disk.data.length)
    (reqs : List (DescriptorChain × M)) :
    ∀ {dev writes}, StoreInv init writes dev → ∃ dev', dev.runRequests reqs = some dev' ∧
      StoreInv init (dev.acceptedWrites reqs ++ writes) dev' := by
  induction reqs with
  | nil => exact fun h => ⟨_, rfl, h⟩
  | cons req rest ih =>
    obtain ⟨chain, mem⟩ := req
    intro dev writes h
    obtain ⟨s, hs, hinv⟩ := h.step hlen chain mem
    obtain ⟨dev', hrun, hinv'⟩ := ih hinv
    refine ⟨dev', by rw [runRequests, hs]; exact hrun, ?_⟩
    rw [acceptedWrites, hs, List.append_assoc]
    exact hinv'

/-- **The block device is a byte store.**  After any history of requests, no arithmetic has
overflowed, no byte past the capacity was touched, and for the next request: an OUT request that
succeeds replaces exactly its range of the disk by the guest's buffer, every other request leaves
the disk unchanged, and an IN request that succeeds has filled its buffer with the latest bytes
written to its range. -/
theorem block_device_is_byte_store (dev : VirtioBlockDevice)
    (hlen : dev.capacity.toNat * sectorSize ≤ dev.disk.data.length)
    (hnew : dev.disk.touched = []) (reqs : List (DescriptorChain × M)) :
    ∃ dev', dev.runRequests reqs = some dev' ∧
      (∀ p ∈ dev'.disk.touched, p.1 + p.2 ≤ dev.capacity.toNat * sectorSize) ∧
      ∀ (chain : DescriptorChain) (mem : M), ∃ s, dev'.processRequest chain mem = some s ∧
        match (parseRequest chain mem).1 with
        | none => s.dev.disk.data = dev'.disk.data
        | some r => ∃ t, dev'.transfer r mem = some t ∧ s.dev = t.dev ∧
            (if r.reqType = virtioBlkTOut ∧ t.status = virtioBlkSOk then
              byteOffset r.sector + r.data.len.toNat ≤ dev.capacity.toNat * sectorSize ∧
              s.dev.disk.data.length = dev'.disk.data.length ∧
              ∀ x < dev'.disk.data.length, s.dev.disk.data[x]? =
                if byteOffset r.sector ≤ x ∧ x < byteOffset r.sector + r.data.len.toNat then
                  some (byte mem (r.data.gpa.toNat + (x - byteOffset r.sector)))
                else dev'.disk.data[x]?
            else s.dev.disk.data = dev'.disk.data) ∧
            (r.reqType = virtioBlkTIn → t.status = virtioBlkSOk → ∀ i < r.data.len.toNat,
              byte t.mem (r.data.gpa.toNat + i) =
                latest (fun x => dev.disk.data.getD x 0) (dev.acceptedWrites reqs)
                  (byteOffset r.sector + i)) := by
  obtain ⟨dev', hrun, hinv⟩ := StoreInv.run hlen reqs (storeInv_init hnew)
  rw [List.append_nil] at hinv
  refine ⟨dev', hrun, ?_, fun chain mem => ?_⟩
  · rw [← hinv.capacity_eq]
    exact hinv.confined
  obtain ⟨s, hs, hdev⟩ := dev'.dev_processRequest chain mem
  refine ⟨s, hs, ?_⟩
  cases hp : (parseRequest chain mem).1 with
  | none =>
    rw [hp] at hdev
    rw [hdev]
  | some r =>
    rw [hp] at hdev
    obtain ⟨t, ht, hok, hst⟩ := hdev
    refine ⟨t, ht, hst, ?_, fun hin hstat i hi => ?_⟩
    · rw [hst]
      split_ifs with hw
      · obtain ⟨hbound, hdata⟩ := hok.out_ok hw.1 hw.2
        rw [hinv.capacity_eq] at hbound
        have hle : byteOffset r.sector + (bytes mem r.data.gpa.toNat r.data.len.toNat).length ≤
            dev'.disk.data.length := by
          rw [length_bytes, hinv.length_eq]
          omega
        rw [Disk.splice_eq hle] at hdata
        refine ⟨hbound, by rw [hdata, length_overwrite hle], fun x hx => ?_⟩
        rw [hdata, getElem?_overwrite hle, length_bytes]
        split_ifs with hin
        · rw [getElem?_bytes, if_pos (by omega)]
        · rfl
      · exact hok.unchanged hw
    · obtain ⟨hbound, hbytes⟩ := hok.in_ok hin hstat
      rw [hinv.capacity_eq] at hbound
      have hget := congrArg (fun l => l[i]?) hbytes
      simp only [getElem?_bytes, if_pos hi, Disk.getElem?_slice _ hi] at hget
      rw [hinv.data _ (by omega)] at hget
      exact Option.some.inj hget

/-- A disk of one sector. -/
def oneSector : VirtioBlockDevice :=
  new { data := List.replicate 512 0 } length_zeroSector

/-- Guest memory with an OUT request for two bytes: three descriptors, the header, the data. -/
def outRequestMemory : Vmm.MappedMemory :=
  Vmm.MappedMemory.ram 4096 Vmm.MappedMemory.page_pos (Vmm.MappedMemory.image [
    (0, [0, 1, 0, 0, 0, 0, 0, 0, 16, 0, 0, 0, 1, 0, 1, 0]),
    (16, [0, 2, 0, 0, 0, 0, 0, 0, 2, 0, 0, 0, 1, 0, 2, 0]),
    (32, [0, 3, 0, 0, 0, 0, 0, 0, 1, 0, 0, 0, 2, 0, 0, 0]),
    (256, [1]), (512, [7, 9])])

/-- The chain of that request. -/
def outRequestChain : DescriptorChain where
  descGpa := 0
  queueSize := 4
  headIdx := 0
  nextIdx := some 0
  count := 0

/-- The OUT request puts its two bytes at the start of the disk. -/
theorem block_device_is_byte_store_one_sector :
    oneSector.acceptedWrites [(outRequestChain, outRequestMemory)] = [(0, [7, 9])] ∧
      ∃ dev', oneSector.runRequests [(outRequestChain, outRequestMemory)] = some dev' ∧
        ∀ p ∈ dev'.disk.touched, p.1 + p.2 ≤ 512 := by
  have hlen : oneSector.capacity.toNat * sectorSize ≤ oneSector.disk.data.length := by
    decide +kernel
  obtain ⟨dev', hrun, htouched, -⟩ := block_device_is_byte_store oneSector hlen rfl
    [(outRequestChain, outRequestMemory)]
  refine ⟨by decide +kernel, dev', hrun, fun p hp => ?_⟩
  have hcap : oneSector.capacity.toNat * sectorSize = 512 := by decide +kernel
  rw [← hcap]
  exact htouched p hp

end VirtioBlockDevice

end Hitz.Devices
