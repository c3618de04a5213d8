import Hitz.Devices.BlockStore
import Hitz.Devices.Driver

/-!
# The guest's disk, from the register file to the file

A guest brings up the block device, publishes requests and notifies queue 0.  `Driver` says that
every request is served once and in order; here the turns of the queue loop are read as a history of
requests, so that the disk is a byte store over the requests the guest published
(`disk_end_to_end`).
-/

namespace Hitz.Devices

open ByteStore Relation VirtioBlockDevice

variable {M : Type} [ByteStore M]

/-- The requests the turns served, each with the memory it found. -/
def requests (ts : List (Turn VirtioBlockDevice M)) : List (DescriptorChain × M) :=
  ts.map fun t => (t.chain, t.mem)

theorem runRequests_append (reqs reqs' : List (DescriptorChain × M)) :
    ∀ dev : VirtioBlockDevice, dev.runRequests (reqs ++ reqs') =
      (dev.runRequests reqs).bind (·.runRequests reqs') := by
  induction reqs with
  | nil => exact fun dev => rfl
  | cons req rest ih =>
    obtain ⟨chain, mem⟩ := req
    intro dev
    rw [List.cons_append, runRequests, runRequests]
    cases dev.processRequest chain mem with
    | none => rfl
    | some r => exact ih r.dev

theorem processRequest_eq_serve (dev : VirtioBlockDevice) (chain : DescriptorChain) (mem : M) :
    dev.processRequest chain mem = some (dev.serve chain mem) := (Option.some_get _).symm

/-- The turns of a loop are a history of requests, and each finds the device the ones before it
have left. -/
theorem runRequests_served (n : ℕ) : ∀ s : LoopState VirtioBlockDevice M,
    s.dev.runRequests (requests (served serve n s)) = some (turns serve n s).dev ∧
      ∀ k turn, (served serve n s)[k]? = some turn →
        s.dev.runRequests (requests ((served serve n s).take k)) = some turn.dev := by
  induction n with
  | zero => exact fun s => ⟨rfl, fun k turn h => by cases h⟩
  | succ n ih =>
    intro s
    cases hd : drainStep serve s with
    | none =>
      rw [served_of_none hd, turns_of_end hd]
      exact ⟨rfl, fun k turn h => by cases h⟩
    | some s' =>
      obtain ⟨chain, queue, hpop, hs'⟩ := drainStep_eq_some hd
      have hdev : s'.dev = (serve s.dev chain s.mem).dev := by rw [hs']
      obtain ⟨hall, hk⟩ := ih s'
      rw [served_succ hpop hd, turns, hd]
      have hfirst : ∀ rest : List (Turn VirtioBlockDevice M),
          s.dev.runRequests (requests ({ dev := s.dev, chain, mem := s.mem } :: rest)) =
            s'.dev.runRequests (requests rest) := by
        intro rest
        rw [requests, List.map_cons, runRequests, processRequest_eq_serve, hdev]
        rfl
      refine ⟨(hfirst _).trans hall, fun k turn h => ?_⟩
      cases k with
      | zero =>
        cases h
        rfl
      | succ k =>
        rw [List.take_succ_cons, hfirst]
        exact hk k turn h

/-- What every run keeps: the device is what the served requests have left of it, and every request
found what the ones before it have left. -/
structure DiskInv (dev₀ : VirtioBlockDevice) (w : DriverWorld VirtioBlockDevice M) : Prop where
  device : dev₀.runRequests (requests w.turns) = some w.transport.device
  turns : ∀ k turn, w.turns[k]? = some turn →
    dev₀.runRequests (requests (w.turns.take k)) = some turn.dev

theorem DiskInv.step {dev₀ : VirtioBlockDevice} {w w' : DriverWorld VirtioBlockDevice M} {fuel : ℕ}
    (hI : DiskInv dev₀ w) (h : DriverStep serve 0 Eq fuel w w') : DiskInv dev₀ w' := by
  cases h with
  | publish head queue room hpub => exact ⟨hI.device, hI.turns⟩
  | access queue queue' device mem => exact ⟨hI.device.trans (congrArg some device), hI.turns⟩
  | @notify qs t' irq value queue clear hvalue hnotify =>
    obtain ⟨-, -, -, -, -, hdev, -, -⟩ := notify_eq_some drains_block queue hvalue hnotify
    obtain ⟨hall, hk⟩ := runRequests_served fuel (w.loopState qs)
    have happ : ∀ ts : List (Turn VirtioBlockDevice M),
        dev₀.runRequests (requests (w.turns ++ ts)) =
          w.transport.device.runRequests (requests ts) := by
      intro ts
      rw [requests, List.map_append, runRequests_append]
      exact congrArg (Option.bind · _) hI.device
    refine ⟨(happ _).trans (hall.trans (congrArg some hdev.symm)), fun k turn hturn => ?_⟩
    dsimp only at hturn ⊢
    by_cases hlt : k < w.turns.length
    · rw [List.getElem?_append_left hlt] at hturn
      rw [List.take_append_of_le_length hlt.le]
      exact hI.turns k turn hturn
    · rw [List.getElem?_append_right (by omega)] at hturn
      obtain ⟨j, rfl⟩ := Nat.exists_eq_add_of_le (Nat.not_lt.1 hlt)
      rw [List.take_length_add_append, happ]
      rw [Nat.add_sub_cancel_left] at hturn
      exact hk j turn hturn

theorem diskInv_of_run {t : VirtioMmioTransport VirtioBlockDevice M} {fuel : ℕ}
    {w : DriverWorld VirtioBlockDevice M}
    (hrun : ReflTransGen (DriverStep serve 0 Eq fuel) { transport := t } w) :
    DiskInv t.device w := by
  induction hrun with
  | refl => exact ⟨rfl, fun k turn h => by cases h⟩
  | tail _ hstep ih => exact ih.step hstep

/-- What was there before any write of the history. -/
def VirtioBlockDevice.content (dev : VirtioBlockDevice) (x : ℕ) : UInt8 := dev.disk.data.getD x 0

/-- A history of requests that ran has kept the store. -/
theorem storeInv_of_runRequests {dev dev' : VirtioBlockDevice}
    (hlen : dev.capacity.toNat * sectorSize ≤ dev.disk.data.length) (hconf : dev.Confined)
    {reqs : List (DescriptorChain × M)} (h : dev.runRequests reqs = some dev') :
    StoreInv dev (dev.acceptedWrites reqs) dev' := by
  have hstart : StoreInv dev [] dev :=
    ⟨rfl, rfl, hconf, fun x hx => by simp [latest, hx]⟩
  obtain ⟨d, hd, hinv⟩ := StoreInv.run hlen reqs hstart
  rw [h] at hd
  cases hd
  rw [List.append_nil] at hinv
  exact hinv

/-- **The guest's disk.**  Whatever state the transport of a block device is in, once a driver has
brought it up with an empty queue, every run has served the requests published so far, each once
and in order, up to those that still wait; the file is its content at that point overlaid with the
writes accepted since, and no byte past the capacity was touched; a read that succeeded has filled
its buffer with the latest bytes written by the requests served before it; and the next
notification serves everything that waits. -/
theorem disk_end_to_end (fuel : ℕ) (t : VirtioMmioTransport VirtioBlockDevice M)
    (hlen : t.device.capacity.toNat * sectorSize ≤ t.device.disk.data.length)
    (hconf : t.device.Confined) (hqueues : 0 < t.queues.length) (features : UInt64)
    (q : VirtQueue) (hq : q.RingsOk t.mem) (hzero : q.lastAvailIdx = 0)
    (hempty : q.availIdx t.mem = 0) :
    ∃ t₀, writeRegs fuel t (bringUp 0 q.size features q.descGpa q.availGpa q.usedGpa) = some t₀ ∧
      ∀ w : DriverWorld VirtioBlockDevice M,
        ReflTransGen (DriverStep serve 0 Eq fuel) { transport := t₀ } w →
        heads w.turns <+: w.published ∧
        (∀ x < t.device.disk.data.length, w.transport.device.disk.data[x]? =
          some (latest t.device.content (t.device.acceptedWrites (requests w.turns)) x)) ∧
        (∀ p ∈ w.transport.device.disk.touched,
          p.1 + p.2 ≤ t.device.capacity.toNat * sectorSize) ∧
        (∀ k turn r tr, w.turns[k]? = some turn →
          (parseRequest turn.chain turn.mem).1 = some r →
          turn.dev.transfer r turn.mem = some tr → r.reqType = virtioBlkTIn →
          tr.status = virtioBlkSOk → ∀ i < r.data.len.toNat,
          byte tr.mem (r.data.gpa.toNat + i) =
            latest t.device.content (t.device.acceptedWrites (requests (w.turns.take k)))
              (byteOffset r.sector + i)) ∧
        ∀ value qs n, value.toUInt16 = 0 → w.transport.queues[0]? = some qs →
          KeepsRings serve (w.loopState qs) → q.size.toNat < n →
          ∃ t', w.transport.writeReg n 0x050 value = some (some w.transport.irqVector, t') ∧
            heads (w.turns ++ served serve n (w.loopState qs)) = w.published := by
  obtain ⟨t₀, qs, hup, hqs, hqueue, hdev, hmem, -⟩ := writeRegs_bringUp fuel t features
    q.descGpa q.availGpa q.usedGpa (show (0 : UInt16).toNat < t.queues.length from hqueues)
    q.size_pos q.size_le
  refine ⟨t₀, hup, fun w hrun => ?_⟩
  have heq : qs.queue = q := by
    rw [hqueue, ← hzero]
    simp only [← hq.ready]
  have hrings : qs.queue.RingsOk t₀.mem := by rw [heq, hmem]; exact hq
  have hI := driverInv_of_run drains_block hqs hrings
    (by rw [heq, hzero, hmem, hempty]) hrun
  have hD := diskInv_of_run hrun
  rw [hdev] at hD
  have hstore := storeInv_of_runRequests hlen hconf hD.device
  refine ⟨?_, hstore.data, ?_, fun k turn r tr hk hr htr hin hok i hi => ?_,
    fun value qs' n hvalue hqs' clear hn => ?_⟩
  · obtain ⟨_, -, hinv⟩ := hI
    exact hinv.fifo
  · rw [← hstore.capacity_eq]
    exact hstore.confined
  · -- the device the request found
    have hfound := storeInv_of_runRequests hlen hconf (hD.turns k turn hk)
    obtain ⟨tr', htr', hspec⟩ := turn.dev.transfer_spec r turn.mem
    rw [htr] at htr'
    cases htr'
    obtain ⟨hbound, hbytes⟩ := hspec.in_ok hin hok
    rw [hfound.capacity_eq] at hbound
    have hget := congrArg (fun l => l[i]?) hbytes
    simp only [getElem?_bytes, if_pos hi, Disk.getElem?_slice _ hi] at hget
    rw [hfound.data _ (by omega)] at hget
    exact Option.some.inj hget
  · rw [← heq] at hn
    obtain ⟨t', ht', hall, -⟩ := hI.notify_returns drains_block hrings hvalue hqs' clear hn
    exact ⟨t', ht', hall⟩

/-- A queue of four entries: table at 0, available ring at 1024, used ring at 2048. -/
def diskQueue : VirtQueue where
  size := 4
  descGpa := 0
  availGpa := 1024
  usedGpa := 2048
  lastAvailIdx := 0
  ready := true
  size_pos := VirtQueue.four_pos
  size_le := VirtQueue.four_le

theorem ringsOk_diskQueue : diskQueue.RingsOk outRequestMemory where
  ready := rfl
  pow_two := ⟨2, by decide, rfl⟩
  avail_mapped := by decide +kernel
  used_mapped := by decide +kernel
  disjoint := by
    refine Set.disjoint_left.2 fun x hx hx' => ?_
    have h₁ : x < 1036 := hx.2
    have h₂ : 2048 ≤ x := hx'.1
    omega

/-- Memory after the guest has published the request. -/
def diskPublished : Vmm.MappedMemory :=
  (diskQueue.publish outRequestMemory 0).getD outRequestMemory

/-- The request's buffers stay clear of the rings. -/
theorem keepsRings_diskQueue : KeepsRings serve
    { dev := oneSector, queue := diskQueue, mem := diskPublished } := by
  set s : LoopState VirtioBlockDevice Vmm.MappedMemory :=
    { dev := oneSector, queue := diskQueue, mem := diskPublished } with hs
  have hend : drainStep serve (turns serve 1 s) = none :=
    drainStep_eq_none_iff.2 (by decide +kernel)
  intro k p hp
  cases k with
  | succ k =>
    rw [turns_eq_of_end hend (by omega), drainStep_eq_none_iff.1 hend] at hp
    cases hp
  | zero =>
    have hpop : (diskQueue.popChain diskPublished).map (·.1) = some outRequestChain := by
      decide +kernel
    have hchain : p.1 = outRequestChain := by
      have hp' : diskQueue.popChain diskPublished = some p := hp
      rw [hp'] at hpop
      exact Option.some.inj hpop
    have hparse : (parseRequest outRequestChain diskPublished).1 =
        some ⟨1, 0, ⟨512, 2, false⟩⟩ := by decide +kernel
    have hstatus : statusDescriptor oneSector outRequestChain diskPublished =
        some ⟨768, 1, true⟩ := by decide +kernel
    show Agree diskQueue.ringsᶜ diskPublished (serve oneSector p.1 diskPublished).mem
    rw [hchain]
    refine (oneSector.serve_spec outRequestChain diskPublished).1.mono ?_
    rintro x (⟨r, hr, hin, -⟩ | ⟨d, hd, -, rfl⟩)
    · rw [hparse] at hr
      cases hr
      cases hin
    · rw [hstatus] at hd
      cases hd
      rintro (hx | hx)
      · exact absurd hx.1 (by decide)
      · exact absurd hx.1 (by decide)

/-- The transport of a disk of one sector. -/
def diskTransport : VirtioMmioTransport VirtioBlockDevice Vmm.MappedMemory :=
  VirtioMmioTransport.new oneSector outRequestMemory 5

theorem device_diskTransport : diskTransport.device = oneSector := rfl

/-- The guest writes two bytes to the disk. -/
theorem disk_end_to_end_one_sector :
    ∃ t₀ t', writeRegs 8 diskTransport (bringUp 0 4 0 0 1024 2048) = some t₀ ∧
      VirtioMmioTransport.writeReg 8 { t₀ with mem := diskPublished } 0x050 0 =
        some (some t₀.irqVector, t') := by
  have hlen : oneSector.capacity.toNat * sectorSize ≤ oneSector.disk.data.length := by
    decide +kernel
  have hconf : oneSector.Confined := by
    intro p hp
    have htouched : oneSector.disk.touched = [] := rfl
    rw [htouched] at hp
    cases hp
  have hqueues : 0 < diskTransport.queues.length := Nat.one_pos
  obtain ⟨t₀, hup, hrun⟩ := disk_end_to_end 8 diskTransport
    (by rw [device_diskTransport]; exact hlen) (by rw [device_diskTransport]; exact hconf) hqueues 0
    diskQueue ringsOk_diskQueue rfl (by decide +kernel)
  obtain ⟨t₁, qs, hup', hqs, hqueue, hdev, hmem, -⟩ := writeRegs_bringUp 8 diskTransport 0 0 1024
    2048 (show (0 : UInt16).toNat < _ from hqueues) diskQueue.size_pos diskQueue.size_le
  obtain rfl : t₀ = t₁ := Option.some.inj (hup.symm.trans hup')
  have hpub : qs.queue.publish t₀.mem 0 = some diskPublished := by
    have hsome : (diskQueue.publish outRequestMemory 0).isSome = true := by decide +kernel
    rw [hqueue, hmem]
    show diskQueue.publish outRequestMemory 0 = _
    rw [diskPublished, Option.getD_of_ne_none (Option.isSome_iff_ne_none.1 hsome)]
  have hstep : DriverStep serve 0 Eq 8 { transport := t₀ } _ :=
    DriverStep.publish 0 hqs (by rw [hqueue]; exact diskQueue.size_pos) hpub
  have hkeep : KeepsRings serve
      { dev := t₀.device, queue := qs.queue, mem := diskPublished } := by
    rw [hdev, hqueue, device_diskTransport]
    exact keepsRings_diskQueue
  obtain ⟨-, -, -, -, hserve⟩ := hrun _ (ReflTransGen.single hstep)
  obtain ⟨t', ht', -⟩ := hserve 0 qs 8 rfl hqs hkeep (by decide)
  exact ⟨t₀, t', hup, ht'⟩

end Hitz.Devices
