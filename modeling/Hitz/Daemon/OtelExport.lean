import Hitz.Api.Metrics
import Hitz.Lib.Counters

/-!
# Exported guest counters (`publish_to_otel` in `hitz-daemon/src/vsock_server.rs`)

A gauge shows the last value that was recorded, a counter the sum of all values that were added.
The byte counters of a snapshot are totals since the guest's boot, and `publish_to_otel` adds them
to counters, snapshot after snapshot.

`exported_counters_exact_iff` says for which sequences of snapshots the exported values are those of
the last snapshot.
-/

namespace Hitz.Daemon

open Api

/-- The value of a `KeyValue`. -/
inductive AttributeValue
  | string (s : String)
  | i64 (i : ℕ)
  deriving DecidableEq, Repr

/-- The attributes of a measurement. -/
abbrev Labels := List (String × AttributeValue)

/-- A call on an instrument of the meter: `record` of a gauge or `add` of a counter. -/
inductive OtelCall (F : Type)
  | recordF64 (instrument : String) (value : F) (labels : Labels)
  | recordU64 (instrument : String) (value : UInt64) (labels : Labels)
  | add (instrument : String) (value : UInt64) (labels : Labels)

/-- The attributes of the VM, and of one of its devices. -/
def vmLabels (vmId : String) : Labels := [("vm.id", .string vmId)]

def deviceLabels (vmId kind device : String) : Labels :=
  vmLabels vmId ++ [(kind, .string device)]

section

variable {F : Type} (vmId : String)

def cpuCalls (cpu : CpuMetrics F) : List (OtelCall F) :=
  .recordF64 "hitz.guest.cpu_usage" cpu.totalPct (vmLabels vmId) ::
    cpu.perCore.zipIdx.map fun (pct, i) =>
      .recordF64 "hitz.guest.cpu_usage_per_core" pct (vmLabels vmId ++ [("cpu", .i64 i)])

def memoryCalls (memory : MemoryMetrics) : List (OtelCall F) :=
  [.recordU64 "hitz.guest.memory_used_bytes" memory.usedBytes (vmLabels vmId),
    .recordU64 "hitz.guest.memory_total_bytes" memory.totalBytes (vmLabels vmId)]

def diskCalls (disk : DiskMetrics) : List (OtelCall F) :=
  [.add "hitz.guest.disk_read_bytes_total" disk.readBytes (deviceLabels vmId "disk" disk.name),
    .add "hitz.guest.disk_write_bytes_total" disk.writeBytes (deviceLabels vmId "disk" disk.name)]

def netCalls (net : NetMetrics) : List (OtelCall F) :=
  [.add "hitz.guest.net_rx_bytes_total" net.rxBytes (deviceLabels vmId "interface" net.interface),
    .add "hitz.guest.net_tx_bytes_total" net.txBytes (deviceLabels vmId "interface" net.interface)]

/-- `publish_to_otel`: its calls on the meter. -/
def publishToOtel (snap : MetricsSnapshot F) : List (OtelCall F) :=
  cpuCalls vmId snap.cpu ++ memoryCalls vmId snap.memory ++
    snap.disks.flatMap (diskCalls vmId) ++ snap.networks.flatMap (netCalls vmId)

end

variable {F : Type}

/-- What a call adds to the counter with these attributes. -/
def OtelCall.added (instrument : String) (labels : Labels) : OtelCall F → ℕ
  | .add i value l => if i = instrument ∧ l = labels then value.toNat else 0
  | _ => 0

/-- The exported value of a counter. -/
def exported (calls : List (OtelCall F)) (instrument : String) (labels : Labels) : ℕ :=
  (calls.map (OtelCall.added instrument labels)).sum

/-- The byte counters. -/
inductive ByteCounter
  | diskRead
  | diskWrite
  | netRx
  | netTx
  deriving DecidableEq, Repr

namespace ByteCounter

def instrument : ByteCounter → String
  | diskRead => "hitz.guest.disk_read_bytes_total"
  | diskWrite => "hitz.guest.disk_write_bytes_total"
  | netRx => "hitz.guest.net_rx_bytes_total"
  | netTx => "hitz.guest.net_tx_bytes_total"

/-- The attributes of the counter of a device. -/
def labels (vmId device : String) : ByteCounter → Labels
  | diskRead | diskWrite => deviceLabels vmId "disk" device
  | netRx | netTx => deviceLabels vmId "interface" device

def diskReadings (disks : List DiskMetrics) : ByteCounter → List (String × ℕ)
  | diskRead => disks.map fun disk => (disk.name, disk.readBytes.toNat)
  | diskWrite => disks.map fun disk => (disk.name, disk.writeBytes.toNat)
  | netRx | netTx => []

def netReadings (networks : List NetMetrics) : ByteCounter → List (String × ℕ)
  | diskRead | diskWrite => []
  | netRx => networks.map fun net => (net.interface, net.rxBytes.toNat)
  | netTx => networks.map fun net => (net.interface, net.txBytes.toNat)

/-- The values of the counter in a snapshot, by device. -/
def readings (snap : MetricsSnapshot F) (c : ByteCounter) : List (String × ℕ) :=
  c.diskReadings snap.disks ++ c.netReadings snap.networks

end ByteCounter

/-- After each snapshot, the exported counters of its devices are the ones of this snapshot. -/
def CountersExact (vmId : String) (snaps : List (MetricsSnapshot F)) : Prop :=
  ∀ before snap, before ++ [snap] <+: snaps → ∀ c : ByteCounter, ∀ r ∈ c.readings snap,
    exported ((before ++ [snap]).flatMap (publishToOtel vmId)) c.instrument (c.labels vmId r.1) =
      r.2

/-- The counters of a device do not decrease. -/
def NeverDecrease (snaps : List (MetricsSnapshot F)) : Prop :=
  ∀ c : ByteCounter, snaps.Pairwise fun earlier later =>
    ∀ r ∈ c.readings earlier, ∀ r' ∈ c.readings later, r.1 = r'.1 → r.2 ≤ r'.2

/-- A counter of a device that is still to be reported is zero, and so is one that a snapshot holds
twice. -/
def ZeroUntilLast (snaps : List (MetricsSnapshot F)) : Prop :=
  ∀ c : ByteCounter,
    (∀ snap ∈ snaps, (c.readings snap).Pairwise fun r r' => r.1 = r'.1 → r.2 = 0 ∧ r'.2 = 0) ∧
    snaps.Pairwise fun earlier later =>
      ∀ r ∈ c.readings earlier, ∀ r' ∈ c.readings later, r.1 = r'.1 → r.2 = 0

/-! ### What is added -/

theorem exported_append (before after : List (OtelCall F)) (instrument : String) (labels : Labels) :
    exported (before ++ after) instrument labels =
      exported before instrument labels + exported after instrument labels := by
  rw [exported, List.map_append, List.sum_append]
  rfl

theorem deviceLabels_inj {vmId kind device device' : String} :
    deviceLabels vmId kind device = deviceLabels vmId kind device' ↔ device = device' := by
  simp [deviceLabels]

/-- Gauges add nothing. -/
theorem exported_gauges (vmId : String) (snap : MetricsSnapshot F) (instrument : String)
    (labels : Labels) :
    exported (cpuCalls vmId snap.cpu ++ memoryCalls vmId snap.memory) instrument labels = 0 := by
  rw [exported, List.sum_eq_zero]
  intro n hn
  obtain ⟨call, hcall, rfl⟩ := List.mem_map.1 hn
  rcases List.mem_append.1 hcall with hcall | hcall
  · rcases List.mem_cons.1 hcall with rfl | hcall
    · rfl
    · obtain ⟨core, -, rfl⟩ := List.mem_map.1 hcall
      rfl
  · rcases List.mem_pair.1 hcall with rfl | rfl <;> rfl

theorem exported_disks (c : ByteCounter) (vmId device : String) (disks : List DiskMetrics) :
    exported (disks.flatMap (diskCalls (F := F) vmId)) c.instrument (c.labels vmId device) =
      Counters.total device (c.diskReadings disks) := by
  induction disks with
  | nil => cases c <;> rfl
  | cons disk disks ih =>
    rw [List.flatMap_cons, exported_append, ih]
    cases c <;> simp [exported, diskCalls, OtelCall.added, ByteCounter.instrument,
      ByteCounter.labels, ByteCounter.diskReadings, deviceLabels_inj, Counters.total_cons]

theorem exported_networks (c : ByteCounter) (vmId device : String) (networks : List NetMetrics) :
    exported (networks.flatMap (netCalls (F := F) vmId)) c.instrument (c.labels vmId device) =
      Counters.total device (c.netReadings networks) := by
  induction networks with
  | nil => cases c <;> rfl
  | cons net networks ih =>
    rw [List.flatMap_cons, exported_append, ih]
    cases c <;> simp [exported, netCalls, OtelCall.added, ByteCounter.instrument,
      ByteCounter.labels, ByteCounter.netReadings, deviceLabels_inj, Counters.total_cons]

/-- A snapshot adds its readings to the counters of its devices. -/
theorem exported_publish (c : ByteCounter) (vmId device : String) (snap : MetricsSnapshot F) :
    exported (publishToOtel vmId snap) c.instrument (c.labels vmId device) =
      Counters.total device (c.readings snap) := by
  rw [publishToOtel, exported_append, exported_append, exported_gauges, exported_disks,
    exported_networks, ByteCounter.readings, Counters.total_append, Nat.zero_add]

theorem exported_run (c : ByteCounter) (vmId device : String) (snaps : List (MetricsSnapshot F)) :
    exported (snaps.flatMap (publishToOtel vmId)) c.instrument (c.labels vmId device) =
      Counters.total device (snaps.flatMap fun snap => c.readings snap) := by
  induction snaps with
  | nil => rfl
  | cons snap snaps ih =>
    rw [List.flatMap_cons, exported_append, ih, exported_publish, List.flatMap_cons,
      Counters.total_append]

/-- The exported counters are the guest's exactly when a counter was zero in every snapshot before
the last one of its device. -/
theorem exported_counters_exact_iff (vmId : String) (snaps : List (MetricsSnapshot F)) :
    CountersExact vmId snaps ↔ ZeroUntilLast snaps := by
  simp only [CountersExact, exported_run]
  constructor
  · exact fun h c =>
      Counters.total_eq_last_iff.1 fun before snap hearlier => h before snap hearlier c
  · exact fun h before snap hearlier c => Counters.total_eq_last_iff.2 (h c) before snap hearlier

/-- A guest whose only disk has been read once, 512 bytes. -/
def oneDiskRead : MetricsSnapshot Unit where
  timestampMs := 0
  cpu := ⟨(), [], #v[(), (), ()]⟩
  memory := ⟨0, 0, 0, 0, 0, 0, 0⟩
  disks := [⟨"vda", 512, 0, 1, 0⟩]
  networks := []
  processes := []

/-- The second snapshot of a disk that nobody reads doubles its exported counter. -/
theorem second_snapshot_doubles_counter : ¬ ∀ (F : Type) (vmId : String)
    (snaps : List (MetricsSnapshot F)), NeverDecrease snaps → CountersExact vmId snaps := by
  intro h
  have hmono : NeverDecrease [oneDiskRead, oneDiskRead] := by
    intro c
    cases c <;> decide
  have hread := h Unit "vm" _ hmono [oneDiskRead] oneDiskRead List.prefix_rfl .diskRead ("vda", 512)
    (by decide)
  revert hread
  decide +kernel

end Hitz.Daemon
