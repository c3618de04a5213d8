import Mathlib

/-!
# Guest metrics (`hitz-api/src/metrics.rs`)

`F` is the type of the floating-point numbers of the source, `f32`.
-/

namespace Hitz.Api

variable (F : Type)

/-- CPU utilisation: overall, per core, and the load averages over 1, 5 and 15 minutes. -/
structure CpuMetrics where
  totalPct : F
  perCore : List F
  loadAvg : Vector F 3

/-- Memory utilisation in bytes. -/
structure MemoryMetrics where
  totalBytes : UInt64
  usedBytes : UInt64
  freeBytes : UInt64
  buffersBytes : UInt64
  cachedBytes : UInt64
  swapTotal : UInt64
  swapUsed : UInt64

/-- A block device; the numbers are totals since boot. -/
structure DiskMetrics where
  name : String
  readBytes : UInt64
  writeBytes : UInt64
  readsTotal : UInt64
  writesTotal : UInt64

/-- A network interface; the numbers are totals since boot. -/
structure NetMetrics where
  interface : String
  rxBytes : UInt64
  txBytes : UInt64
  rxPackets : UInt64
  txPackets : UInt64
  rxErrors : UInt64
  txErrors : UInt64

/-- A process. -/
structure ProcMetrics where
  pid : UInt32
  name : String
  cpuPct : F
  rssBytes : UInt64
  state : Char

/-- A snapshot of the guest. -/
structure MetricsSnapshot where
  timestampMs : UInt64
  cpu : CpuMetrics F
  memory : MemoryMetrics
  disks : List DiskMetrics
  networks : List NetMetrics
  processes : List (ProcMetrics F)

end Hitz.Api
