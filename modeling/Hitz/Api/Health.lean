import Hitz.Api.Metrics
import Hitz.Lib.WrappingSum

/-!
# Health and fingerprint (`hitz-api/src/health.rs`, `hitz-api/src/fingerprint.rs`)

`assess_health` raises a status and gives a reason for every number above one of its thresholds;
`generate_fingerprint` names the buckets that the numbers fall into.  Both add up the counters of
all devices with `u64` additions.  `Floats` is the floating-point side: `F` is `f32` and `D` is
`f64`.
-/

namespace Hitz.Api

open Wrapped

/-- What is done with numbers of one floating-point type. -/
structure FloatOps (F : Type) where
  /-- `x > n` -/
  above : F → ℕ → Bool
  /-- `x < n` -/
  below : F → ℕ → Bool
  /-- `{x:.1}` -/
  fixed : F → String
  /-- `(x / 10.0).clamp(0.0, 10.0) as u32` -/
  tenth : F → UInt32

/-- The floating-point side of the assessments. -/
structure Floats (F D : Type) where
  single : FloatOps F
  double : FloatOps D
  /-- `(part as f64 / whole as f64) * 100.0` -/
  percent : (part whole : UInt64) → D
  /-- `(n as f64).log10().clamp(0.0, 9.0) as u32` -/
  magnitude : ℕ → UInt32

/-! ### Health -/

/-- The overall health status. -/
inductive HealthStatus
  | healthy
  | warning
  | critical
  deriving DecidableEq, Repr

/-- The worse of two. -/
def HealthStatus.max : HealthStatus → HealthStatus → HealthStatus
  | .healthy, status => status
  | status, .healthy => status
  | .warning, .warning => .warning
  | .critical, _ => .critical
  | _, .critical => .critical

/-- The result of a health assessment. -/
structure SystemHealth where
  status : HealthStatus
  reasons : List String
  deriving DecidableEq, Repr

namespace SystemHealth

/-- Raise the status and give the reason. -/
def raise (health : SystemHealth) (status : HealthStatus) (reason : String) : SystemHealth :=
  ⟨health.status.max status, health.reasons ++ [reason]⟩

/-- One evaluation: two thresholds, and the reasons that go with them. -/
def evaluate (health : SystemHealth) (critical warning : Bool)
    (criticalReason warningReason : String) : SystemHealth :=
  if critical then health.raise .critical criticalReason
  else if warning then health.raise .warning warningReason
  else health

/-- There is a reason exactly if the system is not healthy. -/
def Reasoned (health : SystemHealth) : Prop := health.reasons = [] ↔ health.status = .healthy

end SystemHealth

section

variable {F D : Type} (fl : Floats F D)

def evaluateCpu (cpu : CpuMetrics F) (health : SystemHealth) : SystemHealth :=
  health.evaluate (fl.single.above cpu.totalPct 90) (fl.single.above cpu.totalPct 75)
    ("Critical CPU usage: " ++ fl.single.fixed cpu.totalPct ++ "%")
    ("High CPU usage: " ++ fl.single.fixed cpu.totalPct ++ "%")

def evaluateMemory (memory : MemoryMetrics) (health : SystemHealth) : SystemHealth :=
  if 0 < memory.totalBytes then
    let memoryPct := fl.percent memory.usedBytes memory.totalBytes
    health.evaluate (fl.double.above memoryPct 90) (fl.double.above memoryPct 75)
      ("Critical memory usage: " ++ fl.double.fixed memoryPct ++ "%")
      ("High memory usage: " ++ fl.double.fixed memoryPct ++ "%")
  else health

def evaluateSwap (memory : MemoryMetrics) (health : SystemHealth) : SystemHealth :=
  if 0 < memory.swapTotal then
    let swapPct := fl.percent memory.swapUsed memory.swapTotal
    health.evaluate (fl.double.above swapPct 50) (fl.double.above swapPct 20)
      ("Critical swap usage: " ++ fl.double.fixed swapPct ++ "%")
      ("High swap usage: " ++ fl.double.fixed swapPct ++ "%")
  else health

def evaluateNetwork (totalNetErrors : ℕ) (health : SystemHealth) : SystemHealth :=
  health.evaluate (decide (100 < totalNetErrors)) (decide (10 < totalNetErrors))
    ("Critical network errors: " ++ toString totalNetErrors)
    ("Elevated network errors: " ++ toString totalNetErrors)

/-- The assessment for a total of network errors. -/
def healthOf (m : MetricsSnapshot F) (totalNetErrors : ℕ) : SystemHealth :=
  evaluateNetwork totalNetErrors
    (evaluateSwap fl m.memory (evaluateMemory fl m.memory (evaluateCpu fl m.cpu ⟨.healthy, []⟩)))

/-- `assess_health`. -/
def assessHealth (m : MetricsSnapshot F) : Wrapped SystemHealth := do
  let totalNetErrors ← sum (fun net => add net.rxErrors net.txErrors) m.networks
  pure (healthOf fl m totalNetErrors.toNat)

/-! ### Fingerprint -/

/-- A discrete identifier for the resource usage of a VM. -/
structure VmFingerprint where
  id : String
  deriving DecidableEq, Repr

def ramBucket (memory : MemoryMetrics) : UInt32 :=
  if 0 < memory.totalBytes then
    fl.double.tenth (fl.percent memory.usedBytes memory.totalBytes)
  else 0

/-- The bucket for a total of bytes. -/
def bytesBucket (total : ℕ) : UInt32 := if 0 < total then fl.magnitude total else 0

/-- The fingerprint for the totals of bytes. -/
def fingerprintOf (m : MetricsSnapshot F) (totalDiskBytes totalNetBytes : ℕ) : VmFingerprint :=
  ⟨"FP-C" ++ toString (fl.single.tenth m.cpu.totalPct) ++ "-R" ++ toString (ramBucket fl m.memory)
    ++ "-D" ++ toString (bytesBucket fl totalDiskBytes)
    ++ "-N" ++ toString (bytesBucket fl totalNetBytes)⟩

/-- `generate_fingerprint`. -/
def generateFingerprint (m : MetricsSnapshot F) : Wrapped VmFingerprint := do
  let totalDiskBytes ← sum (fun disk => add disk.readBytes disk.writeBytes) m.disks
  let totalNetBytes ← sum (fun net => add net.rxBytes net.txBytes) m.networks
  pure (fingerprintOf fl m totalDiskBytes.toNat totalNetBytes.toNat)

end

/-! ### The exact totals -/

namespace MetricsSnapshot

variable {F : Type} (m : MetricsSnapshot F)

def netErrors : ℕ := (m.networks.map fun net => net.rxErrors.toNat + net.txErrors.toNat).sum

def diskBytes : ℕ := (m.disks.map fun disk => disk.readBytes.toNat + disk.writeBytes.toNat).sum

def netBytes : ℕ := (m.networks.map fun net => net.rxBytes.toNat + net.txBytes.toNat).sum

end MetricsSnapshot

section

variable {F D : Type} (fl : Floats F D) (m : MetricsSnapshot F)

theorem sum_netErrors :
    sum (fun net => add net.rxErrors net.txErrors) m.networks = of m.netErrors := by
  simp only [add_eq_of, sum_of, MetricsSnapshot.netErrors]

theorem sum_diskBytes :
    sum (fun disk => add disk.readBytes disk.writeBytes) m.disks = of m.diskBytes := by
  simp only [add_eq_of, sum_of, MetricsSnapshot.diskBytes]

theorem sum_netBytes : sum (fun net => add net.rxBytes net.txBytes) m.networks = of m.netBytes := by
  simp only [add_eq_of, sum_of, MetricsSnapshot.netBytes]

theorem assessHealth_eq_pure_iff :
    assessHealth fl m = pure (healthOf fl m m.netErrors) ↔ m.netErrors < 2 ^ 64 := by
  rw [assessHealth, sum_netErrors]
  exact of_bind_pure_iff m.netErrors (healthOf fl m)

theorem generateFingerprint_eq_pure_iff :
    generateFingerprint fl m = pure (fingerprintOf fl m m.diskBytes m.netBytes) ↔
      m.diskBytes < 2 ^ 64 ∧ m.netBytes < 2 ^ 64 := by
  rw [generateFingerprint, sum_diskBytes, sum_netBytes]
  exact of_bind_of_bind_pure_iff m.diskBytes m.netBytes (fingerprintOf fl m)

end

/-! ### Reasons -/

theorem HealthStatus.max_eq_healthy_iff {a b : HealthStatus} :
    a.max b = .healthy ↔ a = .healthy ∧ b = .healthy := by
  cases a <;> cases b <;> decide

theorem SystemHealth.reasoned_raise (health : SystemHealth) {status : HealthStatus}
    (h : status ≠ .healthy) (reason : String) : (health.raise status reason).Reasoned := by
  constructor
  · intro hnil
    exact absurd hnil (List.concat_ne_nil _ _)
  · intro hhealthy
    exact absurd (HealthStatus.max_eq_healthy_iff.1 hhealthy).2 h

/-- An evaluation keeps status and reasons together. -/
theorem SystemHealth.Reasoned.evaluate {health : SystemHealth} (h : health.Reasoned)
    (critical warning : Bool) (criticalReason warningReason : String) :
    (health.evaluate critical warning criticalReason warningReason).Reasoned := by
  rw [SystemHealth.evaluate]
  split_ifs
  · exact health.reasoned_raise (by decide) criticalReason
  · exact health.reasoned_raise (by decide) warningReason
  · exact h

/-- The reasons are empty exactly if the status is healthy, also where the total wrapped. -/
theorem assessHealth_reasoned {F D : Type} (fl : Floats F D) (m : MetricsSnapshot F) :
    (assessHealth fl m).value.Reasoned := by
  have hcpu : (evaluateCpu fl m.cpu ⟨.healthy, []⟩).Reasoned :=
    SystemHealth.Reasoned.evaluate (iff_of_true rfl rfl) _ _ _ _
  have hmemory : (evaluateMemory fl m.memory (evaluateCpu fl m.cpu ⟨.healthy, []⟩)).Reasoned := by
    rw [evaluateMemory]
    split_ifs
    · exact hcpu.evaluate _ _ _ _
    · exact hcpu
  have hswap : (evaluateSwap fl m.memory
      (evaluateMemory fl m.memory (evaluateCpu fl m.cpu ⟨.healthy, []⟩))).Reasoned := by
    rw [evaluateSwap]
    split_ifs
    · exact hmemory.evaluate _ _ _ _
    · exact hmemory
  exact hswap.evaluate _ _ _ _

end Hitz.Api
