import Hitz.GuestAgent.ProcStat

/-!
# CPU utilisation (`hitz-guest-agent/src/proc.rs`)

The agent reads `/proc/stat` twice and divides the busy ticks between the two by all ticks.

* `active` and `total` are saturated sums (`toNat_active`, `toNat_total`);
* `Bounded`: the quotient is at most 100 per cent;
* `IdleKeepsUp`: when both sums have grown, the idle ticks have not gone down, and the busy ticks
  leave room for them below `2 ^ 64`.

`utilisation_bounded_iff`: these are the samples with a quotient of at most 100 per cent.
-/

namespace Hitz.GuestAgent

open Words

/-- `u64::saturating_add`. -/
def saturatingAdd (a b : UInt64) : UInt64 := UInt64.ofNat (min (a.toNat + b.toNat) (2 ^ 64 - 1))

/-- `u64::saturating_sub`. -/
def saturatingSub (a b : UInt64) : UInt64 := UInt64.ofNat (a.toNat - b.toNat)

theorem toNat_saturatingAdd (a b : UInt64) :
    (saturatingAdd a b).toNat = min (a.toNat + b.toNat) (2 ^ 64 - 1) := by
  rw [saturatingAdd, UInt64.toNat_ofNat', Nat.mod_eq_of_lt (by omega)]

theorem toNat_saturatingSub (a b : UInt64) : (saturatingSub a b).toNat = a.toNat - b.toNat := by
  have ha := a.toNat_lt
  rw [saturatingSub, UInt64.toNat_ofNat', Nat.mod_eq_of_lt (by omega)]

/-- The ticks of a CPU, from a line of `/proc/stat`. -/
structure CpuSample where
  user : UInt64
  nice : UInt64
  system : UInt64
  idle : UInt64
  iowait : UInt64
  irq : UInt64
  softirq : UInt64
  deriving DecidableEq, Repr

namespace CpuSample

/-- Total active ticks. -/
def active (s : CpuSample) : UInt64 :=
  saturatingAdd (saturatingAdd (saturatingAdd (saturatingAdd s.user s.nice) s.system) s.irq)
    s.softirq

/-- Total ticks. -/
def total (s : CpuSample) : UInt64 := saturatingAdd (saturatingAdd s.active s.idle) s.iowait

/-- The busy ticks, without saturation. -/
def busy (s : CpuSample) : ℕ :=
  s.user.toNat + s.nice.toNat + s.system.toNat + s.irq.toNat + s.softirq.toNat

/-- The ticks without work. -/
def unused (s : CpuSample) : ℕ := s.idle.toNat + s.iowait.toNat

end CpuSample

/-- The difference that `cpu_pct` divides. -/
def activeDelta (prev curr : CpuSample) : UInt64 := saturatingSub curr.active prev.active

/-- The difference that `cpu_pct` divides by. -/
def totalDelta (prev curr : CpuSample) : UInt64 := saturatingSub curr.total prev.total

/-- `cpu_pct`, as the exact quotient. -/
def CpuSample.cpuPct (prev curr : CpuSample) : ℚ :=
  if totalDelta prev curr = 0 then 0
  else ((activeDelta prev curr).toNat : ℚ) / (totalDelta prev curr).toNat * 100

/-- `parse_proc_stat_sample`. -/
def parseProcStatSample (content : String) : List CpuSample :=
  ((lines content.toList).filter fun line => "cpu".toList.isPrefixOf line).map fun line =>
    let nums := ((split isAsciiWhitespace line).drop 1).map fun s => (parseU64 s).getD 0
    { user := nums[0]?.getD 0
      nice := nums[1]?.getD 0
      system := nums[2]?.getD 0
      idle := nums[3]?.getD 0
      iowait := nums[4]?.getD 0
      irq := nums[5]?.getD 0
      softirq := nums[6]?.getD 0 }

/-- No more than all of the time was spent busy. -/
structure Bounded (prev curr : CpuSample) : Prop where
  delta : totalDelta prev curr ≠ 0 → activeDelta prev curr ≤ totalDelta prev curr
  nonneg : 0 ≤ CpuSample.cpuPct prev curr
  le_hundred : CpuSample.cpuPct prev curr ≤ 100

/-- If the busy ticks and all ticks have increased, then the idle ones have not decreased, and the
new busy ticks with the old idle ones are below `2 ^ 64`. -/
def IdleKeepsUp (prev curr : CpuSample) : Prop :=
  prev.busy < curr.busy → prev.busy + prev.unused < curr.busy + curr.unused →
    prev.busy + prev.unused < 2 ^ 64 - 1 →
    prev.unused ≤ curr.unused ∧ (prev.unused = 0 ∨ curr.busy + prev.unused < 2 ^ 64)

theorem toNat_active (s : CpuSample) : s.active.toNat = min s.busy (2 ^ 64 - 1) := by
  simp only [CpuSample.active, CpuSample.busy, toNat_saturatingAdd]
  omega

theorem toNat_total (s : CpuSample) : s.total.toNat = min (s.busy + s.unused) (2 ^ 64 - 1) := by
  simp only [CpuSample.total, CpuSample.unused, toNat_saturatingAdd, toNat_active]
  omega

theorem toNat_activeDelta (prev curr : CpuSample) : (activeDelta prev curr).toNat =
    min curr.busy (2 ^ 64 - 1) - min prev.busy (2 ^ 64 - 1) := by
  rw [activeDelta, toNat_saturatingSub, toNat_active, toNat_active]

theorem toNat_totalDelta (prev curr : CpuSample) : (totalDelta prev curr).toNat =
    min (curr.busy + curr.unused) (2 ^ 64 - 1) - min (prev.busy + prev.unused) (2 ^ 64 - 1) := by
  rw [totalDelta, toNat_saturatingSub, toNat_total, toNat_total]

/-- The bound on the two differences, in terms of the ticks. -/
theorem activeDelta_le_iff {prev curr : CpuSample} :
    (totalDelta prev curr ≠ 0 → activeDelta prev curr ≤ totalDelta prev curr) ↔
      IdleKeepsUp prev curr := by
  rw [Ne, ← UInt64.toNat_inj, UInt64.le_iff_toNat_le, toNat_activeDelta, toNat_totalDelta,
    IdleKeepsUp, UInt64.toNat_zero]
  omega

theorem bounded_iff {prev curr : CpuSample} : Bounded prev curr ↔ IdleKeepsUp prev curr := by
  rw [← activeDelta_le_iff]
  refine ⟨Bounded.delta, fun h => ?_⟩
  by_cases hzero : totalDelta prev curr = 0
  · have hpct : CpuSample.cpuPct prev curr = 0 := if_pos hzero
    exact ⟨h, hpct.ge, by rw [hpct]; norm_num⟩
  · have hpct : CpuSample.cpuPct prev curr =
        ((activeDelta prev curr).toNat : ℚ) / (totalDelta prev curr).toNat * 100 := if_neg hzero
    have hle : ((activeDelta prev curr).toNat : ℚ) ≤ (totalDelta prev curr).toNat :=
      Nat.cast_le.2 (UInt64.le_iff_toNat_le.1 (h hzero))
    have hquot : ((activeDelta prev curr).toNat : ℚ) / (totalDelta prev curr).toNat ≤ 1 :=
      div_le_one_of_le₀ hle (Nat.cast_nonneg _)
    refine ⟨h, ?_, ?_⟩
    · rw [hpct]
      positivity
    · rw [hpct]
      linarith

/-- The samples that two readings have of CPU number `i`, the first one being all CPUs together. -/
def PairedSamples (prev curr : String) (i : ℕ) (p c : CpuSample) : Prop :=
  (parseProcStatSample prev)[i]? = some p ∧ (parseProcStatSample curr)[i]? = some c
  deriving Decidable

/-- **The utilisation is at most 100 per cent** for a CPU of two readings exactly when its idle
ticks keep up. -/
theorem utilisation_bounded_iff (prev curr : String) (i : ℕ) :
    (∀ p c, PairedSamples prev curr i p c → Bounded p c) ↔
      ∀ p c, PairedSamples prev curr i p c → IdleKeepsUp p c := by
  simp only [bounded_iff]

/-- The idle ticks go down by four, as the kernel lets them, and five ticks are busy. -/
theorem utilisation_of_five_hundred :
    PairedSamples "cpu 0 0 0 10" "cpu 5 0 0 6" 0 ⟨0, 0, 0, 10, 0, 0, 0⟩ ⟨5, 0, 0, 6, 0, 0, 0⟩ ∧
      CpuSample.cpuPct ⟨0, 0, 0, 10, 0, 0, 0⟩ ⟨5, 0, 0, 6, 0, 0, 0⟩ = 500 ∧
      ¬ ∀ prev curr i p c, PairedSamples prev curr i p c → Bounded p c := by
  have hpaired : PairedSamples "cpu 0 0 0 10" "cpu 5 0 0 6" 0 ⟨0, 0, 0, 10, 0, 0, 0⟩
      ⟨5, 0, 0, 6, 0, 0, 0⟩ := by decide +kernel
  have hactive : (activeDelta ⟨0, 0, 0, 10, 0, 0, 0⟩ ⟨5, 0, 0, 6, 0, 0, 0⟩).toNat = 5 := rfl
  have htotal : totalDelta ⟨0, 0, 0, 10, 0, 0, 0⟩ ⟨5, 0, 0, 6, 0, 0, 0⟩ = 1 := rfl
  have hone : (1 : UInt64).toNat = 1 := rfl
  have hpct : CpuSample.cpuPct ⟨0, 0, 0, 10, 0, 0, 0⟩ ⟨5, 0, 0, 6, 0, 0, 0⟩ = 500 := by
    rw [CpuSample.cpuPct, htotal, if_neg (by decide), hactive, hone]
    norm_num
  refine ⟨hpaired, hpct, fun h => ?_⟩
  have hle := (h _ _ _ _ _ hpaired).le_hundred
  rw [hpct] at hle
  norm_num at hle

end Hitz.GuestAgent
