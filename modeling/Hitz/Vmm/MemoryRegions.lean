import Hitz.Lib.Runs
import Hitz.Vmm.Memory

/-!
# Adding regions to guest memory

Runs of `add_region` on an empty memory, with an allocator that always succeeds.

* `RegionInv`: sorted by start, no overlap by the test of `add_region`, ends below `2^64`; every
  run keeps it (`RegionInv.addStep`);
* `Exact`: the regions are sorted and disjoint, a rejected call changes nothing, and the lookup
  finds exactly the ranges that one region contains.

A size of zero is accepted and gives an empty region.  A later region on the same start is
inserted in front of it, and the lookup then stops at the empty one; that is the only way to lose
a region (`addRegion_exact_iff`).
-/

namespace Hitz.Vmm

open BinarySearch Intervals
open scoped List

/-- A call of `add_region`, with the host address the allocator answers. -/
structure AddCall where
  gpa : UInt64
  size : UInt64
  hva : ℕ

namespace GuestMemory

/-- The state after a call; a rejected call leaves the memory as it was. -/
def addStep (m : GuestMemory) (c : AddCall) : GuestMemory :=
  match addRegion (fun _ => some c.hva) m c.gpa c.size with
  | .ok m' => m'
  | .error _ => m

/-- What `find_region` returns: the host pointer and the bytes that remain in the region. -/
def resolve (m : GuestMemory) (gpa len : UInt64) : Except MemError (ℕ × ℕ) := do
  let (idx, offset, remaining) ← findRegion m gpa.toNat len.toNat
  .ok (((m.regions[idx]?).map GuestRegion.hva).getD 0 + offset, remaining)

/-- The lookup is exact. -/
def LookupExact (m : GuestMemory) : Prop :=
  ∀ gpa len : UInt64, 1 ≤ len.toNat → ∀ p n,
    resolve m gpa len = .ok (p, n) ↔ ∃ r ∈ m.regions, r.gpaStart.toNat ≤ gpa.toNat ∧
      gpa.toNat + len.toNat ≤ r.gpaStart.toNat + r.size.toNat ∧
      p = r.hva + (gpa.toNat - r.gpaStart.toNat) ∧
      n = r.size.toNat - (gpa.toNat - r.gpaStart.toNat)

/-- The regions are in order and disjoint, a rejected call changes nothing, and the lookup is
exact. -/
structure Exact (m : GuestMemory) : Prop where
  sorted : m.regions.Pairwise fun r s => r.gpaStart.toNat ≤ s.gpaStart.toNat
  disjoint : m.regions.Pairwise fun r s =>
    ∀ x, ¬(GuestRegion.Contains r x ∧ GuestRegion.Contains s x)
  rejected : ∀ (c : AddCall) e,
    addRegion (fun _ => some c.hva) m c.gpa c.size = .error e → (addStep m c).regions = m.regions
  lookup : LookupExact m

/-- The range of a call, rounded up to pages, ends below `2^64` and passes the overlap test. -/
def Placeable (m : GuestMemory) (gpa size : UInt64) : Prop :=
  ∃ aligned, alignUp size.toNat pageSize = some aligned ∧ gpa.toNat + aligned < 2 ^ 64 ∧
    ∀ r ∈ m.regions, ¬(gpa.toNat < r.stop ∧ r.gpaStart.toNat < gpa.toNat + aligned)

/-- The call puts a non-empty region on the start of an empty one. -/
def CoversEmpty (m : GuestMemory) (c : AddCall) : Prop :=
  0 < c.size.toNat ∧ Placeable m c.gpa c.size ∧
    ∃ r ∈ m.regions, r.size.toNat = 0 ∧ r.gpaStart = c.gpa

/-- What every run of `add_region` keeps. -/
structure RegionInv (m : GuestMemory) : Prop where
  laid : Laid GuestRegion.lo GuestRegion.hi m.regions
  bound : ∀ r ∈ m.regions, r.hi < 2 ^ 64

/-! ### One call -/

theorem addStep_of_ok {m m' : GuestMemory} {c : AddCall}
    (h : addRegion (fun _ => some c.hva) m c.gpa c.size = .ok m') : addStep m c = m' := by
  unfold addStep
  rw [h]

theorem addStep_of_error {m : GuestMemory} {c : AddCall} {e : MemError}
    (h : addRegion (fun _ => some c.hva) m c.gpa c.size = .error e) : addStep m c = m := by
  unfold addStep
  rw [h]

theorem alignUp_some {n aligned : ℕ} (h : alignUp n pageSize = some aligned) :
    n ≤ aligned ∧ aligned < 2 ^ 64 ∧ (0 < aligned ↔ 0 < n) := by
  unfold alignUp at h
  by_cases hlt : n + (pageSize - 1) < 2 ^ 64
  · rw [if_pos hlt] at h
    have hal := Option.some.inj h
    simp only [pageSize] at hlt hal
    omega
  · rw [if_neg hlt] at h
    cases h

/-- Where a region is inserted. -/
def insertPos (m : GuestMemory) (gpa : UInt64) : ℕ :=
  match binarySearchBy (fun r => compare r.gpaStart.toNat gpa.toNat) m.regions with
  | .ok i => i
  | .error i => i

/-- The memory with a region put in its place. -/
def inserted (m : GuestMemory) (r : GuestRegion) : GuestMemory :=
  { m with regions := m.regions.take (insertPos m r.gpaStart) ++
      r :: m.regions.drop (insertPos m r.gpaStart) }

/-- A call is rejected, or it inserts an empty or non-empty region that overlaps no other. -/
theorem addRegion_cases (m : GuestMemory) (c : AddCall) :
    (¬Placeable m c.gpa c.size ∧
      ∃ e, addRegion (fun _ => some c.hva) m c.gpa c.size = .error e) ∨
    (Placeable m c.gpa c.size ∧ ∃ r : GuestRegion, r.gpaStart = c.gpa ∧ r.hva = c.hva ∧
      r.hi < 2 ^ 64 ∧ (0 < r.size.toNat ↔ 0 < c.size.toNat) ∧
      (∀ s ∈ m.regions, ¬(r.lo < s.stop ∧ s.lo < r.hi)) ∧
      addRegion (fun _ => some c.hva) m c.gpa c.size = .ok (inserted m r)) := by
  unfold addRegion
  cases hal : alignUp c.size.toNat pageSize with
  | none =>
    left
    refine ⟨?_, _, rfl⟩
    rintro ⟨aligned, h, -⟩
    rw [hal] at h
    cases h
  | some aligned =>
    obtain ⟨-, hlt, hpos⟩ := alignUp_some hal
    by_cases h64 : 2 ^ 64 ≤ c.gpa.toNat + aligned
    · left
      refine ⟨?_, _, if_pos h64⟩
      rintro ⟨aligned', h, hfit, -⟩
      rw [hal] at h
      cases h
      omega
    · simp only [if_neg h64]
      have hval : (UInt64.ofNat aligned).toNat = aligned := by
        rw [UInt64.toNat_ofNat']
        exact Nat.mod_eq_of_lt hlt
      split_ifs with hany
      · left
        refine ⟨?_, _, rfl⟩
        rintro ⟨aligned', h, -, hno⟩
        rw [hal] at h
        cases h
        obtain ⟨r, hr, hover⟩ := List.any_eq_true.1 hany
        simp only [Bool.and_eq_true, decide_eq_true_eq] at hover
        exact hno r hr hover
      · right
        have hno : ∀ r ∈ m.regions,
            ¬(c.gpa.toNat < r.stop ∧ r.gpaStart.toNat < c.gpa.toNat + aligned) := by
          intro r hr hover
          apply hany
          exact List.any_eq_true.2 ⟨r, hr, by simpa using hover⟩
        refine ⟨⟨aligned, hal, by omega, hno⟩,
          ⟨c.gpa, UInt64.ofNat aligned, c.hva, fun _ => 0⟩, rfl, rfl, ?_, ?_, ?_, rfl⟩
        · simp only [GuestRegion.hi, hval]
          omega
        · simp only [hval]
          exact hpos
        · simp only [GuestRegion.lo, GuestRegion.hi, hval]
          exact hno

theorem RegionInv.stop_eq {m : GuestMemory} (h : RegionInv m) {r : GuestRegion}
    (hr : r ∈ m.regions) : r.stop = r.hi := by
  have := h.bound r hr
  simp only [GuestRegion.stop, GuestRegion.hi] at this ⊢
  omega

/-- The insertion point: in front of the last region with this start, or behind everything below
it when there is none. -/
theorem RegionInv.insertPos_cases {m : GuestMemory} (h : RegionInv m) (gpa : UInt64) :
    (∃ s, LastBelow GuestRegion.lo gpa.toNat m.regions (insertPos m gpa) ∧
      m.regions[insertPos m gpa]? = some s ∧ s.lo = gpa.toNat) ∨
    (∀ s ∈ m.regions.take (insertPos m gpa), s.lo < gpa.toNat) ∧
      ∀ s ∈ m.regions.drop (insertPos m gpa), gpa.toNat < s.lo := by
  have hcmp : ∀ r ∈ m.regions,
      compare r.gpaStart.toNat gpa.toNat = .gt ↔ gpa.toNat < GuestRegion.lo r := by
    intro r _
    exact Nat.compare_eq_gt
  unfold insertPos
  cases hb : binarySearchBy (fun r => compare r.gpaStart.toNat gpa.toNat) m.regions with
  | ok i =>
    left
    obtain ⟨hlast, heq⟩ := (binarySearchBy_eq_ok_iff h.laid.sorted hcmp).1 hb
    obtain ⟨s, hs, -⟩ := hlast.1
    have hlo : s.lo = gpa.toNat := by simpa [cmpAt, hs, GuestRegion.lo] using heq
    exact ⟨s, hlast, hs, hlo⟩
  | error k =>
    right
    rcases binarySearchBy_eq_error h.laid.sorted hcmp hb with ⟨rfl, hall⟩ | ⟨i, rfl, hlast, hlt⟩
    · simpa using hall
    · obtain ⟨s, hs, -⟩ := hlast.1
      have hlo : s.lo < gpa.toNat := by
        simpa [cmpAt, hs, GuestRegion.lo, Nat.compare_eq_lt] using hlt
      constructor
      · intro t ht
        obtain ⟨j, hj⟩ := List.mem_iff_getElem?.1 ht
        rw [List.getElem?_take] at hj
        split_ifs at hj with hji
        rcases Nat.lt_or_eq_of_le (Nat.le_of_lt_succ hji) with hlt' | rfl
        · exact lt_of_le_of_lt (h.laid.apart_of_lt hlt' hj hs).1 hlo
        · rw [hj] at hs
          cases hs
          exact hlo
      · intro t ht
        obtain ⟨j, hj⟩ := List.mem_iff_getElem?.1 ht
        rw [List.getElem?_drop] at hj
        exact hlast.2 (i + 1 + j) t (by omega) hj

/-- Everything in front of the insertion point starts at or below the new region, everything
behind it at or above. -/
theorem RegionInv.around_insertPos {m : GuestMemory} (h : RegionInv m) (gpa : UInt64) :
    (∀ s ∈ m.regions.take (insertPos m gpa), s.lo ≤ gpa.toNat) ∧
      ∀ s ∈ m.regions.drop (insertPos m gpa), gpa.toNat ≤ s.lo := by
  rcases h.insertPos_cases gpa with ⟨s, -, hs, hlo⟩ | ⟨hbelow, habove⟩
  · constructor
    · intro t ht
      obtain ⟨j, hj⟩ := List.mem_iff_getElem?.1 ht
      rw [List.getElem?_take] at hj
      split_ifs at hj with hji
      rw [← hlo]
      exact (h.laid.apart_of_lt hji hj hs).1
    · intro t ht
      obtain ⟨j, hj⟩ := List.mem_iff_getElem?.1 ht
      rw [List.getElem?_drop] at hj
      rcases Nat.eq_zero_or_pos j with rfl | hpos
      · rw [Nat.add_zero, hs] at hj
        cases hj
        exact hlo.ge
      · rw [← hlo]
        exact (h.laid.apart_of_lt (Nat.lt_add_of_pos_right hpos) hs hj).1
  · exact ⟨fun t ht => (hbelow t ht).le, fun t ht => (habove t ht).le⟩

theorem regions_sublist_inserted (m : GuestMemory) (r : GuestRegion) :
    m.regions <+ (inserted m r).regions := by
  calc m.regions = m.regions.take (insertPos m r.gpaStart) ++
        m.regions.drop (insertPos m r.gpaStart) := (List.take_append_drop _ _).symm
    _ <+ (inserted m r).regions :=
      (List.Sublist.refl _).append (List.sublist_cons_self r _)

theorem inserted_perm (m : GuestMemory) (r : GuestRegion) :
    (inserted m r).regions ~ r :: m.regions := by
  refine List.perm_middle.trans (List.Perm.cons r ?_)
  rw [List.take_append_drop]

theorem mem_inserted {m : GuestMemory} {r s : GuestRegion} :
    s ∈ (inserted m r).regions ↔ s = r ∨ s ∈ m.regions := by
  rw [(inserted_perm m r).mem_iff, List.mem_cons]

/-- Inserting a region that overlaps no other keeps the invariant. -/
theorem RegionInv.inserted {m : GuestMemory} (h : RegionInv m) {r : GuestRegion}
    (hb : r.hi < 2 ^ 64)
    (hap : ∀ s ∈ m.regions, Apart GuestRegion.lo GuestRegion.hi r s) :
    RegionInv (inserted m r) := by
  obtain ⟨hbelow, habove⟩ := h.around_insertPos r.gpaStart
  refine ⟨⟨?_, ?_, fun s _ => Nat.le_add_right _ _⟩, ?_⟩
  · have hs := h.laid.sorted
    rw [← List.take_append_drop (insertPos m r.gpaStart) m.regions, List.pairwise_append] at hs
    refine List.pairwise_append.2 ⟨hs.1, List.pairwise_cons.2 ⟨habove, hs.2.1⟩, ?_⟩
    intro s hs' t ht
    rcases List.mem_cons.1 ht with rfl | ht
    · exact hbelow s hs'
    · exact hs.2.2 s hs' t ht
  · exact (inserted_perm m r).symm.pairwise (List.pairwise_cons.2 ⟨hap, h.laid.apart⟩) Apart.symm
  · intro s hs
    rcases mem_inserted.1 hs with rfl | hs
    · exact hb
    · exact h.bound s hs

/-- A pair in order around an inserted element: an old pair, or one with the new element. -/
theorem pair_sublist_middle {α : Type} {a b r : α} {xs ys : List α} (h : [a, b] <+ xs ++ r :: ys) :
    [a, b] <+ xs ++ ys ∨ (a = r ∧ b ∈ ys) ∨ (b = r ∧ a ∈ xs) := by
  obtain ⟨l₁, l₂, hsplit, h₁, h₂⟩ := List.sublist_append_iff.1 h
  rcases List.sublist_cons_iff.1 h₂ with hys | ⟨l, rfl, hys⟩
  · left
    rw [hsplit]
    exact h₁.append hys
  · right
    cases l₁ with
    | nil =>
      obtain ⟨rfl, htail⟩ := List.cons.inj hsplit
      rw [← htail] at hys
      exact Or.inl ⟨rfl, List.singleton_sublist.1 hys⟩
    | cons c l₁ =>
      obtain ⟨rfl, htail⟩ := List.cons.inj hsplit
      cases l₁ with
      | nil =>
        obtain ⟨rfl, -⟩ := List.cons.inj htail
        exact Or.inr ⟨rfl, List.singleton_sublist.1 h₁⟩
      | cons d l₁ =>
        have := congrArg List.length htail
        simp at this

/-- Inserting a region hides one exactly when it is non-empty and an empty region starts where it
starts. -/
theorem RegionInv.hides_inserted {m : GuestMemory} (h : RegionInv m) {r : GuestRegion}
    (hap : ∀ s ∈ m.regions, Apart GuestRegion.lo GuestRegion.hi r s) :
    Hides GuestRegion.lo GuestRegion.hi (GuestMemory.inserted m r).regions ↔
      Hides GuestRegion.lo GuestRegion.hi m.regions ∨
        0 < r.size.toNat ∧ ∃ s ∈ m.regions, s.size.toNat = 0 ∧ s.gpaStart = r.gpaStart := by
  constructor
  · rintro ⟨a, b, hsub, hne, heq⟩
    rcases pair_sublist_middle hsub with hold | ⟨rfl, hb⟩ | ⟨rfl, ha⟩
    · rw [List.take_append_drop] at hold
      exact Or.inl ⟨a, b, hold, hne, heq⟩
    · right
      have hb' := List.mem_of_mem_drop hb
      have := hap b hb'
      refine ⟨?_, b, hb', ?_, UInt64.toNat_inj.1 heq⟩
      · simp only [GuestRegion.lo, GuestRegion.hi] at hne
        omega
      · simp only [Apart, GuestRegion.lo, GuestRegion.hi] at this hne heq
        omega
    · -- the region in front of the new one already had a region of its start behind it
      left
      rcases h.insertPos_cases b.gpaStart with ⟨s, -, hs, hlo⟩ | ⟨hbelow, -⟩
      · obtain ⟨j, hj⟩ := List.mem_iff_getElem?.1 ha
        rw [List.getElem?_take] at hj
        split_ifs at hj with hji
        exact ⟨a, s, pair_sublist hji hj hs, hne, hlo.trans heq⟩
      · have := hbelow a ha
        simp only [GuestRegion.lo] at this heq
        omega
  · rintro (hold | ⟨hpos, s, hs, hzero, hstart⟩)
    · exact hold.mono (regions_sublist_inserted m r)
    · -- the empty region is in the group that the insertion point lies in
      rcases h.insertPos_cases r.gpaStart with ⟨t, -, hget, hlo⟩ | ⟨hbelow, habove⟩
      · refine ⟨r, t, ?_, ?_, hlo⟩
        · have hdrop : t ∈ m.regions.drop (insertPos m r.gpaStart) :=
            List.mem_of_getElem? (i := 0) (by rw [List.getElem?_drop, Nat.add_zero, hget])
          exact ((List.singleton_sublist.2 hdrop).cons_cons r).trans
            (List.sublist_append_right _ _)
        · simp only [GuestRegion.lo, GuestRegion.hi]
          omega
      · have hlo : s.lo = r.gpaStart.toNat := congrArg UInt64.toNat hstart
        rw [← List.take_append_drop (insertPos m r.gpaStart) m.regions] at hs
        rcases List.mem_append.1 hs with hs | hs
        · have := hbelow s hs
          omega
        · have := habove s hs
          omega

/-! ### The lookup -/

/-- On a memory with the invariant, the lookup is exact when no region is hidden. -/
theorem RegionInv.lookupExact_iff {m : GuestMemory} (h : RegionInv m) :
    LookupExact m ↔ ¬Hides GuestRegion.lo GuestRegion.hi m.regions := by
  have hfind : ∀ {gpa len : UInt64}, 1 ≤ len.toNat → ∀ p n,
      resolve m gpa len = .ok (p, n) ↔ ∃ i r, m.regions[i]? = some r ∧
        LastBelow GuestRegion.lo gpa.toNat m.regions i ∧ gpa.toNat + len.toNat ≤ r.hi ∧
        p = r.hva + (gpa.toNat - r.lo) ∧ n = r.size.toNat - (gpa.toNat - r.lo) := by
    intro gpa len hlen p n
    have hiff : ∀ i off rem, findRegion m gpa.toNat len.toNat = .ok (i, off, rem) ↔
        LastBelow GuestRegion.lo gpa.toNat m.regions i ∧
          ∃ r, m.regions[i]? = some r ∧ gpa.toNat + len.toNat ≤ r.hi ∧
            off = gpa.toNat - r.lo ∧ rem = r.size.toNat - off :=
      fun i off rem => findRegion_iff_lastBelow h.laid.sorted h.bound hlen
    unfold resolve
    constructor
    · intro hr
      cases hf : findRegion m gpa.toNat len.toNat with
      | error e =>
        rw [hf] at hr
        cases hr
      | ok t =>
        obtain ⟨i, off, rem⟩ := t
        rw [hf] at hr
        obtain ⟨hlast, r, hget, hle, rfl, rfl⟩ := (hiff i off rem).1 hf
        cases hr
        exact ⟨i, r, hget, hlast, hle, by simp [hget], rfl⟩
    · rintro ⟨i, r, hget, hlast, hle, rfl, rfl⟩
      rw [(hiff i _ _).2 ⟨hlast, r, hget, hle, rfl, rfl⟩]
      simp [bind, Except.bind, hget]
  constructor
  · intro hex hh
    obtain ⟨i, a, ha, hhold, hnot⟩ := hh.exists_not_lastBelow
    have hlen : 1 ≤ (1 : UInt64).toNat := le_rfl
    have hok := (hex a.gpaStart 1 hlen _ _).2
      ⟨a, List.mem_of_getElem? ha, le_rfl, hhold.2, rfl, rfl⟩
    obtain ⟨k, r, hk, hlast, hle, -⟩ := (hfind hlen _ _).1 hok
    obtain ⟨s, hs, hslo⟩ := id hlast.1
    rw [hk] at hs
    cases hs
    obtain rfl := h.laid.holds_unique hk ha ⟨hslo, hle⟩ hhold
    exact hnot hlast
  · intro hh gpa len hlen p n
    rw [hfind hlen]
    constructor
    · rintro ⟨i, r, hget, hlast, hle, hrest⟩
      obtain ⟨s, hs, hslo⟩ := hlast.1
      rw [hget] at hs
      cases hs
      exact ⟨_, List.mem_of_getElem? hget, hslo, hle, hrest⟩
    · rintro ⟨r, hmem, hlo, hle, hrest⟩
      obtain ⟨i, hget⟩ := List.mem_iff_getElem?.1 hmem
      refine ⟨i, r, hget, h.laid.lastBelow_of_holds hh hget ⟨hlo, ?_⟩, hle, hrest⟩
      exact lt_of_lt_of_le (Nat.lt_add_of_pos_right hlen) hle

/-- The other parts of `Exact` hold in any case. -/
theorem RegionInv.exact_iff {m : GuestMemory} (h : RegionInv m) :
    Exact m ↔ ¬Hides GuestRegion.lo GuestRegion.hi m.regions := by
  rw [← h.lookupExact_iff]
  constructor
  · exact Exact.lookup
  · intro hex
    refine ⟨h.laid.sorted, ?_, ?_, hex⟩
    · refine h.laid.apart.imp ?_
      rintro r s hap x ⟨hr, hs⟩
      exact hap ⟨lt_of_le_of_lt hr.1 hs.2, lt_of_le_of_lt hs.1 hr.2⟩
    · intro c e he
      rw [addStep_of_error he]

/-! ### Runs -/

/-- One call: the invariant stays, and a region is hidden exactly when it was before or the call
covers an empty one. -/
theorem RegionInv.addStep {m : GuestMemory} (h : RegionInv m) (c : AddCall) :
    RegionInv (addStep m c) ∧
      (Hides GuestRegion.lo GuestRegion.hi (GuestMemory.addStep m c).regions ↔
        Hides GuestRegion.lo GuestRegion.hi m.regions ∨ CoversEmpty m c) := by
  rcases addRegion_cases m c with
    ⟨hnot, e, he⟩ | ⟨hplace, r, hstart, -, hb, hpos, hno, hok⟩
  · have hstep : GuestMemory.addStep m c = m := addStep_of_error he
    rw [hstep]
    refine ⟨h, Iff.symm (or_iff_left ?_)⟩
    rintro ⟨-, hp, -⟩
    exact hnot hp
  · have hstep : GuestMemory.addStep m c = GuestMemory.inserted m r := addStep_of_ok hok
    have hap : ∀ s ∈ m.regions, Apart GuestRegion.lo GuestRegion.hi r s := by
      intro s hs
      have := hno s hs
      rw [h.stop_eq hs] at this
      exact this
    rw [hstep]
    refine ⟨h.inserted hb hap, ?_⟩
    rw [h.hides_inserted hap, hpos, hstart]
    simp only [CoversEmpty, hplace, true_and]

theorem regionInv_empty : RegionInv {} :=
  ⟨⟨List.Pairwise.nil, List.Pairwise.nil, by simp⟩, by simp⟩

/-- Along every run of `add_region` the regions stay sorted by start and disjoint. -/
theorem regionInv_run (calls : List AddCall) : RegionInv (calls.foldl GuestMemory.addStep {}) := by
  induction calls using List.reverseRecOn with
  | nil => exact regionInv_empty
  | append_singleton calls c ih =>
    rw [List.foldl_append, List.foldl_cons, List.foldl_nil]
    exact (ih.addStep c).1

/-- A property that fails exactly where a region is hidden: it holds all along a run exactly when no
call covers an empty region. -/
theorem always_iff_not_coversEmpty {Q : GuestMemory → Prop}
    (hQ : ∀ m, RegionInv m → (Q m ↔ ¬Hides GuestRegion.lo GuestRegion.hi m.regions))
    (calls : List AddCall) :
    Runs.Always GuestMemory.addStep {} Q calls ↔
      Runs.EachStep GuestMemory.addStep {} (fun m c => ¬CoversEmpty m c) calls := by
  have hempty : ¬Hides GuestRegion.lo GuestRegion.hi ({} : GuestMemory).regions := by
    rintro ⟨a, b, hsub, -⟩
    exact absurd hsub.length_le (by simp)
  refine Runs.always_iff_of_inv
    (P := fun m => RegionInv m ∧ ¬Hides GuestRegion.lo GuestRegion.hi m.regions)
    ⟨regionInv_empty, hempty⟩ (fun m h => (hQ m h.1).2 h.2) ?_ ?_ calls
  · rintro m c ⟨hm, hh⟩ hgood
    obtain ⟨hm', hiff⟩ := hm.addStep c
    exact ⟨hm', fun h => (hiff.1 h).elim hh hgood⟩
  · rintro m c ⟨hm, -⟩ hexact hcovers
    obtain ⟨hm', hiff⟩ := hm.addStep c
    exact (hQ _ hm').1 hexact (hiff.2 (Or.inr hcovers))

/-- **Guest memory lookup is exact** in every state of a run of `add_region` calls exactly when no
call of the run puts a non-empty region on the start of an empty one. -/
theorem addRegion_exact_iff (calls : List AddCall) :
    Runs.Always GuestMemory.addStep {} Exact calls ↔
      Runs.EachStep GuestMemory.addStep {} (fun m c => ¬CoversEmpty m c) calls :=
  always_iff_not_coversEmpty (fun _ h => h.exact_iff) calls

/-- An empty region at `0` and then a page there: both calls succeed, and the page is not found. -/
theorem empty_region_hides_page :
    resolve ([⟨0, 0, 0⟩, ⟨0, 4096, 0⟩].foldl GuestMemory.addStep {}) 0 1 =
        .error (.notMapped 0 1) ∧
      ¬Exact ([⟨0, 0, 0⟩, ⟨0, 4096, 0⟩].foldl GuestMemory.addStep {}) := by
  have hfail : resolve ([⟨0, 0, 0⟩, ⟨0, 4096, 0⟩].foldl GuestMemory.addStep {}) 0 1 =
      .error (.notMapped 0 1) := by rfl
  refine ⟨hfail, ?_⟩
  intro h
  have hok := (h.lookup 0 1 le_rfl 0 4096).2
    ⟨⟨0, 4096, 0, fun _ => 0⟩, List.mem_cons_self, le_rfl, by decide, rfl, rfl⟩
  rw [hfail] at hok
  cases hok

end GuestMemory

end Hitz.Vmm
