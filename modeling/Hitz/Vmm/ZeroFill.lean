import Hitz.Vmm.MemoryRegions

/-!
# Filling guest memory with zeroes (`write_zeroes` in `hitz-vmm/src/memory.rs`)

`write_zeroes` clears a range in chunks of at most 4096 bytes.  Each chunk is looked up anew, and
the cursor saturates at the end of the address space.

* `zeroed m gpa n`: the memory with the bytes of `[gpa, gpa + n)` cleared;
* `RegionInv.filled`: on the memories that `add_region` builds, the loop clears a mapped part of the
  range from its start on, and stops early only where the lookup fails;
* `ZeroFill`: what is expected of a call.

The lookup misses a region that starts where an empty one starts, and then the loop fails inside of
a region: `writeZeroes_exact_iff`.
-/

namespace Hitz.Vmm

open Intervals
open scoped List

/-- The region with the bytes of `[gpa, gpa + n)` cleared. -/
def GuestRegion.zeroed (gpa n : ℕ) (r : GuestRegion) : GuestRegion :=
  { r with block := fun j =>
      if j < r.size.toNat ∧ gpa ≤ r.lo + j ∧ r.lo + j < gpa + n then 0 else r.block j }

namespace GuestMemory

/-- The memory with the bytes of `[gpa, gpa + n)` cleared. -/
def zeroed (m : GuestMemory) (gpa n : ℕ) : GuestMemory :=
  { m with regions := m.regions.map (GuestRegion.zeroed gpa n) }

/-- Every address of the range lies in a region. -/
def MappedRange (m : GuestMemory) (gpa n : ℕ) : Prop :=
  ∀ x, gpa ≤ x → x < gpa + n → ∃ r ∈ m.regions, r.Contains x

/-- The loop ends.  It succeeds inside of a region, success clears exactly the range, and failure a
part of it from its start on. -/
structure ZeroFill (m : GuestMemory) (gpa len : ℕ) : Prop where
  terminates : ∀ fuel, len ≤ fuel → writeZeroesLoop fuel m gpa len = writeZeroes m gpa len
  ok : ∀ m', writeZeroes m gpa len = (.ok (), m') →
    MappedRange m gpa len ∧ m' = zeroed m gpa len
  contained : ∀ r ∈ m.regions, r.lo ≤ gpa → gpa + len ≤ r.hi →
    (writeZeroes m gpa len).1 = .ok ()
  failed : ∀ e m', writeZeroes m gpa len = (.error e, m') →
    ∃ k < len, MappedRange m gpa k ∧ m' = zeroed m gpa k

/-- Every call is as expected, whatever the regions contain. -/
def ZeroFillExact (m : GuestMemory) : Prop :=
  ∀ m₁ : GuestMemory, m₁.regions.map GuestRegion.range = m.regions.map GuestRegion.range →
    ∀ gpa len : UInt64, ZeroFill m₁ gpa.toNat len.toNat

/-- What the loop has done when it ends: `k` bytes are cleared, which are all, or the lookup of the
next chunk has failed. -/
structure Filled (m : GuestMemory) (gpa len k : ℕ) (out : Except MemError Unit × GuestMemory) :
    Prop where
  le : k ≤ len
  mapped : MappedRange m gpa k
  mem : out.2 = zeroed m gpa k
  result : (out.1 = .ok () ∧ k = len) ∨
    ∃ e n, out.1 = .error e ∧ 0 < n ∧ k + n ≤ len ∧ findRegion m (gpa + k) n = .error e

/-! ### Clearing -/

theorem zeroed_eq_self {r : GuestRegion} {gpa n : ℕ}
    (h : ∀ x, gpa ≤ x → x < gpa + n → ¬ r.Contains x) : r.zeroed gpa n = r := by
  have hblock : (r.zeroed gpa n).block = r.block := by
    funext j
    refine if_neg fun hj => h (r.lo + j) hj.2.1 hj.2.2 ⟨Nat.le_add_right _ _, ?_⟩
    exact Nat.add_lt_add_left hj.1 _
  exact congrArg (fun block => { r with block }) hblock

theorem zeroed_zero (m : GuestMemory) (gpa : ℕ) : zeroed m gpa 0 = m := by
  have hid : GuestRegion.zeroed gpa 0 = id := by
    funext r
    exact zeroed_eq_self fun x hge hlt => absurd hge (Nat.not_le_of_lt hlt)
  rw [zeroed, hid, List.map_id]

theorem zeroed_zeroed (m : GuestMemory) (gpa k n : ℕ) :
    zeroed (zeroed m gpa k) (gpa + k) n = zeroed m gpa (k + n) := by
  have hcomp : GuestRegion.zeroed (gpa + k) n ∘ GuestRegion.zeroed gpa k =
      GuestRegion.zeroed gpa (k + n) := by
    funext r
    have hblock : ∀ j,
        (if j < r.size.toNat ∧ gpa + k ≤ r.lo + j ∧ r.lo + j < gpa + k + n then 0
          else if j < r.size.toNat ∧ gpa ≤ r.lo + j ∧ r.lo + j < gpa + k then 0 else r.block j) =
        if j < r.size.toNat ∧ gpa ≤ r.lo + j ∧ r.lo + j < gpa + (k + n) then 0 else r.block j := by
      intro j
      rw [← ite_or]
      exact if_congr (by omega) rfl rfl
    exact congrArg (fun block => { r with block }) (funext hblock)
  rw [zeroed, zeroed, zeroed, List.map_map, hcomp]

theorem map_range_zeroed (m : GuestMemory) (gpa n : ℕ) :
    (zeroed m gpa n).regions.map GuestRegion.range = m.regions.map GuestRegion.range := by
  rw [zeroed, List.map_map]
  rfl

theorem store_replicate {r : GuestRegion} {gpa n : ℕ} (hlo : r.lo ≤ gpa) (hhi : gpa + n ≤ r.hi) :
    store (gpa - r.lo) (List.replicate n 0) r = r.zeroed gpa n := by
  have hsize : r.hi = r.lo + r.size.toNat := rfl
  have hblock : (store (gpa - r.lo) (List.replicate n 0) r).block = (r.zeroed gpa n).block := by
    funext j
    simp only [store, GuestRegion.zeroed]
    by_cases hin : gpa ≤ r.lo + j ∧ r.lo + j < gpa + n
    · rw [if_pos (by omega), List.getElem?_replicate_of_lt (by omega), if_pos (by omega)]
      rfl
    · rw [if_neg (c := _ ∧ _) fun hj => hin hj.2, ite_eq_right_iff]
      intro hoff
      rw [List.getElem?_eq_none (by rw [List.length_replicate]; omega), Option.getD_none]
  exact congrArg (fun block => { r with block }) hblock

/-! ### The ranges alone decide -/

theorem RegionInv.of_map_range {m m' : GuestMemory} (h : RegionInv m)
    (heq : m'.regions.map GuestRegion.range = m.regions.map GuestRegion.range) : RegionInv m' := by
  have hmem : ∀ r ∈ m'.regions, ∃ s ∈ m.regions, s.lo = r.lo ∧ s.hi = r.hi := by
    intro r hr
    have hrange : r.range ∈ m.regions.map GuestRegion.range := by
      rw [← heq]
      exact List.mem_map_of_mem hr
    obtain ⟨s, hs, hsr⟩ := List.mem_map.1 hrange
    obtain ⟨hstart, hsize⟩ := Prod.mk.inj hsr
    exact ⟨s, hs, congrArg UInt64.toNat hstart, by rw [GuestRegion.hi, hstart, hsize]; rfl⟩
  have hpairs : ∀ {R : UInt64 × UInt64 → UInt64 × UInt64 → Prop},
      (m.regions.Pairwise fun r s => R r.range s.range) →
        m'.regions.Pairwise fun r s => R r.range s.range := by
    intro R hR
    have hmap := List.pairwise_map.2 hR
    rw [← heq] at hmap
    exact List.pairwise_map.1 hmap
  refine ⟨⟨?_, ?_, fun r _ => Nat.le_add_right _ _⟩, ?_⟩
  · exact hpairs (R := fun x y => x.1.toNat ≤ y.1.toNat) h.laid.sorted
  · exact hpairs (R := fun x y => ¬ (x.1.toNat < y.1.toNat + y.2.toNat ∧
      y.1.toNat < x.1.toNat + x.2.toNat)) h.laid.apart
  · intro r hr
    obtain ⟨s, hs, -, hhi⟩ := hmem r hr
    rw [← hhi]
    exact h.bound s hs

theorem hides_of_map_range {m m' : GuestMemory}
    (heq : m'.regions.map GuestRegion.range = m.regions.map GuestRegion.range)
    (h : Hides GuestRegion.lo GuestRegion.hi m'.regions) :
    Hides GuestRegion.lo GuestRegion.hi m.regions := by
  obtain ⟨a, b, hsub, hne, hlo⟩ := h
  have hmap := hsub.map GuestRegion.range
  rw [heq] at hmap
  obtain ⟨l, hl, hlmap⟩ := List.sublist_map_iff.1 hmap
  obtain ⟨c, l', rfl, hc, hl'⟩ := List.map_eq_cons_iff.1 hlmap.symm
  obtain ⟨d, l'', rfl, hd, hnil⟩ := List.map_eq_cons_iff.1 hl'
  rw [List.map_eq_nil_iff.1 hnil] at hl
  have hlo_of : ∀ {r s : GuestRegion}, r.range = s.range → r.lo = s.lo ∧ r.hi = s.hi := by
    intro r s hrs
    obtain ⟨hstart, hsize⟩ := Prod.mk.inj hrs
    exact ⟨congrArg UInt64.toNat hstart, by rw [GuestRegion.hi, hstart, hsize]; rfl⟩
  refine ⟨c, d, hl, ?_, ?_⟩
  · rw [(hlo_of hc).1, (hlo_of hc).2]
    exact hne
  · rw [(hlo_of hc).1, (hlo_of hd).1]
    exact hlo

/-! ### One chunk -/

/-- A chunk that is written lies in a region, and is cleared there. -/
theorem RegionInv.writeSlice_zeroes {m m' : GuestMemory} (h : RegionInv m) {gpa n : ℕ}
    (hn : 0 < n) (hwrite : writeSlice m gpa (List.replicate n 0) = .ok m') :
    MappedRange m gpa n ∧ gpa + n < 2 ^ 64 ∧ m' = zeroed m gpa n := by
  rcases writeSlice_ok hwrite with ⟨hnil, -⟩ | ⟨i, off, rem, -, hfind, rfl⟩
  · exact absurd ((List.replicate_eq_nil_iff 0).1 hnil) hn.ne'
  · rw [List.length_replicate] at hfind
    obtain ⟨hlast, r, hr, hhi, rfl, rfl⟩ :=
      (findRegion_iff_lastBelow h.laid.sorted h.bound hn).1 hfind
    have hlo : r.lo ≤ gpa := by
      obtain ⟨s, hs, hle⟩ := hlast.1
      rw [hr] at hs
      cases hs
      exact hle
    have hin : ∀ x, gpa ≤ x → x < gpa + n → r.Contains x := fun x hge hlt =>
      ⟨hlo.trans hge, hlt.trans_le hhi⟩
    refine ⟨fun x hge hlt => ⟨r, List.mem_of_getElem? hr, hin x hge hlt⟩,
      hhi.trans_lt (h.bound r (List.mem_of_getElem? hr)), ?_⟩
    refine congrArg GuestMemory.mk (List.ext_getElem? fun j => ?_)
    rw [List.getElem?_modify, List.getElem?_map]
    split_ifs with hij
    · -- the region that was found
      rw [← hij, hr, Option.map_some, ← store_replicate hlo hhi]
      rfl
    · -- no other region has an address of the chunk
      cases hj : m.regions[j]? with
      | none => rfl
      | some s =>
        have hself : s.zeroed gpa n = s := zeroed_eq_self fun x hge hlt hs =>
          hij (h.laid.holds_unique hr hj (hin x hge hlt) hs)
        rw [Option.map_some, hself]
        rfl

/-! ### The loop -/

theorem writeZeroesLoop_zero (fuel : ℕ) (m : GuestMemory) (gpa : ℕ) :
    writeZeroesLoop fuel m gpa 0 = (.ok (), m) := by
  cases fuel with
  | zero => rfl
  | succ fuel => exact if_pos rfl

theorem writeZeroesLoop_of_error {fuel : ℕ} {m : GuestMemory} {gpa len : ℕ} {e : MemError}
    (hlen : 0 < len) (h : writeSlice m gpa (List.replicate (min len 4096) 0) = .error e) :
    writeZeroesLoop (fuel + 1) m gpa len = (.error e, m) := by
  rw [writeZeroesLoop, if_neg hlen.ne']
  simp only [h]

theorem writeZeroesLoop_of_ok {fuel : ℕ} {m m' : GuestMemory} {gpa len : ℕ} (hlen : 0 < len)
    (h : writeSlice m gpa (List.replicate (min len 4096) 0) = .ok m') :
    writeZeroesLoop (fuel + 1) m gpa len =
      writeZeroesLoop fuel m' (min (gpa + min len 4096) (2 ^ 64 - 1)) (len - min len 4096) := by
  rw [writeZeroesLoop, if_neg hlen.ne']
  simp only [h]

theorem writeZeroesLoop_succ {fuel : ℕ} {m : GuestMemory} {gpa len : ℕ} (hfuel : len ≤ fuel) :
    writeZeroesLoop (fuel + 1) m gpa len = writeZeroesLoop fuel m gpa len := by
  induction fuel generalizing m gpa len with
  | zero =>
    rw [Nat.le_zero.1 hfuel]
    rfl
  | succ fuel ih =>
    rcases Nat.eq_zero_or_pos len with rfl | hlen
    · rw [writeZeroesLoop_zero, writeZeroesLoop_zero]
    · cases hwrite : writeSlice m gpa (List.replicate (min len 4096) 0) with
      | error e =>
        rw [writeZeroesLoop_of_error hlen hwrite, writeZeroesLoop_of_error hlen hwrite]
      | ok m' =>
        rw [writeZeroesLoop_of_ok hlen hwrite, writeZeroesLoop_of_ok hlen hwrite, ih (by omega)]

/-- More fuel than bytes makes no difference. -/
theorem writeZeroesLoop_eq {fuel : ℕ} (m : GuestMemory) (gpa : ℕ) {len : ℕ} (hfuel : len ≤ fuel) :
    writeZeroesLoop fuel m gpa len = writeZeroes m gpa len := by
  induction fuel, hfuel using Nat.le_induction with
  | base => rfl
  | succ fuel hle ih => rw [writeZeroesLoop_succ hle, ih]

theorem MappedRange.append {m : GuestMemory} {gpa k n : ℕ} (hk : MappedRange m gpa k)
    (hn : MappedRange m (gpa + k) n) : MappedRange m gpa (k + n) := by
  intro x hge hlt
  rcases Nat.lt_or_ge x (gpa + k) with hx | hx
  · exact hk x hge hx
  · exact hn x hx (by omega)

theorem mappedRange_zeroed {m : GuestMemory} {gpa n a k : ℕ} :
    MappedRange (zeroed m gpa n) a k ↔ MappedRange m a k := by
  have hregion : ∀ x, (∃ r ∈ (zeroed m gpa n).regions, r.Contains x) ↔
      ∃ r ∈ m.regions, r.Contains x := by
    intro x
    simp only [zeroed, List.mem_map, exists_exists_and_eq_and]
    rfl
  simp only [MappedRange, hregion]

theorem mappedRange_zero (m : GuestMemory) (gpa : ℕ) : MappedRange m gpa 0 :=
  fun _ hge hlt => absurd hge (Nat.not_le_of_lt hlt)

theorem Filled.zero (m : GuestMemory) (gpa : ℕ) : Filled m gpa 0 0 (.ok (), m) :=
  ⟨le_rfl, mappedRange_zero m gpa, (zeroed_zero m gpa).symm, Or.inl ⟨rfl, rfl⟩⟩

/-- A chunk in front of what the loop does from there. -/
theorem Filled.cons {m : GuestMemory} {gpa len n k : ℕ} {out : Except MemError Unit × GuestMemory}
    (hn : n ≤ len) (hmapped : MappedRange m gpa n)
    (h : Filled (zeroed m gpa n) (gpa + n) (len - n) k out) : Filled m gpa len (n + k) out where
  le := by
    have hle := h.le
    omega
  mapped := hmapped.append (mappedRange_zeroed.1 h.mapped)
  mem := by rw [h.mem, zeroed_zeroed]
  result := by
    rcases h.result with ⟨hok, hk⟩ | ⟨e, n', herr, hpos, hle, hfind⟩
    · exact Or.inl ⟨hok, by omega⟩
    · refine Or.inr ⟨e, n', herr, hpos, by omega, ?_⟩
      rw [← hfind, findRegion_congr (map_range_zeroed m gpa n), Nat.add_assoc]

theorem findRegion_of_writeSlice_error {m : GuestMemory} {gpa n : ℕ} {e : MemError}
    (h : writeSlice m gpa (List.replicate n 0) = .error e) : findRegion m gpa n = .error e := by
  unfold writeSlice at h
  split_ifs at h
  rw [List.length_replicate] at h
  cases hfind : findRegion m gpa n with
  | error e' =>
    rw [hfind] at h
    cases h
    rfl
  | ok t =>
    rw [hfind] at h
    cases h

/-- **The loop clears the range from its start on** until it is done or the lookup fails. -/
theorem RegionInv.filled {m : GuestMemory} (h : RegionInv m) {fuel gpa len : ℕ}
    (hfuel : len ≤ fuel) : ∃ k, Filled m gpa len k (writeZeroesLoop fuel m gpa len) := by
  induction fuel generalizing m gpa len with
  | zero =>
    rw [Nat.le_zero.1 hfuel]
    exact ⟨0, Filled.zero m gpa⟩
  | succ fuel ih =>
    rcases Nat.eq_zero_or_pos len with rfl | hlen
    · rw [writeZeroesLoop_zero]
      exact ⟨0, Filled.zero m gpa⟩
    · have hpos : 0 < min len 4096 := by omega
      cases hwrite : writeSlice m gpa (List.replicate (min len 4096) 0) with
      | error e =>
        rw [writeZeroesLoop_of_error hlen hwrite]
        exact ⟨0, Nat.zero_le _, mappedRange_zero m gpa, (zeroed_zero m gpa).symm,
          Or.inr ⟨e, min len 4096, rfl, hpos, by omega, findRegion_of_writeSlice_error hwrite⟩⟩
      | ok m' =>
        obtain ⟨hmapped, hlt, rfl⟩ := h.writeSlice_zeroes hpos hwrite
        -- the cursor does not reach the bound where it saturates
        have hnext : min (gpa + min len 4096) (2 ^ 64 - 1) = gpa + min len 4096 := by omega
        have hinv := h.of_map_range (map_range_zeroed m gpa (min len 4096))
        obtain ⟨k, hk⟩ := @ih _ hinv (gpa + min len 4096) (len - min len 4096) (by omega)
        rw [writeZeroesLoop_of_ok hlen hwrite, hnext]
        exact ⟨_, hk.cons (Nat.min_le_left _ _) hmapped⟩

/-! ### Calls -/

/-- Where no region is hidden, a part of a region is found. -/
theorem RegionInv.findRegion_ne_error {m : GuestMemory} (h : RegionInv m)
    (hh : ¬Hides GuestRegion.lo GuestRegion.hi m.regions) {r : GuestRegion} (hr : r ∈ m.regions)
    {a n : ℕ} (hn : 0 < n) (hlo : r.lo ≤ a) (hhi : a + n ≤ r.hi) (e : MemError) :
    findRegion m a n ≠ .error e := by
  obtain ⟨i, hi⟩ := List.mem_iff_getElem?.1 hr
  have hlast := h.laid.lastBelow_of_holds hh hi ⟨hlo, by omega⟩
  rw [(findRegion_iff_lastBelow h.laid.sorted h.bound hn).2 ⟨hlast, r, hi, hhi, rfl, rfl⟩]
  rintro ⟨⟩

theorem RegionInv.zeroFill {m : GuestMemory} (h : RegionInv m)
    (hh : ¬Hides GuestRegion.lo GuestRegion.hi m.regions) (gpa len : ℕ) : ZeroFill m gpa len := by
  obtain ⟨k, hle, hmapped, hmem, hresult⟩ := @RegionInv.filled m h len gpa len le_rfl
  change (writeZeroes m gpa len).2 = _ at hmem
  refine ⟨fun fuel hfuel => writeZeroesLoop_eq m gpa hfuel, ?_, ?_, ?_⟩
  · intro m' hout
    rcases hresult with ⟨-, rfl⟩ | ⟨e, n, herr, -⟩
    · rw [hout] at hmem
      exact ⟨hmapped, hmem⟩
    · change (writeZeroes m gpa len).1 = _ at herr
      rw [hout] at herr
      cases herr
  · intro r hr hlo hhi
    rcases hresult with ⟨hok, -⟩ | ⟨e, n, -, hpos, hkn, hfind⟩
    · exact hok
    · exact absurd hfind (h.findRegion_ne_error hh hr hpos (by omega) (by omega) e)
  · intro e m' hout
    rcases hresult with ⟨hok, -⟩ | ⟨e', n, -, hpos, hkn, -⟩
    · change (writeZeroes m gpa len).1 = _ at hok
      rw [hout] at hok
      cases hok
    · rw [hout] at hmem
      exact ⟨k, by omega, hmapped, hmem⟩

theorem RegionInv.zeroFillExact_iff {m : GuestMemory} (h : RegionInv m) :
    ZeroFillExact m ↔ ¬Hides GuestRegion.lo GuestRegion.hi m.regions := by
  constructor
  · intro hexact hh
    obtain ⟨i, a, ha, hhold, hnot⟩ := hh.exists_not_lastBelow
    have hlen : (1 : UInt64).toNat = 1 := rfl
    have hok := (hexact m rfl a.gpaStart 1).contained a (List.mem_of_getElem? ha) le_rfl hhold.2
    rw [hlen] at hok
    cases hwrite : writeSlice m a.gpaStart.toNat (List.replicate (min 1 4096) 0) with
    | error e =>
      rw [writeZeroes, writeZeroesLoop_of_error Nat.one_pos hwrite] at hok
      cases hok
    | ok m' =>
      rcases writeSlice_ok hwrite with ⟨hnil, -⟩ | ⟨k, off, rem, -, hfind, -⟩
      · cases hnil
      · obtain ⟨hlast, r, hr, hle, -⟩ :=
          (findRegion_iff_lastBelow h.laid.sorted h.bound Nat.one_pos).1 hfind
        obtain ⟨s, hs, hslo⟩ := id hlast.1
        rw [hr] at hs
        cases hs
        obtain rfl := h.laid.holds_unique hr ha ⟨hslo, hle⟩ hhold
        exact hnot hlast
  · intro hh m₁ heq gpa len
    exact (h.of_map_range heq).zeroFill (fun h₁ => hh (hides_of_map_range heq h₁)) _ _

/-- **Zero-fill is exact** in every state of a run of `add_region` calls exactly when no call of the
run puts a non-empty region on the start of an empty one. -/
theorem writeZeroes_exact_iff (calls : List AddCall) :
    Runs.Always GuestMemory.addStep {} ZeroFillExact calls ↔
      Runs.EachStep GuestMemory.addStep {} (fun m c => ¬CoversEmpty m c) calls := by
  exact always_iff_not_coversEmpty (fun _ h => h.zeroFillExact_iff) calls

/-- An empty region at `0` and then a page there: clearing the first byte of the page fails. -/
theorem writeZeroes_fails_in_page :
    writeZeroes ([⟨0, 0, 0⟩, ⟨0, 4096, 0⟩].foldl GuestMemory.addStep {}) 0 1 =
        (.error (.notMapped 0 1), [⟨0, 0, 0⟩, ⟨0, 4096, 0⟩].foldl GuestMemory.addStep {}) ∧
      ¬ZeroFillExact ([⟨0, 0, 0⟩, ⟨0, 4096, 0⟩].foldl GuestMemory.addStep {}) := by
  have hfail : writeZeroes ([⟨0, 0, 0⟩, ⟨0, 4096, 0⟩].foldl GuestMemory.addStep {}) 0 1 =
      (.error (.notMapped 0 1), [⟨0, 0, 0⟩, ⟨0, 4096, 0⟩].foldl GuestMemory.addStep {}) := by
    have hfind : findRegion ([⟨0, 0, 0⟩, ⟨0, 4096, 0⟩].foldl GuestMemory.addStep {})
        (0 : UInt64).toNat (1 : UInt64).toNat = .error (.notMapped 0 1) := by rfl
    rw [show (0 : UInt64).toNat = 0 from rfl, show (1 : UInt64).toNat = 1 from rfl] at hfind
    have hwrite : writeSlice ([⟨0, 0, 0⟩, ⟨0, 4096, 0⟩].foldl GuestMemory.addStep {}) 0
        (List.replicate (min 1 4096) 0) = .error (.notMapped 0 1) := by
      rw [show List.replicate (min 1 4096) (0 : UInt8) = [0] by decide, writeSlice,
        if_neg (by decide), show [(0 : UInt8)].length = 1 from rfl, hfind]
      rfl
    rw [writeZeroes, writeZeroesLoop_of_error Nat.one_pos hwrite]
  refine ⟨hfail, fun h => ?_⟩
  have hok := (h _ rfl 0 1).contained ⟨0, 4096, 0, fun _ => 0⟩ List.mem_cons_self le_rfl
    (by decide)
  have hzero : (0 : UInt64).toNat = 0 := rfl
  have hone : (1 : UInt64).toNat = 1 := rfl
  rw [hzero, hone, hfail] at hok
  cases hok

end GuestMemory

end Hitz.Vmm
