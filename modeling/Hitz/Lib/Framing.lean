import Mathlib

/-!
# Cutting a stream

A stream is written in frames and read in payloads, which cut it anywhere.  A reader that looks at
one payload at a time, and finds a frame only where the payload starts with it and holds all of it,
finds as many as were written only if the payloads are the frames, apart from empty ones
(`filter_eq_frames`).
-/

namespace Framing

variable {α β : Type} (frames : List (List α)) (parse : List α → Option β)

/-- Where a frame starts. -/
def offset (k : ℕ) : ℕ := (frames.take k).flatten.length

/-- The frames that start at `o` or later. -/
def startsFrom (o : ℕ) : Finset ℕ :=
  (Finset.range frames.length).filter fun k => o ≤ offset frames k

/-- From the position `o` on, only payloads that start with a frame and hold all of it are
parsed. -/
def Aligned (o : ℕ) (payloads : List (List α)) : Prop :=
  ∀ before p after, payloads = before ++ p :: after → (parse p).isSome = true →
    ∃ k < frames.length, o + before.flatten.length = offset frames k ∧
      offset frames (k + 1) ≤ o + before.flatten.length + p.length

variable {frames parse}

theorem offset_succ {k : ℕ} (hk : k < frames.length) :
    offset frames (k + 1) = offset frames k + frames[k].length := by
  unfold offset
  rw [List.take_succ_eq_append_getElem hk, List.flatten_append, List.length_append,
    List.flatten_singleton]

theorem offset_lt (hne : ∀ f ∈ frames, f ≠ []) {k : ℕ} (hk : k < frames.length) :
    offset frames k < offset frames (k + 1) := by
  have hpos := List.length_pos_iff.2 (hne frames[k] (List.getElem_mem hk))
  rw [offset_succ hk]
  omega

theorem offset_lt_of_lt (hne : ∀ f ∈ frames, f ≠ []) {j k : ℕ} (hjk : j < k)
    (hk : k ≤ frames.length) : offset frames j < offset frames k := by
  induction k with
  | zero => omega
  | succ k ih =>
    have hlt := offset_lt hne (k := k) (by omega)
    by_cases hj : j = k
    · rwa [hj]
    · have hprev := ih (by omega) (by omega)
      omega

theorem mem_startsFrom {o k : ℕ} :
    k ∈ startsFrom frames o ↔ k < frames.length ∧ o ≤ offset frames k := by
  simp [startsFrom]

theorem Aligned.tail {o : ℕ} {p : List α} {payloads : List (List α)}
    (h : Aligned frames parse o (p :: payloads)) :
    Aligned frames parse (o + p.length) payloads := by
  intro before q after heq hq
  obtain ⟨k, hk, hstart, hend⟩ := h (p :: before) q after (by rw [heq]; rfl) hq
  rw [List.flatten_cons, List.length_append] at hstart hend
  exact ⟨k, hk, by omega, by omega⟩

theorem Aligned.head {o : ℕ} {p : List α} {payloads : List (List α)}
    (h : Aligned frames parse o (p :: payloads)) (hp : (parse p).isSome = true) :
    ∃ k < frames.length, o = offset frames k ∧ offset frames (k + 1) ≤ o + p.length := by
  obtain ⟨k, hk, hstart, hend⟩ := h [] p payloads rfl hp
  exact ⟨k, hk, by simpa using hstart, by simpa using hend⟩

/-- A position that has passed the start of a frame has fewer frames to come. -/
theorem card_startsFrom_lt {o o' k : ℕ} (hk : k < frames.length)
    (hstart : o ≤ offset frames k) (hpassed : offset frames k < o') :
    (startsFrom frames o').card < (startsFrom frames o).card := by
  apply Finset.card_lt_card
  refine ⟨fun j hj => ?_, fun hsub => ?_⟩
  · obtain ⟨hj, hoj⟩ := mem_startsFrom.1 hj
    exact mem_startsFrom.2 ⟨hj, by omega⟩
  · obtain ⟨-, hko⟩ := mem_startsFrom.1 (hsub (mem_startsFrom.2 ⟨hk, hstart⟩))
    omega

/-- No more payloads are parsed than frames start. -/
theorem Aligned.length_le (hne : ∀ f ∈ frames, f ≠ []) {o : ℕ} {payloads : List (List α)}
    (h : Aligned frames parse o payloads) :
    (payloads.filterMap parse).length ≤ (startsFrom frames o).card := by
  induction payloads generalizing o with
  | nil => exact Nat.zero_le _
  | cons p payloads ih =>
    have htail := ih h.tail
    cases hp : parse p with
    | none =>
      rw [List.filterMap_cons_none hp]
      refine htail.trans (Finset.card_le_card fun j hj => ?_)
      obtain ⟨hj, hoj⟩ := mem_startsFrom.1 hj
      exact mem_startsFrom.2 ⟨hj, by omega⟩
    | some b =>
      rw [List.filterMap_cons_some hp, List.length_cons]
      obtain ⟨k, hk, hstart, hend⟩ := h.head (by rw [hp]; rfl)
      have hlt := offset_lt hne hk
      have hcard : (startsFrom frames (o + p.length)).card < (startsFrom frames o).card :=
        card_startsFrom_lt hk hstart.le (by omega)
      omega

section Tight

variable {k : ℕ} {p : List α} {payloads : List (List α)}

/-- A payload at the start of the frame `k` that is parsed holds this frame. -/
theorem Aligned.frame_le (hne : ∀ f ∈ frames, f ≠ [])
    (h : Aligned frames parse (offset frames k) (p :: payloads)) (hk : k ≤ frames.length)
    (hp : (parse p).isSome = true) :
    k < frames.length ∧ offset frames (k + 1) ≤ offset frames k + p.length := by
  obtain ⟨j, hj, hstart, hend⟩ := h.head hp
  obtain rfl : k = j := by
    rcases Nat.lt_trichotomy k j with hlt | heq | hlt
    · have hoff := offset_lt_of_lt hne hlt hj.le
      omega
    · exact heq
    · have hoff := offset_lt_of_lt hne hlt hk
      omega
  exact ⟨hj, hend⟩

theorem Aligned.parse_nil (hne : ∀ f ∈ frames, f ≠ [])
    (h : Aligned frames parse (offset frames k) ([] :: payloads)) (hk : k ≤ frames.length) :
    parse [] = none := by
  by_contra hsome
  obtain ⟨hlt, hend⟩ := h.frame_le hne hk (Option.isSome_iff_ne_none.2 hsome)
  have hoff := offset_lt hne hlt
  rw [List.length_nil] at hend
  omega

/-- When as many are parsed as start, the next payload is as long as the next frame. -/
theorem Aligned.offset_add (hne : ∀ f ∈ frames, f ≠ [])
    (h : Aligned frames parse (offset frames k) (p :: payloads)) (hlt : k < frames.length)
    (hp : p ≠ []) (htotal : offset frames k + p.length ≤ offset frames frames.length)
    (htight : (startsFrom frames (offset frames k)).card ≤
      ((p :: payloads).filterMap parse).length) :
    offset frames k + p.length = offset frames (k + 1) ∧
      (startsFrom frames (offset frames (k + 1))).card ≤ (payloads.filterMap parse).length := by
  have hpos := List.length_pos_iff.2 hp
  have hrest := h.tail.length_le hne
  have hpassed : (startsFrom frames (offset frames k + p.length)).card <
      (startsFrom frames (offset frames k)).card := card_startsFrom_lt hlt le_rfl (by omega)
  cases hparse : parse p with
  | none =>
    rw [List.filterMap_cons_none hparse] at htight
    omega
  | some b =>
    rw [List.filterMap_cons_some hparse, List.length_cons] at htight
    obtain ⟨-, hend⟩ := h.frame_le hne hlt.le (by rw [hparse]; rfl)
    have hoff := offset_lt hne hlt
    have hfirst : (startsFrom frames (offset frames (k + 1))).card <
        (startsFrom frames (offset frames k)).card := card_startsFrom_lt hlt le_rfl hoff
    refine ⟨?_, by omega⟩
    -- a payload that goes on into the next frame hides the start of that
    by_contra hlong
    have hnext : k + 1 < frames.length := by
      by_contra hlast
      obtain hlen : k + 1 = frames.length := by omega
      rw [hlen] at hend hlong
      omega
    have hsecond : (startsFrom frames (offset frames k + p.length)).card <
        (startsFrom frames (offset frames (k + 1))).card :=
      card_startsFrom_lt hnext le_rfl (by omega)
    omega

/-- When as many are parsed as start, the payloads are as long as the frames. -/
theorem Aligned.map_length (hne : ∀ f ∈ frames, f ≠ [])
    (h : Aligned frames parse (offset frames k) payloads) (hk : k ≤ frames.length)
    (htotal : offset frames k + payloads.flatten.length = offset frames frames.length)
    (htight : (startsFrom frames (offset frames k)).card ≤ (payloads.filterMap parse).length) :
    (payloads.filter fun p => !p.isEmpty).map List.length = (frames.drop k).map List.length := by
  induction payloads generalizing k with
  | nil =>
    obtain rfl : k = frames.length := by
      by_contra hne'
      have hoff := offset_lt_of_lt hne (Nat.lt_of_le_of_ne hk hne') le_rfl
      rw [List.flatten_nil, List.length_nil] at htotal
      omega
    rw [List.drop_length]
    rfl
  | cons p payloads ih =>
    rw [List.flatten_cons, List.length_append] at htotal
    by_cases hp : p = []
    · subst hp
      rw [List.filterMap_cons_none (h.parse_nil hne hk)] at htight
      rw [List.length_nil, Nat.zero_add] at htotal
      exact ih h.tail hk htotal htight
    · have hlt : k < frames.length := by
        have hpos := List.length_pos_iff.2 hp
        by_contra hge
        obtain rfl : k = frames.length := by omega
        omega
      obtain ⟨hexact, hrest⟩ := h.offset_add hne hlt hp (by omega) htight
      have htail := h.tail
      rw [hexact] at htail
      rw [List.filter_cons_of_pos (by simp [hp]), List.map_cons, ih htail hlt (by omega) hrest,
        List.drop_eq_getElem_cons hlt, List.map_cons]
      rw [offset_succ hlt] at hexact
      congr 1
      omega

end Tight

/-- When as many payloads are parsed as there are frames, the payloads are the frames. -/
theorem filter_eq_frames (hne : ∀ f ∈ frames, f ≠ []) {payloads : List (List α)}
    (hflatten : payloads.flatten = frames.flatten) (h : Aligned frames parse 0 payloads)
    (hcount : (payloads.filterMap parse).length = frames.length) :
    (payloads.filter fun p => !p.isEmpty) = frames := by
  rw [List.eq_iff_flatten_eq]
  refine ⟨List.flatten_filter_not_isEmpty.trans hflatten, ?_⟩
  have hzero : offset frames 0 = 0 := rfl
  have hmap := Aligned.map_length (k := 0) hne (by rwa [hzero]) (Nat.zero_le _) ?_ ?_
  · rwa [List.drop_zero] at hmap
  · rw [hzero, Nat.zero_add, hflatten, offset, List.take_length]
  · rw [hcount]
    exact (Finset.card_filter_le _ _).trans (Finset.card_range _).le

end Framing
