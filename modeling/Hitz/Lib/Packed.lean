import Hitz.Lib.Bytes

/-!
# Packed records

The entries of a packed record are its fields one after the other, without padding.

* `slice l o n`: the `n` entries from `o` on;
* `start fields k`: where field number `k` starts;
* `slice_flatten`: reading at its start gives a field back.

Where all fields are little-endian numbers, `pack fs` is the record and `layout o fs` lists the
fields with their offsets: every field reads back (`leAt_pack`), and a byte outside the fields that
are not zero is zero (`getElem?_pack_eq_zero`).  `unpack` reads numbers of given widths, and the two
are inverse to each other (`pack_unpack`, `unpack_pack`).  A record may as well be written field by
field into a zeroed buffer (`foldl_put`).
-/

namespace Packed

variable {α : Type}

/-- The `n` entries of `l` from `o` on. -/
def slice (l : List α) (o n : ℕ) : List α := (l.drop o).take n

/-- Where field number `k` starts. -/
def start (fields : List (List α)) (k : ℕ) : ℕ := ((fields.map List.length).take k).sum

theorem slice_flatten (fields : List (List α)) {k o : ℕ} {field : List α}
    (hfield : fields[k]? = some field) (ho : start fields k = o) :
    slice fields.flatten o field.length = field := by
  obtain ⟨hk, hget⟩ := List.getElem?_eq_some_iff.1 hfield
  rw [slice, ← ho, start, List.drop_sum_flatten, List.drop_eq_getElem_cons hk, List.flatten_cons,
    hget, List.take_left]

/-- Fields of one length behind others. -/
theorem start_append {heads tail : List (List α)} {w i : ℕ} (htail : ∀ f ∈ tail, f.length = w)
    (hi : i ≤ tail.length) :
    start (heads ++ tail) (heads.length + i) = heads.flatten.length + w * i := by
  have hlens : tail.map List.length = List.replicate tail.length w :=
    List.eq_replicate_iff.2 ⟨List.length_map _, by simpa using htail⟩
  have htake : (heads.map List.length ++ List.replicate tail.length w).take (heads.length + i) =
      heads.map List.length ++ List.replicate i w := by
    rw [← List.length_map List.length, List.take_length_add_append, List.take_replicate,
      Nat.min_eq_left hi]
  rw [start, List.map_append, hlens, htake, List.sum_append, List.length_flatten,
    List.sum_replicate, smul_eq_mul, Nat.mul_comm]

/-- Writing an entry outside of a slice. -/
theorem slice_set {l : List α} {i o n : ℕ} (h : i < o ∨ o + n ≤ i) (a : α) :
    slice (l.set i a) o n = slice l o n := by
  rw [slice, slice, List.drop_set]
  split_ifs with hi
  · rfl
  · exact List.take_set_of_le (by omega)

/-! ### Numbers -/

section Numbers

open Bytes

/-- The little-endian number of `width` bytes at `offset`. -/
def leAt (data : List UInt8) (offset width : ℕ) : ℕ := leNat (slice data offset width)

theorem leAt_lt (data : List UInt8) (offset width : ℕ) : leAt data offset width < 256 ^ width :=
  (leNat_lt _).trans_le (Nat.pow_le_pow_right (by decide) (List.length_take_le _ _))

/-- The bytes of numbers, given with their widths. -/
def pack (fs : List (ℕ × ℕ)) : List UInt8 := fs.flatMap fun f => leBytes f.1 f.2

/-- A number in its place. -/
structure Field where
  offset : ℕ
  width : ℕ
  value : ℕ
  deriving DecidableEq, Repr

/-- The numbers in their places, the first one at `o`. -/
def layout : ℕ → List (ℕ × ℕ) → List Field
  | _, [] => []
  | o, f :: fs => ⟨o, f.1, f.2⟩ :: layout (o + f.1) fs

@[simp] theorem pack_nil : pack [] = [] := rfl

@[simp] theorem pack_cons (f : ℕ × ℕ) (fs : List (ℕ × ℕ)) :
    pack (f :: fs) = leBytes f.1 f.2 ++ pack fs := rfl

theorem pack_append (fs gs : List (ℕ × ℕ)) : pack (fs ++ gs) = pack fs ++ pack gs :=
  List.flatMap_append

theorem leBytes_zero (w : ℕ) : leBytes w 0 = List.replicate w 0 := by
  induction w with
  | zero => rfl
  | succ w ih => rw [leBytes, Nat.zero_div, ih, List.replicate_succ]; rfl

theorem layout_append (fs gs : List (ℕ × ℕ)) (o : ℕ) :
    layout o (fs ++ gs) = layout o fs ++ layout (o + (pack fs).length) gs := by
  induction fs generalizing o with
  | nil => rfl
  | cons f fs ih =>
    rw [List.cons_append, layout, layout, ih, pack_cons, List.length_append, length_leBytes,
      Nat.add_assoc, List.cons_append]

theorem mem_of_mem_layout {fs : List (ℕ × ℕ)} {o : ℕ} {f : Field} (h : f ∈ layout o fs) :
    (f.width, f.value) ∈ fs := by
  induction fs generalizing o with
  | nil => cases h
  | cons g fs ih =>
    rcases List.mem_cons.1 h with rfl | h
    · exact List.mem_cons_self
    · exact List.mem_cons_of_mem _ (ih h)

theorem slice_pack {fs : List (ℕ × ℕ)} {o : ℕ} {f : Field} (h : f ∈ layout o fs) :
    o ≤ f.offset ∧ slice (pack fs) (f.offset - o) f.width = leBytes f.width f.value := by
  induction fs generalizing o with
  | nil => cases h
  | cons g fs ih =>
    rcases List.mem_cons.1 h with rfl | h
    · refine ⟨le_rfl, ?_⟩
      rw [Nat.sub_self, slice, List.drop_zero, pack_cons]
      exact List.take_left' (length_leBytes ..)
    · obtain ⟨hle, hslice⟩ := ih h
      refine ⟨by omega, ?_⟩
      rw [← hslice, slice, slice, pack_cons, List.drop_append, length_leBytes,
        List.drop_eq_nil_of_le (by rw [length_leBytes]; omega), List.nil_append, Nat.sub_sub]

/-- **Every field reads back**, truncated to its width. -/
theorem leAt_pack {fs : List (ℕ × ℕ)} {offset width value : ℕ}
    (h : ⟨offset, width, value⟩ ∈ layout 0 fs) (hv : value < 256 ^ width) :
    leAt (pack fs) offset width = value := by
  have hslice := (slice_pack h).2
  rw [leAt, ← Nat.sub_zero offset, hslice, leNat_leBytes, Nat.mod_eq_of_lt hv]

/-- **The rest is zero.** -/
theorem getElem?_pack_eq_zero {fs : List (ℕ × ℕ)} {o x : ℕ} (ho : o ≤ x)
    (hx : x < o + (pack fs).length)
    (hout : ∀ f ∈ layout o fs, f.value = 0 ∨ x ∉ Set.Ico f.offset (f.offset + f.width)) :
    (pack fs)[x - o]? = some 0 := by
  induction fs generalizing o with
  | nil => exact absurd hx (by simpa using ho)
  | cons f fs ih =>
    rw [pack_cons, List.length_append, length_leBytes] at hx
    rw [pack_cons]
    rcases Nat.lt_or_ge (x - o) f.1 with hlt | hge
    · rw [List.getElem?_append_left (by rwa [length_leBytes])]
      rcases hout _ List.mem_cons_self with hzero | hnot
      · rw [show f.2 = 0 from hzero, leBytes_zero, List.getElem?_replicate_of_lt hlt]
      · exact absurd (Set.mem_Ico.2 ⟨ho, by dsimp only; omega⟩) hnot
    · rw [List.getElem?_append_right (by rwa [length_leBytes]), length_leBytes, Nat.sub_sub]
      exact ih (by omega) (by omega) fun g hg => hout g (List.mem_cons_of_mem _ hg)

/-- The numbers with these widths, the first one at `o`. -/
def unpack (data : List UInt8) : ℕ → List ℕ → List (ℕ × ℕ)
  | _, [] => []
  | o, w :: ws => (w, leAt data o w) :: unpack data (o + w) ws

theorem leBytes_leAt {data : List UInt8} {offset width : ℕ} (h : offset + width ≤ data.length) :
    leBytes width (leAt data offset width) = slice data offset width := by
  have hlen : (slice data offset width).length = width :=
    List.length_take_of_le (by rw [List.length_drop]; omega)
  have hbytes := leBytes_leNat (slice data offset width)
  rwa [hlen] at hbytes

/-- **Reading and packing gives the bytes back.** -/
theorem pack_unpack {data : List UInt8} {ws : List ℕ} {o : ℕ} (h : o + ws.sum ≤ data.length) :
    pack (unpack data o ws) = slice data o ws.sum := by
  induction ws generalizing o with
  | nil => exact (List.take_zero).symm
  | cons w ws ih =>
    rw [List.sum_cons] at h
    have hrest : slice data (o + w) ws.sum = ((data.drop o).drop w).take ws.sum := by
      rw [slice, List.drop_drop]
    rw [unpack, pack_cons, leBytes_leAt (by omega), ih (by omega), hrest, List.sum_cons, slice,
      slice, List.take_add]

/-- **Packing and reading gives the numbers back.** -/
theorem unpack_pack {fs : List (ℕ × ℕ)} (hfs : ∀ f ∈ fs, f.2 < 256 ^ f.1) (before : List UInt8) :
    unpack (before ++ pack fs) before.length (fs.map Prod.fst) = fs := by
  induction fs generalizing before with
  | nil => rfl
  | cons f fs ih =>
    obtain ⟨hf, hfs⟩ := List.forall_mem_cons.1 hfs
    have hfirst : leAt (before ++ pack (f :: fs)) before.length f.1 = f.2 := by
      rw [leAt, slice, List.drop_left, pack_cons, List.take_left' (length_leBytes ..),
        leNat_leBytes, Nat.mod_eq_of_lt hf]
    have hlen : before.length + f.1 = (before ++ leBytes f.1 f.2).length := by
      rw [List.length_append, length_leBytes]
    have hrest := ih hfs (before ++ leBytes f.1 f.2)
    rw [List.map_cons, unpack, hfirst, hlen, pack_cons, ← List.append_assoc, hrest]

/-- Write a number in its place. -/
def put (data : List UInt8) (f : Field) : List UInt8 :=
  overwrite data f.offset (leBytes f.width f.value)

theorem foldl_put (fs : List (ℕ × ℕ)) (before : List UInt8) :
    (layout before.length fs).foldl put (before ++ List.replicate (pack fs).length 0) =
      before ++ pack fs := by
  induction fs generalizing before with
  | nil => rfl
  | cons f fs ih =>
    have hput : put (before ++ List.replicate (pack (f :: fs)).length 0)
        ⟨before.length, f.1, f.2⟩ =
          (before ++ leBytes f.1 f.2) ++ List.replicate (pack fs).length 0 := by
      rw [put, overwrite, List.take_left, length_leBytes, ← List.drop_drop, List.drop_left,
        List.drop_replicate, pack_cons, List.length_append, length_leBytes,
        Nat.add_sub_cancel_left]
    have hlen : before.length + f.1 = (before ++ leBytes f.1 f.2).length := by
      rw [List.length_append, length_leBytes]
    rw [layout, List.foldl_cons, hput, hlen, ih, pack_cons, List.append_assoc]

end Numbers

end Packed
