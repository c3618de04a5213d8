import Mathlib

/-!
# Byte stores with 64-bit addresses

A byte store is a memory of which some address ranges are accessible.  A read returns the bytes
of an accessible range; a write replaces exactly the bytes of an accessible range; an access to
any other range fails and changes nothing.

* `ByteStore M`: the operations on `M` with their laws;
* `bytes m a n`: the `n` bytes from `a` on, accessible or not;
* `put m a d`: a write whose failure is ignored;
* `Agree S m m'`: `m` and `m'` hold the same bytes outside `S` and have the same accessible
  ranges; `Agree` composes (`Agree.trans`) and a write agrees outside its range
  (`agree_write`, `agree_put`).
-/

/-- The operations of a byte store with their laws. -/
class ByteStore (M : Type) where
  /-- The byte at an address. -/
  byte : M → ℕ → UInt8
  /-- Is the range of `n` bytes from `a` on accessible? -/
  mapped : M → ℕ → ℕ → Bool
  /-- Read `n` bytes from `a` on. -/
  read : M → ℕ → ℕ → Option (List UInt8)
  /-- Write a byte string at `a`. -/
  write : M → ℕ → List UInt8 → Option M
  read_eq : ∀ m a n, read m a n =
    if mapped m a n then some ((List.range n).map fun i => byte m (a + i)) else none
  isSome_write : ∀ m a d, (write m a d).isSome = mapped m a d.length
  byte_write : ∀ m a d m', write m a d = some m' →
    ∀ x, byte m' x = if a ≤ x then (d[x - a]?).getD (byte m x) else byte m x
  mapped_write : ∀ m a d m', write m a d = some m' → mapped m' = mapped m
  mapped_sub : ∀ m a n b k, mapped m a n = true → a ≤ b → b + k ≤ a + n → mapped m b k = true
  mapped_lt : ∀ m a n, mapped m a n = true → 0 < n → a + n < 2 ^ 64

namespace ByteStore

variable {M : Type} [ByteStore M]

/-- The `n` bytes from `a` on. -/
def bytes (m : M) (a n : ℕ) : List UInt8 := (List.range n).map fun i => byte m (a + i)

@[simp] theorem length_bytes (m : M) (a n : ℕ) : (bytes m a n).length = n := by
  simp [bytes]

theorem getElem?_bytes (m : M) (a n i : ℕ) :
    (bytes m a n)[i]? = if i < n then some (byte m (a + i)) else none := by
  unfold bytes
  split_ifs with h
  · simp [h]
  · simp [h]

theorem bytes_congr {m m' : M} {a n : ℕ} (h : ∀ x, a ≤ x → x < a + n → byte m' x = byte m x) :
    bytes m' a n = bytes m a n := by
  unfold bytes
  apply List.map_congr_left
  intro i hi
  have := List.mem_range.1 hi
  exact h _ (by omega) (by omega)

theorem bytes_add (m : M) (a n k : ℕ) : bytes m a (n + k) = bytes m a n ++ bytes m (a + n) k := by
  unfold bytes
  rw [List.range_add, List.map_append, List.map_map]
  congr 1
  apply List.map_congr_left
  intro i _
  rw [Function.comp_apply, Nat.add_assoc]

theorem read_of_mapped {m : M} {a n : ℕ} (h : mapped m a n = true) :
    read m a n = some (bytes m a n) := by
  rw [read_eq, if_pos h]
  rfl

theorem read_eq_some {m : M} {a n : ℕ} {bs : List UInt8} (h : read m a n = some bs) :
    mapped m a n = true ∧ bs = bytes m a n := by
  rw [read_eq] at h
  split_ifs at h with hm
  exact ⟨hm, (Option.some.inj h).symm⟩

/-- A write whose failure is ignored. -/
def put (m : M) (a : ℕ) (d : List UInt8) : M := (write m a d).getD m

theorem put_of_write {m m' : M} {a : ℕ} {d : List UInt8} (h : write m a d = some m') :
    put m a d = m' := by
  simp [put, h]

/-- The memory after a list of writes. -/
def replay (m : M) (log : List (ℕ × List UInt8)) : M := log.foldl (fun m w => put m w.1 w.2) m

theorem replay_append (m : M) (log log' : List (ℕ × List UInt8)) :
    replay m (log ++ log') = replay (replay m log) log' := List.foldl_append

theorem put_of_not_mapped {m : M} {a : ℕ} {d : List UInt8} (h : mapped m a d.length = false) :
    put m a d = m := by
  have hn := isSome_write m a d
  rw [h] at hn
  simp [put, Option.isSome_eq_false_iff.1 hn |> Option.isNone_iff_eq_none.1]

/-- A write that may fail, as a log of the writes that succeed. -/
theorem put_eq_replay (m : M) (a : ℕ) (d : List UInt8) :
    put m a d = replay m (if mapped m a d.length then [(a, d)] else []) := by
  split_ifs with h
  · rfl
  · exact put_of_not_mapped (Bool.eq_false_iff.2 h)

theorem exists_write {m : M} {a : ℕ} {d : List UInt8} (h : mapped m a d.length = true) :
    ∃ m', write m a d = some m' :=
  Option.isSome_iff_exists.1 ((isSome_write m a d).trans h)

/-- Reading back the range just written. -/
theorem bytes_write {m m' : M} {a : ℕ} {d : List UInt8} (h : write m a d = some m') :
    bytes m' a d.length = d := by
  apply List.ext_getElem?
  intro i
  rw [getElem?_bytes]
  split_ifs with hi
  · rw [byte_write m a d m' h, if_pos (by omega)]
    simp [hi]
  · rw [List.getElem?_eq_none (by omega)]

/-- The two memories have the same accessible ranges and the same bytes outside `S`. -/
structure Agree (S : Set ℕ) (m m' : M) : Prop where
  mapped_eq : mapped m' = mapped m
  byte_eq : ∀ x, x ∉ S → byte m' x = byte m x

theorem Agree.refl (S : Set ℕ) (m : M) : Agree S m m := ⟨rfl, fun _ _ => rfl⟩

theorem Agree.mono {S T : Set ℕ} {m m' : M} (h : Agree S m m') (hST : S ⊆ T) : Agree T m m' :=
  ⟨h.mapped_eq, fun x hx => h.byte_eq x (fun hS => hx (hST hS))⟩

theorem Agree.trans {S : Set ℕ} {m₁ m₂ m₃ : M} (h : Agree S m₁ m₂) (h' : Agree S m₂ m₃) :
    Agree S m₁ m₃ :=
  ⟨h'.mapped_eq.trans h.mapped_eq, fun x hx => (h'.byte_eq x hx).trans (h.byte_eq x hx)⟩

theorem Agree.union {S T : Set ℕ} {m₁ m₂ m₃ : M} (h : Agree S m₁ m₂) (h' : Agree T m₂ m₃) :
    Agree (S ∪ T) m₁ m₃ :=
  (h.mono Set.subset_union_left).trans (h'.mono Set.subset_union_right)

theorem Agree.bytes_eq {S : Set ℕ} {m m' : M} (h : Agree S m m') {a n : ℕ}
    (hd : ∀ x, a ≤ x → x < a + n → x ∉ S) : bytes m' a n = bytes m a n :=
  bytes_congr fun x h₁ h₂ => h.byte_eq x (hd x h₁ h₂)

theorem Agree.read_eq {S : Set ℕ} {m m' : M} (h : Agree S m m') {a n : ℕ}
    (hd : ∀ x, a ≤ x → x < a + n → x ∉ S) : read m' a n = read m a n := by
  have hb := h.bytes_eq hd
  unfold bytes at hb
  rw [ByteStore.read_eq, ByteStore.read_eq, h.mapped_eq, hb]

/-- A write changes only its own range. -/
theorem agree_write {m m' : M} {a : ℕ} {d : List UInt8} (h : write m a d = some m') :
    Agree (Set.Ico a (a + d.length)) m m' := by
  refine ⟨mapped_write m a d m' h, fun x hx => ?_⟩
  rw [byte_write m a d m' h]
  split_ifs with hax
  · have : d.length ≤ x - a := by
      by_contra hlt
      exact hx (Set.mem_Ico.2 ⟨hax, by omega⟩)
    simp [List.getElem?_eq_none this]
  · rfl

theorem agree_put (m : M) (a : ℕ) (d : List UInt8) :
    Agree (Set.Ico a (a + d.length)) m (put m a d) := by
  cases h : write m a d with
  | none => simpa [put, h] using Agree.refl _ m
  | some m' => rw [put_of_write h]; exact agree_write h

end ByteStore
