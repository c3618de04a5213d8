import Mathlib

/-!
# The newc cpio format

A record is a 110-byte header of a magic number and thirteen fields of eight hexadecimal digits,
the name with a terminating zero, zeroes up to a multiple of four, and the data.  A buffer is a
sequence of zero bytes and records; a record starts at an offset divisible by four.  That is the
grammar of the Linux initramfs buffer, where trailers are records like any other and archives may
follow each other.

* `encode`: a record as bytes; `parse`: the records of a buffer with their offsets;
* `parse_append`: buffers that parse can be concatenated;
* `parseFrom_encode`: a record at an aligned offset is read back.
-/

namespace Newc

/-! ### Hexadecimal fields -/

/-- A lower-case hexadecimal digit. -/
def hexDigit (d : ℕ) : UInt8 := UInt8.ofNat (if d < 10 then 48 + d else 87 + d)

/-- Eight hexadecimal digits, the most significant first. -/
def hex8 (n : ℕ) : List UInt8 := [7, 6, 5, 4, 3, 2, 1, 0].map fun k => hexDigit (n / 16 ^ k % 16)

/-- The value of a digit of either case. -/
def digitValue (b : UInt8) : Option ℕ :=
  let n := b.toNat
  if 48 ≤ n ∧ n < 58 then some (n - 48)
  else if 97 ≤ n ∧ n < 103 then some (n - 87)
  else if 65 ≤ n ∧ n < 71 then some (n - 55)
  else none

/-- The number a list of digits denotes. -/
def hexValue : ℕ → List UInt8 → Option ℕ
  | acc, [] => some acc
  | acc, b :: bs =>
    match digitValue b with
    | none => none
    | some d => hexValue (acc * 16 + d) bs

theorem digitValue_hexDigit : ∀ d : ℕ, d < 16 → digitValue (hexDigit d) = some d := by
  decide

@[simp] theorem length_hex8 (n : ℕ) : (hex8 n).length = 8 := rfl

theorem hexValue_hex8 {n : ℕ} (h : n < 2 ^ 32) : hexValue 0 (hex8 n) = some n := by
  have hd : ∀ k, digitValue (hexDigit (n / 16 ^ k % 16)) = some (n / 16 ^ k % 16) :=
    fun k => digitValue_hexDigit _ (Nat.mod_lt _ (by omega))
  simp only [hex8, List.map_cons, List.map_nil, hexValue, hd]
  congr 1
  norm_num
  omega

theorem digitValue_lt {b : UInt8} {d : ℕ} (h : digitValue b = some d) : d < 16 := by
  simp only [digitValue] at h
  split_ifs at h <;> cases h <;> omega

theorem hexValue_lt {acc n : ℕ} {bs : List UInt8} (h : hexValue acc bs = some n) :
    n < (acc + 1) * 16 ^ bs.length := by
  induction bs generalizing acc with
  | nil =>
    cases h
    simp
  | cons b bs ih =>
    simp only [hexValue] at h
    cases hb : digitValue b with
    | none =>
      rw [hb] at h
      cases h
    | some d =>
      rw [hb] at h
      have hd := digitValue_lt hb
      calc n < (acc * 16 + d + 1) * 16 ^ bs.length := ih h
        _ ≤ ((acc + 1) * 16) * 16 ^ bs.length := Nat.mul_le_mul_right _ (by omega)
        _ = (acc + 1) * 16 ^ (b :: bs).length := by
          rw [List.length_cons, pow_succ, mul_assoc, mul_comm 16]

/-! ### Records -/

/-- The fields of a header, in their order. -/
structure Header where
  ino : ℕ
  mode : ℕ
  uid : ℕ
  gid : ℕ
  nlink : ℕ
  mtime : ℕ
  filesize : ℕ
  devmajor : ℕ
  devminor : ℕ
  rdevmajor : ℕ
  rdevminor : ℕ
  namesize : ℕ
  check : ℕ
  deriving DecidableEq, Repr

/-- The header's fields as a list. -/
def Header.fields (h : Header) : List ℕ :=
  [h.ino, h.mode, h.uid, h.gid, h.nlink, h.mtime, h.filesize, h.devmajor, h.devminor,
    h.rdevmajor, h.rdevminor, h.namesize, h.check]

/-- `070701`. -/
def magic : List UInt8 := [48, 55, 48, 55, 48, 49]

/-- The header's 110 bytes. -/
def Header.bytes (h : Header) : List UInt8 := magic ++ h.fields.flatMap hex8

@[simp] theorem Header.length_bytes (h : Header) : h.bytes.length = 110 := rfl

/-- Round up to a multiple of four. -/
def align4 (n : ℕ) : ℕ := (n + 3) / 4 * 4

/-- A record: where its header starts, the header, the name without its zero, the data. -/
structure Record where
  offset : ℕ
  header : Header
  name : List UInt8
  data : List UInt8
  deriving DecidableEq, Repr

/-- Zero bytes from `n` up to a multiple of four. -/
def padding (n : ℕ) : List UInt8 := List.replicate (align4 n - n) 0

/-- A record as bytes. -/
def encode (h : Header) (name data : List UInt8) : List UInt8 :=
  h.bytes ++ (name ++ 0 :: padding (110 + (name.length + 1))) ++ data

/-- The `k`-th field of a header. -/
def field (bytes : List UInt8) (k : ℕ) : Option ℕ := hexValue 0 ((bytes.drop (6 + 8 * k)).take 8)

/-- Read a header. -/
def readHeader (bytes : List UInt8) : Option Header :=
  if 110 ≤ bytes.length ∧ bytes.take 6 = magic then do
    let ino ← field bytes 0
    let mode ← field bytes 1
    let uid ← field bytes 2
    let gid ← field bytes 3
    let nlink ← field bytes 4
    let mtime ← field bytes 5
    let filesize ← field bytes 6
    let devmajor ← field bytes 7
    let devminor ← field bytes 8
    let rdevmajor ← field bytes 9
    let rdevminor ← field bytes 10
    let namesize ← field bytes 11
    let check ← field bytes 12
    some ⟨ino, mode, uid, gid, nlink, mtime, filesize, devmajor, devminor, rdevmajor, rdevminor,
      namesize, check⟩
  else none

/-- Read a record at the start of a buffer: the record and what follows its data.  The name is
what stands in front of the zero that ends it, and must have no other zero. -/
def readRecord (offset : ℕ) (bytes : List UInt8) : Option (Record × List UInt8) :=
  match readHeader bytes with
  | none => none
  | some h =>
    let start := align4 (110 + h.namesize)
    let name := (bytes.drop 110).take (h.namesize - 1)
    if 0 < h.namesize ∧ start + h.filesize ≤ bytes.length ∧ 0 ∉ name ∧
        (bytes.drop (110 + (h.namesize - 1))).take (start - (110 + (h.namesize - 1))) =
          List.replicate (start - (110 + (h.namesize - 1))) 0 then
      some (⟨offset, h, name, (bytes.drop start).take h.filesize⟩,
        bytes.drop (start + h.filesize))
    else none

/-- The records of a buffer that starts at `offset`.  `fuel` bounds the number of steps; every
step takes at least one byte. -/
def parseAt : ℕ → ℕ → List UInt8 → Option (List Record)
  | _, _, [] => some []
  | 0, _, _ :: _ => none
  | fuel + 1, offset, b :: bytes =>
    if b = 0 then parseAt fuel (offset + 1) bytes
    else if offset % 4 = 0 then
      match readRecord offset (b :: bytes) with
      | none => none
      | some (r, rest) =>
        (parseAt fuel (offset + ((b :: bytes).length - rest.length)) rest).map (r :: ·)
    else none

/-- The records of a buffer that starts at `offset`. -/
def parseFrom (offset : ℕ) (bytes : List UInt8) : Option (List Record) :=
  parseAt bytes.length offset bytes

/-- The records of a buffer. -/
def parse (bytes : List UInt8) : Option (List Record) := parseFrom 0 bytes

/-! ### Reading a header -/

theorem align4_mod (n : ℕ) : align4 n % 4 = 0 := by
  simp only [align4]
  omega

theorem le_align4 (n : ℕ) : n ≤ align4 n := by
  simp only [align4]
  omega

theorem readHeader_bytes {h : Header} (hf : ∀ n ∈ h.fields, n < 2 ^ 32) (rest : List UInt8) :
    readHeader (h.bytes ++ rest) = some h := by
  have hfield : ∀ k n, h.fields[k]? = some n → n < 2 ^ 32 ∧
      ((h.bytes ++ rest).drop (6 + 8 * k)).take 8 = hex8 n := by
    intro k n hk
    refine ⟨hf n (List.mem_of_getElem? hk), ?_⟩
    obtain ⟨hlt, hn⟩ := List.getElem?_eq_some_iff.1 hk
    have hlt' : k < 13 := hlt
    interval_cases k <;> cases hn <;> rfl
  have hread : ∀ k n, h.fields[k]? = some n → field (h.bytes ++ rest) k = some n := by
    intro k n hk
    obtain ⟨hlt, heq⟩ := hfield k n hk
    rw [field, heq, hexValue_hex8 hlt]
  have hlen : 110 ≤ (h.bytes ++ rest).length ∧ (h.bytes ++ rest).take 6 = magic := by
    refine ⟨?_, rfl⟩
    simp
  rw [readHeader, if_pos hlen, hread 0 h.ino rfl, hread 1 h.mode rfl, hread 2 h.uid rfl,
    hread 3 h.gid rfl, hread 4 h.nlink rfl, hread 5 h.mtime rfl, hread 6 h.filesize rfl,
    hread 7 h.devmajor rfl, hread 8 h.devminor rfl, hread 9 h.rdevmajor rfl,
    hread 10 h.rdevminor rfl, hread 11 h.namesize rfl, hread 12 h.check rfl]
  rfl

/-- More bytes behind a header do not change it. -/
theorem readHeader_append {bytes : List UInt8} {h : Header} (hr : readHeader bytes = some h)
    (ys : List UInt8) : readHeader (bytes ++ ys) = some h := by
  by_cases hlen : 110 ≤ bytes.length ∧ bytes.take 6 = magic
  · have hfield : ∀ k, k ≤ 12 → field (bytes ++ ys) k = field bytes k := by
      intro k hk
      have h1 : (bytes ++ ys).drop (6 + 8 * k) = bytes.drop (6 + 8 * k) ++ ys :=
        List.drop_append_of_le_length (by omega)
      have h2 : (bytes.drop (6 + 8 * k) ++ ys).take 8 = (bytes.drop (6 + 8 * k)).take 8 :=
        List.take_append_of_le_length (by rw [List.length_drop]; omega)
      rw [field, h1, h2, field]
    have hlen' : 110 ≤ (bytes ++ ys).length ∧ (bytes ++ ys).take 6 = magic := by
      refine ⟨by rw [List.length_append]; omega, ?_⟩
      rw [List.take_append_of_le_length (by omega), hlen.2]
    rw [readHeader, if_pos hlen] at hr
    rw [readHeader, if_pos hlen', hfield 0 (by omega), hfield 1 (by omega), hfield 2 (by omega),
      hfield 3 (by omega), hfield 4 (by omega), hfield 5 (by omega), hfield 6 (by omega),
      hfield 7 (by omega), hfield 8 (by omega), hfield 9 (by omega), hfield 10 (by omega),
      hfield 11 (by omega), hfield 12 (by omega)]
    exact hr
  · rw [readHeader, if_neg hlen] at hr
    cases hr

theorem field_lt {bytes : List UInt8} {k n : ℕ} (h : field bytes k = some n) : n < 2 ^ 32 := by
  have hlt := hexValue_lt h
  have hlen : ((bytes.drop (6 + 8 * k)).take 8).length ≤ 8 := List.length_take_le _ _
  calc n < (0 + 1) * 16 ^ ((bytes.drop (6 + 8 * k)).take 8).length := hlt
    _ ≤ (0 + 1) * 16 ^ 8 := Nat.mul_le_mul_left _ (Nat.pow_le_pow_right (by omega) hlen)
    _ = 2 ^ 32 := by norm_num

/-- The size of a record's data fits its field. -/
theorem filesize_lt {bytes : List UInt8} {h : Header} (hr : readHeader bytes = some h) :
    h.filesize < 2 ^ 32 := by
  by_cases hlen : 110 ≤ bytes.length ∧ bytes.take 6 = magic
  · rw [readHeader, if_pos hlen] at hr
    -- the seventh of the thirteen fields
    iterate 6 obtain ⟨_, -, hr⟩ := Option.bind_eq_some_iff.1 hr
    obtain ⟨n, hn, hr⟩ := Option.bind_eq_some_iff.1 hr
    iterate 6 obtain ⟨_, -, hr⟩ := Option.bind_eq_some_iff.1 hr
    cases hr
    exact field_lt hn
  · rw [readHeader, if_neg hlen] at hr
    cases hr

/-! ### Reading a record -/

/-- What a record that was read is. -/
theorem readRecord_eq_some {offset : ℕ} {bytes rest : List UInt8} {r : Record}
    (h : readRecord offset bytes = some (r, rest)) :
    r.offset = offset ∧ readHeader bytes = some r.header ∧ 0 < r.header.namesize ∧
      align4 (110 + r.header.namesize) + r.header.filesize ≤ bytes.length ∧
      r.data.length = r.header.filesize ∧
      rest = bytes.drop (align4 (110 + r.header.namesize) + r.header.filesize) := by
  unfold readRecord at h
  cases hh : readHeader bytes with
  | none =>
    rw [hh] at h
    cases h
  | some hd =>
    rw [hh] at h
    simp only at h
    split_ifs at h with hc
    cases h
    refine ⟨rfl, rfl, hc.1, hc.2.1, ?_, rfl⟩
    have := hc.2.1
    rw [List.length_take, List.length_drop]
    exact Nat.min_eq_left (by omega)

theorem readRecord_length {offset : ℕ} {bytes rest : List UInt8} {r : Record}
    (h : readRecord offset bytes = some (r, rest)) : rest.length < bytes.length := by
  obtain ⟨-, -, -, hle, -, rfl⟩ := readRecord_eq_some h
  have := le_align4 (110 + r.header.namesize)
  rw [List.length_drop]
  omega

/-- More bytes behind a record do not change it. -/
theorem readRecord_append {offset : ℕ} {bytes rest : List UInt8} {r : Record}
    (h : readRecord offset bytes = some (r, rest)) (ys : List UInt8) :
    readRecord offset (bytes ++ ys) = some (r, rest ++ ys) := by
  unfold readRecord at h ⊢
  cases hh : readHeader bytes with
  | none =>
    rw [hh] at h
    cases h
  | some hd =>
    rw [hh] at h
    rw [readHeader_append hh]
    simp only at h ⊢
    split_ifs at h with hc
    obtain ⟨hpos, hle, hnul, hpad⟩ := hc
    have hstart := le_align4 (110 + hd.namesize)
    -- every window of the record lies inside `bytes`
    have hwin : ∀ i n, i + n ≤ bytes.length →
        ((bytes ++ ys).drop i).take n = (bytes.drop i).take n := by
      intro i n hin
      rw [List.drop_append_of_le_length (by omega),
        List.take_append_of_le_length (by rw [List.length_drop]; omega)]
    rw [hwin 110 (hd.namesize - 1) (by omega), hwin (110 + (hd.namesize - 1)) _ (by omega),
      hwin (align4 (110 + hd.namesize)) hd.filesize hle,
      if_pos ⟨hpos, by rw [List.length_append]; omega, hnul, hpad⟩,
      List.drop_append_of_le_length hle]
    cases h
    rfl

/-- A record is read back from its bytes. -/
theorem readRecord_encode {h : Header} {name data : List UInt8} (offset : ℕ)
    (hf : ∀ n ∈ h.fields, n < 2 ^ 32) (hname : h.namesize = name.length + 1)
    (hdata : h.filesize = data.length) (hnul : 0 ∉ name) (rest : List UInt8) :
    readRecord offset (encode h name data ++ rest) = some (⟨offset, h, name, data⟩, rest) := by
  have hstart := le_align4 (110 + (name.length + 1))
  have hpadlen : (padding (110 + (name.length + 1))).length =
      align4 (110 + (name.length + 1)) - (110 + (name.length + 1)) := List.length_replicate
  -- the buffer, cut at the places the reader cuts it
  have hcut : encode h name data ++ rest = h.bytes ++ (name ++ (0 ::
      padding (110 + (name.length + 1)) ++ (data ++ rest))) := by
    simp [encode, List.append_assoc]
  have hname' : (encode h name data ++ rest).drop 110 = name ++ (0 ::
      padding (110 + (name.length + 1)) ++ (data ++ rest)) := by
    rw [hcut, List.drop_append_of_le_length (by simp), List.drop_of_length_le (by simp),
      List.nil_append]
  have hzero : (encode h name data ++ rest).drop (110 + name.length) = 0 ::
      padding (110 + (name.length + 1)) ++ (data ++ rest) := by
    rw [← List.drop_drop, hname', List.drop_left]
  have hbody : (encode h name data ++ rest).drop (align4 (110 + (name.length + 1))) =
      data ++ rest := by
    have hsplit : align4 (110 + (name.length + 1)) = 110 + name.length +
        (0 :: padding (110 + (name.length + 1))).length := by
      rw [List.length_cons, hpadlen]
      omega
    rw [hsplit, ← List.drop_drop, hzero, List.drop_left]
  have htail : (encode h name data ++ rest).drop
      (align4 (110 + (name.length + 1)) + data.length) = rest := by
    rw [← List.drop_drop, hbody, List.drop_left]
  have hlen : align4 (110 + (name.length + 1)) + data.length ≤
      (encode h name data ++ rest).length := by
    simp only [encode, List.length_append, Header.length_bytes, List.length_cons, hpadlen]
    omega
  have hzeros : 0 :: padding (110 + (name.length + 1)) =
      List.replicate (align4 (110 + (name.length + 1)) - (110 + name.length)) 0 := by
    rw [padding, ← List.replicate_succ]
    congr 1
    omega
  have hheader : readHeader (encode h name data ++ rest) = some h := by
    rw [hcut, readHeader_bytes hf]
  unfold readRecord
  rw [hheader]
  simp only [hname, hdata, Nat.add_sub_cancel]
  rw [hname', hzero, hbody, htail, List.take_left, List.take_left, if_pos]
  refine ⟨Nat.succ_pos _, hlen, hnul, ?_⟩
  rw [hzeros, List.take_left' (List.length_replicate)]

/-! ### Parsing a buffer -/

/-- Fuel for every byte is enough, and more does not matter. -/
theorem parseAt_fuel : ∀ (f g offset : ℕ) (bytes : List UInt8), bytes.length ≤ f →
    bytes.length ≤ g → parseAt f offset bytes = parseAt g offset bytes := by
  intro f
  induction f with
  | zero =>
    intro g offset bytes hf _
    obtain rfl := List.length_eq_zero_iff.1 (Nat.le_zero.1 hf)
    cases g <;> rfl
  | succ f ih =>
    intro g offset bytes hf hg
    cases bytes with
    | nil => cases g <;> rfl
    | cons b bytes =>
      cases g with
      | zero => simp at hg
      | succ g =>
        simp only [List.length_cons] at hf hg
        simp only [parseAt]
        split_ifs
        · exact ih g _ bytes (by omega) (by omega)
        · cases hr : readRecord offset (b :: bytes) with
          | none => rfl
          | some p =>
            obtain ⟨r, rest⟩ := p
            have hlen := readRecord_length hr
            simp only [List.length_cons] at hlen
            simp only
            rw [ih g _ rest (by omega) (by omega)]
        · rfl

@[simp] theorem parseFrom_nil (offset : ℕ) : parseFrom offset [] = some [] := rfl

/-- A zero byte is skipped. -/
theorem parseFrom_zero (offset : ℕ) (bytes : List UInt8) :
    parseFrom offset (0 :: bytes) = parseFrom (offset + 1) bytes := by
  simp [parseFrom, parseAt]

theorem parseFrom_zeros (offset k : ℕ) (bytes : List UInt8) :
    parseFrom offset (List.replicate k 0 ++ bytes) = parseFrom (offset + k) bytes := by
  induction k generalizing offset with
  | zero => rfl
  | succ k ih =>
    rw [List.replicate_succ, List.cons_append, parseFrom_zero, ih]
    congr 1
    omega

/-- A header does not start at an unaligned offset. -/
theorem parseFrom_unaligned {offset : ℕ} {b : UInt8} {bytes : List UInt8} (hb : b ≠ 0)
    (ho : offset % 4 ≠ 0) : parseFrom offset (b :: bytes) = none := by
  simp [parseFrom, parseAt, hb, ho]

theorem parseFrom_record {offset : ℕ} {b : UInt8} {bytes rest : List UInt8} {r : Record}
    (hb : b ≠ 0) (ho : offset % 4 = 0) (hr : readRecord offset (b :: bytes) = some (r, rest)) :
    parseFrom offset (b :: bytes) =
      (parseFrom (offset + ((b :: bytes).length - rest.length)) rest).map (r :: ·) := by
  have hlen := readRecord_length hr
  simp only [List.length_cons] at hlen
  unfold parseFrom
  rw [List.length_cons, parseAt, if_neg hb, if_pos ho, hr]
  simp only
  rw [parseAt_fuel bytes.length rest.length _ rest (by omega) le_rfl]
  rfl

/-- What a buffer that parses starts with. -/
theorem parseFrom_cases {offset : ℕ} {b : UInt8} {bytes : List UInt8} {rs : List Record}
    (h : parseFrom offset (b :: bytes) = some rs) :
    (b = 0 ∧ parseFrom (offset + 1) bytes = some rs) ∨
      ∃ r rest rs', b ≠ 0 ∧ offset % 4 = 0 ∧ readRecord offset (b :: bytes) = some (r, rest) ∧
        parseFrom (offset + ((b :: bytes).length - rest.length)) rest = some rs' ∧
        rs = r :: rs' := by
  by_cases hb : b = 0
  · subst hb
    rw [parseFrom_zero] at h
    exact Or.inl ⟨rfl, h⟩
  · right
    by_cases ho : offset % 4 = 0
    · cases hr : readRecord offset (b :: bytes) with
      | none =>
        unfold parseFrom at h
        rw [List.length_cons, parseAt, if_neg hb, if_pos ho, hr] at h
        cases h
      | some p =>
        obtain ⟨r, rest⟩ := p
        rw [parseFrom_record hb ho hr] at h
        obtain ⟨rs', hrs', rfl⟩ := Option.map_eq_some_iff.1 h
        exact ⟨r, rest, rs', hb, ho, rfl, hrs', rfl⟩
    · rw [parseFrom_unaligned hb ho] at h
      cases h

/-- Buffers that parse can be concatenated: what follows is read at its offset in the whole. -/
theorem parseFrom_append {xs : List UInt8} : ∀ {offset : ℕ} {rs : List Record},
    parseFrom offset xs = some rs → ∀ ys, parseFrom offset (xs ++ ys) =
      (parseFrom (offset + xs.length) ys).map (rs ++ ·) := by
  induction hn : xs.length using Nat.strong_induction_on generalizing xs with
  | _ n ih =>
    intro offset rs h ys
    subst hn
    cases xs with
    | nil =>
      cases h
      simp
    | cons b bytes =>
      rcases parseFrom_cases h with ⟨rfl, hrest⟩ | ⟨r, rest, rs', hb, ho, hr, hrest, rfl⟩
      · rw [List.cons_append, parseFrom_zero, ih bytes.length (by simp) rfl hrest]
        congr 2
        rw [List.length_cons]
        omega
      · have hlen := readRecord_length hr
        have hr' := readRecord_append hr ys
        rw [List.cons_append] at hr' ⊢
        rw [parseFrom_record hb ho hr']
        have hoff : offset + ((b :: (bytes ++ ys)).length - (rest ++ ys).length) =
            offset + ((b :: bytes).length - rest.length) := by
          simp only [List.length_cons, List.length_append]
          omega
        rw [hoff, ih rest.length hlen rfl hrest, Option.map_map]
        have hoff' : offset + ((b :: bytes).length - rest.length) + rest.length =
            offset + (b :: bytes).length := by omega
        rw [hoff']
        rfl

/-- Every record that is read starts at a multiple of four and has data that fits its field. -/
theorem parseFrom_mem {bytes : List UInt8} : ∀ {offset : ℕ} {rs : List Record},
    parseFrom offset bytes = some rs → ∀ r ∈ rs, r.offset % 4 = 0 ∧ r.data.length < 2 ^ 32 := by
  induction hn : bytes.length using Nat.strong_induction_on generalizing bytes with
  | _ n ih =>
    intro offset rs h r hmem
    subst hn
    cases bytes with
    | nil =>
      cases h
      cases hmem
    | cons b bytes =>
      rcases parseFrom_cases h with ⟨rfl, hrest⟩ | ⟨r', rest, rs', hb, ho, hr, hrest, rfl⟩
      · exact ih bytes.length (by simp) rfl hrest r hmem
      · rcases List.mem_cons.1 hmem with rfl | hmem
        · obtain ⟨hoff, hheader, -, -, hdata, -⟩ := readRecord_eq_some hr
          exact ⟨hoff ▸ ho, hdata ▸ filesize_lt hheader⟩
        · exact ih rest.length (readRecord_length hr) rfl hrest r hmem

theorem encode_eq_cons (h : Header) (name data : List UInt8) :
    ∃ bytes, encode h name data = 48 :: bytes := ⟨_, rfl⟩

/-- A record at an aligned offset is read back, and parsing goes on behind it. -/
theorem parseFrom_encode {h : Header} {name data : List UInt8} {offset : ℕ}
    (hf : ∀ n ∈ h.fields, n < 2 ^ 32) (hname : h.namesize = name.length + 1)
    (hdata : h.filesize = data.length) (hnul : 0 ∉ name) (ho : offset % 4 = 0)
    (rest : List UInt8) :
    parseFrom offset (encode h name data ++ rest) =
      (parseFrom (offset + (encode h name data).length) rest).map
        (⟨offset, h, name, data⟩ :: ·) := by
  have hr := readRecord_encode offset hf hname hdata hnul rest
  obtain ⟨bytes, hbytes⟩ := encode_eq_cons h name data
  have hlen : (encode h name data ++ rest).length - rest.length = (encode h name data).length := by
    rw [List.length_append]
    omega
  rw [hbytes, List.cons_append] at hr hlen ⊢
  rw [parseFrom_record (by decide) ho hr, hlen]

theorem length_encode (h : Header) (name data : List UInt8) :
    (encode h name data).length = align4 (110 + (name.length + 1)) + data.length := by
  have := le_align4 (110 + (name.length + 1))
  simp only [encode, padding, List.length_append, Header.length_bytes, List.length_cons,
    List.length_replicate]
  omega

end Newc
