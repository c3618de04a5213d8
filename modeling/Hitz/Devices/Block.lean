import Hitz.Devices.Drain

/-!
# The virtio block device (`hitz-devices/src/virtio/block.rs`)

A request is a chain of three descriptors: a header, a data buffer and a status byte.

* `parseRequest` reads the header and the data descriptor;
* `handleRead`, `handleWrite` and their dispatch `transfer` move the data;
* `processRequest` puts them together and writes the status byte.

The backing `File` is a byte vector with a cursor (`Disk`).  Its calls may fail without effect: a
fault sequence says which do.  Arithmetic that panics on overflow in the source answers `none`
here; `isSome_processRequest` shows that it never does.
-/

namespace Hitz.Devices

open ByteStore Bytes

/-! ### The backing file -/

/-- A file: its bytes and its cursor.  `faults n` says whether the `n`-th call fails; `touched`
lists the ranges (offset and length) that were read or written, and nothing reads it. -/
structure Disk where
  data : List UInt8
  pos : ℕ := 0
  faults : ℕ → Bool := fun _ => false
  calls : ℕ := 0
  touched : List (ℕ × ℕ) := []

namespace Disk

/-- `seek(SeekFrom::Start(offset))`. -/
def seek (d : Disk) (offset : ℕ) : Bool × Disk :=
  if d.faults d.calls then (false, { d with calls := d.calls + 1 })
  else (true, { d with calls := d.calls + 1, pos := offset })

/-- The `n` bytes from `offset` on. -/
def slice (d : Disk) (offset n : ℕ) : List UInt8 := (d.data.drop offset).take n

/-- `read_exact` into a buffer of `n` bytes. -/
def readExact (d : Disk) (n : ℕ) : Option (List UInt8) × Disk :=
  if d.faults d.calls || d.data.length < d.pos + n then (none, { d with calls := d.calls + 1 })
  else (some (d.slice d.pos n),
    { d with calls := d.calls + 1, pos := d.pos + n, touched := d.touched ++ [(d.pos, n)] })

/-- The file's bytes with `buf` put at `offset`; a gap before `offset` is filled with zeroes. -/
def splice (data : List UInt8) (offset : ℕ) (buf : List UInt8) : List UInt8 :=
  overwrite (data ++ List.replicate (offset - data.length) 0) offset buf

/-- `write_all`. -/
def writeAll (d : Disk) (buf : List UInt8) : Bool × Disk :=
  if d.faults d.calls then (false, { d with calls := d.calls + 1 })
  else (true, { d with
    calls := d.calls + 1, pos := d.pos + buf.length, data := splice d.data d.pos buf
    touched := d.touched ++ [(d.pos, buf.length)] })

/-! What a call does to the disk, by what it returns. -/

theorem seek_eq_true {d d' : Disk} {off : ℕ} (h : d.seek off = (true, d')) :
    d' = { d with calls := d.calls + 1, pos := off } := by
  unfold seek at h
  split_ifs at h with hf
  · cases h
  · cases h
    rfl

theorem seek_eq_false {d d' : Disk} {off : ℕ} (h : d.seek off = (false, d')) :
    d' = { d with calls := d.calls + 1 } := by
  unfold seek at h
  split_ifs at h with hf
  · cases h
    rfl
  · cases h

theorem readExact_eq_some {d d' : Disk} {n : ℕ} {buf : List UInt8}
    (h : d.readExact n = (some buf, d')) :
    buf = d.slice d.pos n ∧ buf.length = n ∧
      d' = { d with
        calls := d.calls + 1, pos := d.pos + n, touched := d.touched ++ [(d.pos, n)] } := by
  unfold readExact at h
  split_ifs at h with hfault
  · cases h
  · simp only [Bool.or_eq_true, decide_eq_true_eq, not_or] at hfault
    cases h
    refine ⟨rfl, ?_, rfl⟩
    rw [slice, List.length_take, List.length_drop]
    omega

theorem readExact_eq_none {d d' : Disk} {n : ℕ} (h : d.readExact n = (none, d')) :
    d' = { d with calls := d.calls + 1 } := by
  unfold readExact at h
  split_ifs at h with hfault
  · cases h
    rfl
  · cases h

theorem writeAll_eq_true {d d' : Disk} {buf : List UInt8} (h : d.writeAll buf = (true, d')) :
    d' = { d with
      calls := d.calls + 1, pos := d.pos + buf.length, data := splice d.data d.pos buf
      touched := d.touched ++ [(d.pos, buf.length)] } := by
  unfold writeAll at h
  split_ifs at h with hf
  · cases h
  · cases h
    rfl

theorem writeAll_eq_false {d d' : Disk} {buf : List UInt8} (h : d.writeAll buf = (false, d')) :
    d' = { d with calls := d.calls + 1 } := by
  unfold writeAll at h
  split_ifs at h with hf
  · cases h
    rfl
  · cases h

end Disk

/-! ### The device -/

/-- Request type: read from disk. -/
def virtioBlkTIn : UInt32 := 0

/-- Request type: write to disk. -/
def virtioBlkTOut : UInt32 := 1

/-- Status: success. -/
def virtioBlkSOk : UInt8 := 0

/-- Status: I/O error. -/
def virtioBlkSIoerr : UInt8 := 1

/-- Sector size in bytes. -/
def sectorSize : ℕ := 512

/-- The most bytes one request may move. -/
def maxRequest : ℕ := 16777216

/-- A block device.  The capacity, in sectors, comes from a file length, which is a `u64`. -/
structure VirtioBlockDevice where
  disk : Disk
  capacity : UInt64
  capacity_lt : capacity.toNat * sectorSize < 2 ^ 64

/-- Overflow-checked `u64` multiplication. -/
def checkedMul (a b : ℕ) : Option ℕ := if a * b < 2 ^ 64 then some (a * b) else none

/-- `u64::saturating_add`. -/
def saturatingAdd (a b : ℕ) : ℕ := min (a + b) (2 ^ 64 - 1)

/-- `u32` addition; `none` is the overflow panic. -/
def addU32 (a b : UInt32) : Option UInt32 :=
  if a.toNat + b.toNat < 2 ^ 32 then some (a + b) else none

theorem zero_addU32 (n : UInt32) : addU32 0 n = some n := by
  have hn : (0 : UInt32).toNat + n.toNat < 2 ^ 32 := by
    rw [UInt32.toNat_zero, Nat.zero_add]
    exact n.toNat_lt
  rw [addU32, if_pos hn, UInt32.zero_add]

/-- A device over a file, given the file's length. -/
def VirtioBlockDevice.new (disk : Disk) (hlen : disk.data.length < 2 ^ 64) : VirtioBlockDevice where
  disk
  capacity := UInt64.ofNat (disk.data.length / sectorSize)
  capacity_lt := by
    have hdiv := Nat.div_mul_le_self disk.data.length sectorSize
    have hle := Nat.div_le_self disk.data.length sectorSize
    rw [UInt64.toNat_ofNat', Nat.mod_eq_of_lt (by omega)]
    omega

theorem length_zeroSector : (List.replicate 512 (0 : UInt8)).length < 2 ^ 64 := by
  rw [List.length_replicate]
  decide

/-- What moving the data of a request leaves behind. -/
structure Transfer (M : Type) where
  dev : VirtioBlockDevice
  mem : M
  status : UInt8
  written : UInt32

/-- A parsed request: type, first sector and data descriptor. -/
structure BlkRequest where
  reqType : UInt32
  sector : UInt64
  data : Descriptor
  deriving DecidableEq, Repr

namespace VirtioBlockDevice

variable {M : Type} [ByteStore M]

/-- Handle a read request: disk to guest memory. -/
def handleRead (dev : VirtioBlockDevice) (sector gpa : UInt64) (len : UInt32) (mem : M)
    (totalWritten : UInt32) : Option (Transfer M) :=
  if maxRequest < len.toNat then some ⟨dev, mem, virtioBlkSIoerr, totalWritten⟩
  else
    let capacityBytes := (checkedMul dev.capacity.toNat sectorSize).getD 0
    if dev.capacity ≤ sector then some ⟨dev, mem, virtioBlkSIoerr, totalWritten⟩
    else do
      let byteOffset ← checkedMul sector.toNat sectorSize
      if capacityBytes < saturatingAdd byteOffset len.toNat then
        some ⟨dev, mem, virtioBlkSIoerr, totalWritten⟩
      else
        match dev.disk.seek byteOffset with
        | (false, disk) => some ⟨{ dev with disk }, mem, virtioBlkSIoerr, totalWritten⟩
        | (true, disk) =>
          match disk.readExact len.toNat with
          | (none, disk) => some ⟨{ dev with disk }, mem, virtioBlkSIoerr, totalWritten⟩
          | (some buf, disk) =>
            match write mem gpa.toNat buf with
            | none => some ⟨{ dev with disk }, mem, virtioBlkSIoerr, totalWritten⟩
            | some mem => do
              let totalWritten ← addU32 totalWritten len
              some ⟨{ dev with disk }, mem, virtioBlkSOk, totalWritten⟩

/-- Handle a write request: guest memory to disk. -/
def handleWrite (dev : VirtioBlockDevice) (sector gpa : UInt64) (len : UInt32) (mem : M) :
    Option (UInt8 × VirtioBlockDevice) :=
  if maxRequest < len.toNat then some (virtioBlkSIoerr, dev)
  else
    let capacityBytes := (checkedMul dev.capacity.toNat sectorSize).getD 0
    if dev.capacity ≤ sector then some (virtioBlkSIoerr, dev)
    else do
      let byteOffset ← checkedMul sector.toNat sectorSize
      if capacityBytes < saturatingAdd byteOffset len.toNat then some (virtioBlkSIoerr, dev)
      else
        match read mem gpa.toNat len.toNat with
        | none => some (virtioBlkSIoerr, dev)
        | some buf =>
          match dev.disk.seek byteOffset with
          | (false, disk) => some (virtioBlkSIoerr, { dev with disk })
          | (true, disk) =>
            match disk.writeAll buf with
            | (false, disk) => some (virtioBlkSIoerr, { dev with disk })
            | (true, disk) => some (virtioBlkSOk, { dev with disk })

/-- The first two descriptors of a request; `none` when the source returns before step 2. -/
def parseRequest (chain : DescriptorChain) (mem : M) : Option BlkRequest × DescriptorChain :=
  match chain.nextDescriptor mem with
  | (none, chain) => (none, chain)
  | (some hdr, chain) =>
    match read mem hdr.gpa.toNat 16 with
    | none => (none, chain)
    | some buf =>
      -- bytes 4..8 are reserved
      let reqType := UInt32.ofNat (leNat (buf.take 4))
      let sector := UInt64.ofNat (leNat (buf.drop 8))
      match chain.nextDescriptor mem with
      | (none, chain) => (none, chain)
      | (some data, chain) => (some { reqType, sector, data }, chain)

/-- Step 2: move the data; the status and the bytes written so far. -/
def transfer (dev : VirtioBlockDevice) (r : BlkRequest) (mem : M) : Option (Transfer M) :=
  if r.reqType = virtioBlkTIn then
    if r.data.isDeviceWritable then dev.handleRead r.sector r.data.gpa r.data.len mem 0
    else some ⟨dev, mem, virtioBlkSIoerr, 0⟩
  else if r.reqType = virtioBlkTOut then
    if r.data.isDeviceWritable then some ⟨dev, mem, virtioBlkSIoerr, 0⟩
    else (dev.handleWrite r.sector r.data.gpa r.data.len mem).map fun (status, dev) =>
      ⟨dev, mem, status, 0⟩
  else some ⟨dev, mem, virtioBlkSIoerr, 0⟩

/-- Step 3: write the status byte to the third descriptor. -/
def writeStatus (t : Transfer M) (chain : DescriptorChain) :
    Option (Served VirtioBlockDevice M) :=
  match chain.nextDescriptor t.mem with
  | (none, chain) => some ⟨t.dev, chain, t.mem, t.written⟩
  | (some d, chain) =>
    if !d.isDeviceWritable then some ⟨t.dev, chain, t.mem, t.written⟩
    else (addU32 t.written 1).map fun written =>
      ⟨t.dev, chain, put t.mem d.gpa.toNat [t.status], written⟩

/-- Process a single block request from a descriptor chain. -/
def processRequest (dev : VirtioBlockDevice) (chain : DescriptorChain) (mem : M) :
    Option (Served VirtioBlockDevice M) :=
  match parseRequest chain mem with
  | (none, chain) => some ⟨dev, chain, mem, 0⟩
  | (some r, chain) => (dev.transfer r mem).bind fun t => writeStatus t chain

/-- The offset of the request's first byte on disk. -/
def byteOffset (sector : UInt64) : ℕ := sector.toNat * sectorSize

/-! ### What moving the data does -/

/-- Every range touched on disk lies inside the capacity. -/
def Confined (dev : VirtioBlockDevice) : Prop :=
  ∀ p ∈ dev.disk.touched, p.1 + p.2 ≤ dev.capacity.toNat * sectorSize

/-- The request passes the checks of `handle_read` and `handle_write`. -/
def InBounds (dev : VirtioBlockDevice) (r : BlkRequest) : Prop :=
  r.data.len.toNat ≤ maxRequest ∧ r.sector < dev.capacity ∧
    byteOffset r.sector + r.data.len.toNat ≤ dev.capacity.toNat * sectorSize

/-- The guest addresses that moving the data may write. -/
def dataRange (dev : VirtioBlockDevice) (r : BlkRequest) : Set ℕ :=
  {x | r.reqType = virtioBlkTIn ∧ dev.InBounds r ∧ x ∈ r.data.writable}

/-- What a request may do to the device and to guest memory while its data is moved. -/
structure TransferOk (dev : VirtioBlockDevice) (r : BlkRequest) (mem : M) (t : Transfer M) :
    Prop where
  capacity_eq : t.dev.capacity = dev.capacity
  confined : dev.Confined → t.dev.Confined
  written_le : t.written.toNat ≤ maxRequest
  agree : Agree (dev.dataRange r) mem t.mem
  unchanged : ¬ (r.reqType = virtioBlkTOut ∧ t.status = virtioBlkSOk) →
    t.dev.disk.data = dev.disk.data
  out_ok : r.reqType = virtioBlkTOut → t.status = virtioBlkSOk →
    byteOffset r.sector + r.data.len.toNat ≤ dev.capacity.toNat * sectorSize ∧
      t.dev.disk.data = Disk.splice dev.disk.data (byteOffset r.sector)
        (bytes mem r.data.gpa.toNat r.data.len.toNat)
  in_ok : r.reqType = virtioBlkTIn → t.status = virtioBlkSOk →
    byteOffset r.sector + r.data.len.toNat ≤ dev.capacity.toNat * sectorSize ∧
      bytes t.mem r.data.gpa.toNat r.data.len.toNat =
        dev.disk.slice (byteOffset r.sector) r.data.len.toNat

theorem checkedMul_sector (dev : VirtioBlockDevice) {sector : UInt64}
    (h : ¬ dev.capacity ≤ sector) :
    checkedMul sector.toNat sectorSize = some (byteOffset sector) := by
  have hlt : sector.toNat < dev.capacity.toNat := UInt64.lt_iff_toNat_lt.1 (UInt64.not_le.1 h)
  have hcap := dev.capacity_lt
  have hmul : sector.toNat * sectorSize ≤ dev.capacity.toNat * sectorSize :=
    Nat.mul_le_mul_right _ hlt.le
  exact if_pos (lt_of_le_of_lt hmul hcap)

theorem checkedMul_capacity (dev : VirtioBlockDevice) :
    (checkedMul dev.capacity.toNat sectorSize).getD 0 = dev.capacity.toNat * sectorSize := by
  rw [checkedMul, if_pos dev.capacity_lt]
  rfl

/-- A failed request that left the bytes of the disk and guest memory alone. -/
theorem TransferOk.failed {dev : VirtioBlockDevice} {r : BlkRequest} {mem : M} (disk : Disk)
    (hdata : disk.data = dev.disk.data)
    (hconf : dev.Confined → Confined { dev with disk }) :
    TransferOk dev r mem ⟨{ dev with disk }, mem, virtioBlkSIoerr, 0⟩ where
  capacity_eq := rfl
  confined := hconf
  written_le := Nat.zero_le _
  agree := Agree.refl _ _
  unchanged _ := hdata
  out_ok _ h := by cases h
  in_ok _ h := by cases h

/-- One more range inside the capacity. -/
theorem Confined.touch {dev : VirtioBlockDevice} {disk : Disk} {off n : ℕ} (h : dev.Confined)
    (htouched : disk.touched = dev.disk.touched ++ [(off, n)])
    (hbound : off + n ≤ dev.capacity.toNat * sectorSize) : Confined { dev with disk } := by
  intro p hp
  rw [htouched] at hp
  rcases List.mem_append.1 hp with hp | hp
  · exact h p hp
  · rw [List.mem_singleton.1 hp]
    exact hbound

/-- The bounds check of both directions: the saturating sum never hides an overflow, since the
capacity is a multiple of the sector size. -/
theorem add_le_capacity (dev : VirtioBlockDevice) {a n : ℕ}
    (h : ¬ dev.capacity.toNat * sectorSize < saturatingAdd a n) :
    a + n ≤ dev.capacity.toNat * sectorSize := by
  have hcap := dev.capacity_lt
  unfold saturatingAdd at h
  unfold sectorSize at *
  omega

/-- A read leaves the disk as it is and fills at most the buffer. -/
theorem handleRead_spec (dev : VirtioBlockDevice) {r : BlkRequest} (mem : M)
    (hin : r.reqType = virtioBlkTIn) (hw : r.data.isDeviceWritable = true) :
    ∃ t, dev.handleRead r.sector r.data.gpa r.data.len mem 0 = some t ∧
      TransferOk dev r mem t := by
  unfold handleRead
  dsimp only
  rw [dev.checkedMul_capacity]
  split_ifs with hmax hsec
  · exact ⟨_, rfl, TransferOk.failed dev.disk rfl id⟩
  · exact ⟨_, rfl, TransferOk.failed dev.disk rfl id⟩
  · rw [dev.checkedMul_sector hsec, Option.bind_eq_bind, Option.bind_some]
    split_ifs with hcap
    · exact ⟨_, rfl, TransferOk.failed dev.disk rfl id⟩
    have hbound := dev.add_le_capacity hcap
    cases hseek : dev.disk.seek (byteOffset r.sector) with
    | mk ok disk =>
      cases ok with
      | false =>
        obtain rfl := Disk.seek_eq_false hseek
        exact ⟨_, rfl, TransferOk.failed _ rfl id⟩
      | true =>
        obtain rfl := Disk.seek_eq_true hseek
        dsimp only
        cases hread : Disk.readExact
            { dev.disk with calls := dev.disk.calls + 1, pos := byteOffset r.sector }
            r.data.len.toNat with
        | mk buf? disk =>
          cases buf? with
          | none =>
            obtain rfl := Disk.readExact_eq_none hread
            exact ⟨_, rfl, TransferOk.failed _ rfl id⟩
          | some buf =>
            obtain ⟨hbuf, hlen, rfl⟩ := Disk.readExact_eq_some hread
            dsimp only
            cases hwrite : write mem r.data.gpa.toNat buf with
            | none => exact ⟨_, rfl, TransferOk.failed _ rfl fun h => h.touch rfl hbound⟩
            | some mem' =>
              have hb := bytes_write hwrite
              have ha := agree_write hwrite
              rw [hlen] at hb ha
              dsimp only
              rw [zero_addU32, Option.bind_eq_bind, Option.bind_some]
              refine ⟨_, rfl, ?_⟩
              exact {
                capacity_eq := rfl
                confined := fun h => h.touch rfl hbound
                written_le := Nat.not_lt.1 hmax
                agree := ha.mono fun x hx => ⟨hin,
                  ⟨Nat.not_lt.1 hmax, UInt64.not_le.1 hsec, hbound⟩,
                  by rw [Descriptor.writable, if_pos hw]; exact hx⟩
                unchanged := fun _ => rfl
                out_ok := fun h => by rw [hin] at h; cases h
                in_ok := fun _ _ => ⟨hbound, hb.trans hbuf⟩ }

/-- A write changes the disk only when it reports success. -/
theorem handleWrite_spec (dev : VirtioBlockDevice) {r : BlkRequest} (mem : M)
    (hout : r.reqType = virtioBlkTOut) :
    ∃ p, dev.handleWrite r.sector r.data.gpa r.data.len mem = some p ∧
      TransferOk dev r mem ⟨p.2, mem, p.1, 0⟩ := by
  unfold handleWrite
  dsimp only
  rw [dev.checkedMul_capacity]
  split_ifs with hmax hsec
  · exact ⟨_, rfl, TransferOk.failed dev.disk rfl id⟩
  · exact ⟨_, rfl, TransferOk.failed dev.disk rfl id⟩
  · rw [dev.checkedMul_sector hsec, Option.bind_eq_bind, Option.bind_some]
    split_ifs with hcap
    · exact ⟨_, rfl, TransferOk.failed dev.disk rfl id⟩
    have hbound := dev.add_le_capacity hcap
    cases hread : read mem r.data.gpa.toNat r.data.len.toNat with
    | none => exact ⟨_, rfl, TransferOk.failed dev.disk rfl id⟩
    | some buf =>
      obtain ⟨-, rfl⟩ := read_eq_some hread
      dsimp only
      cases hseek : dev.disk.seek (byteOffset r.sector) with
      | mk ok disk =>
        cases ok with
        | false =>
          obtain rfl := Disk.seek_eq_false hseek
          exact ⟨_, rfl, TransferOk.failed _ rfl id⟩
        | true =>
          obtain rfl := Disk.seek_eq_true hseek
          dsimp only
          cases hwrite : Disk.writeAll
              { dev.disk with calls := dev.disk.calls + 1, pos := byteOffset r.sector }
              (bytes mem r.data.gpa.toNat r.data.len.toNat) with
          | mk ok disk =>
            cases ok with
            | false =>
              obtain rfl := Disk.writeAll_eq_false hwrite
              exact ⟨_, rfl, TransferOk.failed _ rfl id⟩
            | true =>
              obtain rfl := Disk.writeAll_eq_true hwrite
              refine ⟨_, rfl, ?_⟩
              exact {
                capacity_eq := rfl
                confined := fun h => h.touch rfl (by rw [length_bytes]; exact hbound)
                written_le := Nat.zero_le _
                agree := Agree.refl _ _
                unchanged := fun h => absurd ⟨hout, rfl⟩ h
                out_ok := fun _ _ => ⟨hbound, rfl⟩
                in_ok := fun h => by rw [hout] at h; cases h }

theorem transfer_spec (dev : VirtioBlockDevice) (r : BlkRequest) (mem : M) :
    ∃ t, dev.transfer r mem = some t ∧ TransferOk dev r mem t := by
  unfold transfer
  split_ifs with hin hw hout hw
  · exact dev.handleRead_spec mem hin hw
  · exact ⟨_, rfl, TransferOk.failed dev.disk rfl id⟩
  · exact ⟨_, rfl, TransferOk.failed dev.disk rfl id⟩
  · obtain ⟨p, hp, hok⟩ := dev.handleWrite_spec mem hout
    exact ⟨_, by rw [hp]; rfl, hok⟩
  · exact ⟨_, rfl, TransferOk.failed dev.disk rfl id⟩

/-- No request makes the device's arithmetic overflow. -/
theorem isSome_processRequest (dev : VirtioBlockDevice) (chain : DescriptorChain) (mem : M) :
    (dev.processRequest chain mem).isSome = true := by
  unfold processRequest
  split
  · rfl
  · rename_i r chain' _
    obtain ⟨t, ht, hok⟩ := dev.transfer_spec r mem
    have hadd : addU32 t.written 1 = some (t.written + 1) := by
      have := hok.written_le
      unfold maxRequest at this
      rw [addU32, if_pos (by simp; omega)]
    rw [ht, Option.bind_some, writeStatus]
    split
    · rfl
    · split_ifs
      · rfl
      · rw [hadd]
        rfl

/-- `process_request` as it runs. -/
def serve (dev : VirtioBlockDevice) (chain : DescriptorChain) (mem : M) :
    Served VirtioBlockDevice M :=
  (dev.processRequest chain mem).get (dev.isSome_processRequest chain mem)

/-- The descriptor the status byte goes to: the third one, read after the data has moved. -/
def statusDescriptor (dev : VirtioBlockDevice) (chain : DescriptorChain) (mem : M) :
    Option Descriptor :=
  match parseRequest chain mem with
  | (none, _) => none
  | (some r, chain) => (dev.transfer r mem).bind fun t => (chain.nextDescriptor t.mem).1

/-- The guest addresses that serving a chain may write: the data buffer of an IN request within
bounds, and one status byte. -/
def footprint (dev : VirtioBlockDevice) (chain : DescriptorChain) (mem : M) : Set ℕ :=
  {x | (∃ r, (parseRequest chain mem).1 = some r ∧ x ∈ dev.dataRange r) ∨
    ∃ d, dev.statusDescriptor chain mem = some d ∧ d.isDeviceWritable = true ∧ x = d.gpa.toNat}

/-- The chain of a parsed request has yielded its data descriptor. -/
theorem parseRequest_seen {chain chain' : DescriptorChain} {mem : M} {r : BlkRequest}
    (h : parseRequest chain mem = (some r, chain')) : r.data ∈ chain'.seen := by
  unfold parseRequest at h
  split at h
  · cases h
  · rename_i hdr c hc
    split at h
    · cases h
    · dsimp only at h
      split at h
      · cases h
      · rename_i data c' hd
        have hseen := DescriptorChain.nextDescriptor_seen c mem
        rw [hd] at hseen
        cases h
        rw [hseen]
        simp

/-- Writing the status advances the chain by one descriptor; guest memory and the count change only
if that descriptor is device-writable. -/
theorem writeStatus_eq_some {t : Transfer M} {chain : DescriptorChain}
    {s : Served VirtioBlockDevice M} (h : writeStatus t chain = some s) :
    s.dev = t.dev ∧ s.chain = (chain.nextDescriptor t.mem).2 ∧
      ((∃ d, (chain.nextDescriptor t.mem).1 = some d ∧ d.isDeviceWritable = true ∧
          s.mem = put t.mem d.gpa.toNat [t.status] ∧ s.written.toNat = t.written.toNat + 1) ∨
        ((∀ d, (chain.nextDescriptor t.mem).1 = some d → d.isDeviceWritable = false) ∧
          s.mem = t.mem ∧ s.written = t.written)) := by
  unfold writeStatus at h
  cases hn : chain.nextDescriptor t.mem with
  | mk od c =>
    rw [hn] at h
    cases od with
    | none =>
      cases h
      exact ⟨rfl, rfl, Or.inr ⟨by simp, rfl, rfl⟩⟩
    | some d =>
      dsimp only at h
      cases hw : d.isDeviceWritable with
      | false =>
        rw [if_pos (by simp [hw])] at h
        cases h
        exact ⟨rfl, rfl, Or.inr ⟨by rintro d' ⟨⟩; exact hw, rfl, rfl⟩⟩
      | true =>
        rw [if_neg (by simp [hw])] at h
        obtain ⟨n, hn, rfl⟩ := Option.map_eq_some_iff.1 h
        refine ⟨rfl, rfl, Or.inl ⟨d, rfl, hw, rfl, ?_⟩⟩
        unfold addU32 at hn
        split_ifs at hn with hlt
        cases hn
        rw [UInt32.toNat_add]
        exact Nat.mod_eq_of_lt hlt

/-- What serving a chain does to guest memory, and the descriptors it was given. -/
theorem serve_spec (dev : VirtioBlockDevice) (chain : DescriptorChain) (mem : M) :
    Agree (dev.footprint chain mem) mem (dev.serve chain mem).mem ∧
      (∀ r, (parseRequest chain mem).1 = some r → r.data ∈ (dev.serve chain mem).chain.seen) ∧
      ∀ d, dev.statusDescriptor chain mem = some d → d ∈ (dev.serve chain mem).chain.seen := by
  have hs : dev.processRequest chain mem = some (dev.serve chain mem) := (Option.some_get _).symm
  generalize dev.serve chain mem = s at hs
  unfold processRequest at hs
  unfold footprint statusDescriptor
  cases hp : parseRequest chain mem with
  | mk or chain' =>
    rw [hp] at hs
    cases or with
    | none =>
      cases hs
      exact ⟨Agree.refl _ _, by simp, by simp⟩
    | some r =>
      obtain ⟨t, ht, hok⟩ := dev.transfer_spec r mem
      have hdata := parseRequest_seen hp
      have hseen := chain'.nextDescriptor_seen t.mem
      simp only [ht, Option.bind_some] at hs ⊢
      obtain ⟨-, hchain, hput⟩ := writeStatus_eq_some hs
      rw [← hchain] at hseen
      refine ⟨?_, ?_, ?_⟩
      · have hag : ∀ S : Set ℕ,
            Agree ({x | (∃ r', some r = some r' ∧ x ∈ dev.dataRange r') ∨ x ∈ S}) mem t.mem :=
          fun S => hok.agree.mono fun x hx => Or.inl ⟨r, rfl, hx⟩
        rcases hput with ⟨d, hd, hw, hmem, -⟩ | ⟨-, hmem, -⟩
        · rw [hmem]
          refine (hag _).trans ((agree_put _ _ _).mono fun x hx => Or.inr ⟨d, hd, hw, ?_⟩)
          have h₁ := hx.1
          have h₂ := hx.2
          rw [List.length_singleton] at h₂
          omega
        · rw [hmem]
          exact hag _
      · rintro r' ⟨⟩
        rw [hseen]
        exact List.mem_append_left _ hdata
      · intro d hd
        rw [hseen, hd]
        simp

/-- `process_queue`: serve every available chain.  `none` when the loop has not ended after `fuel`
turns. -/
def processQueue (fuel : ℕ) (dev : VirtioBlockDevice) (queue : VirtQueue) (mem : M) :
    Option (LoopState VirtioBlockDevice M) :=
  drain serve fuel { dev, queue, mem }

end VirtioBlockDevice

end Hitz.Devices
