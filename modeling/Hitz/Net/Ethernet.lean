import Mathlib

/-!
# Addresses in text (`hitz-net/src/ethernet.rs`)

`parse_cidr` reads `A.B.C.D/prefix` and `parse_mac` reads `AA:BB:CC:DD:EE:FF`.  Numbers are read as
the standard library reads a `u8`: an optional `+`, then digits; the texts of its errors are part of
the messages.
-/

namespace Hitz.Net

/-- The digits of a `u8`, most significant first, after the value `acc`. -/
def parseDigits : List Char → ℕ → Except String ℕ
  | [], acc => pure acc
  | c :: cs, acc =>
    if c.isDigit then
      let value := acc * 10 + (c.toNat - '0'.toNat)
      if 255 < value then throw "number too large to fit in target type"
      else parseDigits cs value
    else throw "invalid digit found in string"

/-- `str::parse::<u8>`. -/
def parseU8 (s : List Char) : Except String UInt8 :=
  UInt8.ofNat <$> match s with
    | [] => throw "cannot parse integer from empty string"
    | ['+'] => throw "invalid digit found in string"
    | '+' :: digits => parseDigits digits 0
    | digits => parseDigits digits 0

/-- Octet number `i`, and the parts after it. -/
def nextOctet (i : ℕ) : List (List Char) → Except String (UInt8 × List (List Char))
  | [] => throw ("expected 4 octets, got " ++ toString i)
  | octet :: rest =>
    match parseU8 octet with
    | .ok byte => pure (byte, rest)
    | .error e => throw ("invalid octet '" ++ String.ofList octet ++ "': " ++ e)

/-- `parse_cidr`: the address and the prefix length. -/
def parseCidr (s : String) : Except String (Vector UInt8 4 × UInt8) :=
  if 18 < s.utf8ByteSize then
    throw ("input too long for CIDR (len " ++ toString s.utf8ByteSize ++ ")")
  else
    match s.toList.dropWhile (· ≠ '/') with
    | [] => throw "expected format: A.B.C.D/prefix"
    | _ :: lengthStr => do
      let octets := (s.toList.takeWhile (· ≠ '/')).splitOnP (· == '.')
      let (a, octets) ← nextOctet 0 octets
      let (b, octets) ← nextOctet 1 octets
      let (c, octets) ← nextOctet 2 octets
      let (d, octets) ← nextOctet 3 octets
      if octets ≠ [] then throw "expected 4 octets, got >4"
      else
        match parseU8 lengthStr with
        | .error e =>
          throw ("invalid prefix length '" ++ String.ofList lengthStr ++ "': " ++ e)
        | .ok length =>
          if 32 < length then
            throw ("prefix length " ++ toString length ++ " exceeds 32")
          else pure (#v[a, b, c, d], length)

/-- The value of a hexadecimal digit of either case. -/
def hexDigit (c : Char) : Option ℕ :=
  if c.isDigit then some (c.toNat - '0'.toNat)
  else if 'a' ≤ c ∧ c ≤ 'f' then some (c.toNat - 'a'.toNat + 10)
  else if 'A' ≤ c ∧ c ≤ 'F' then some (c.toNat - 'A'.toNat + 10)
  else none

/-- The hexadecimal digits of a `u8`, most significant first, after the value `acc`. -/
def parseHexDigits : List Char → ℕ → Except String ℕ
  | [], acc => pure acc
  | c :: cs, acc =>
    match hexDigit c with
    | none => throw "invalid digit found in string"
    | some d =>
      let value := acc * 16 + d
      if 255 < value then throw "number too large to fit in target type"
      else parseHexDigits cs value

/-- `u8::from_str_radix(s, 16)`. -/
def parseHexU8 (s : List Char) : Except String UInt8 :=
  UInt8.ofNat <$> match s with
    | [] => throw "cannot parse integer from empty string"
    | ['+'] => throw "invalid digit found in string"
    | '+' :: digits => parseHexDigits digits 0
    | digits => parseHexDigits digits 0

/-- Byte number `i` of a MAC address, and the parts after it. -/
def nextMacByte (i : ℕ) : List (List Char) → Except String (UInt8 × List (List Char))
  | [] => throw ("expected 6 colon-separated octets, got " ++ toString i)
  | part :: rest =>
    match parseHexU8 part with
    | .ok byte => pure (byte, rest)
    | .error e => throw ("invalid hex octet '" ++ String.ofList part ++ "': " ++ e)

/-- What `parseU8` and `parseHexU8` share: an optional sign, and the digits that `read` reads. -/
def parseSigned (read : List Char → ℕ → Except String ℕ) (s : List Char) : Except String UInt8 :=
  UInt8.ofNat <$> match s with
    | [] => throw "cannot parse integer from empty string"
    | ['+'] => throw "invalid digit found in string"
    | '+' :: digits => read digits 0
    | digits => read digits 0

theorem parseU8_eq : parseU8 = parseSigned parseDigits := rfl

theorem parseHexU8_eq : parseHexU8 = parseSigned parseHexDigits := rfl

/-- What `nextOctet` and `nextMacByte` share. -/
def nextByte (parse : List Char → Except String UInt8) (missing : String)
    (invalid : List Char → String → String) :
    List (List Char) → Except String (UInt8 × List (List Char))
  | [] => throw missing
  | part :: rest =>
    match parse part with
    | .ok byte => pure (byte, rest)
    | .error e => throw (invalid part e)

theorem nextOctet_eq (i : ℕ) (parts : List (List Char)) :
    nextOctet i parts = nextByte parseU8 ("expected 4 octets, got " ++ toString i)
      (fun octet e => "invalid octet '" ++ String.ofList octet ++ "': " ++ e) parts := by
  cases parts with
  | nil => rfl
  | cons octet rest => rfl

theorem nextMacByte_eq (i : ℕ) (parts : List (List Char)) :
    nextMacByte i parts =
      nextByte parseHexU8 ("expected 6 colon-separated octets, got " ++ toString i)
        (fun part e => "invalid hex octet '" ++ String.ofList part ++ "': " ++ e) parts := by
  cases parts with
  | nil => rfl
  | cons part rest => rfl

/-- `parse_mac`. -/
def parseMac (s : String) : Except String (Vector UInt8 6) :=
  if 17 < s.utf8ByteSize then
    throw ("input too long for MAC address (len " ++ toString s.utf8ByteSize ++ ")")
  else do
    let parts := s.toList.splitOnP (· == ':')
    let (a, parts) ← nextMacByte 0 parts
    let (b, parts) ← nextMacByte 1 parts
    let (c, parts) ← nextMacByte 2 parts
    let (d, parts) ← nextMacByte 3 parts
    let (e, parts) ← nextMacByte 4 parts
    let (f, parts) ← nextMacByte 5 parts
    if parts ≠ [] then throw "expected 6 colon-separated octets, got >6"
    else pure #v[a, b, c, d, e, f]

example : (parseCidr "192.168.100.1/24").toOption = some (#v[192, 168, 100, 1], 24) := by
  decide +kernel

example : (parseMac "02:00:5e:10:00:FF").toOption = some #v[2, 0, 0x5e, 0x10, 0, 0xFF] := by
  decide +kernel

end Hitz.Net
