import IlpConnector.Bytes.Basic

/-!
# Hexadecimal text

Each octet is two digits, the high half first.  Writing uses lower-case letters; reading accepts
both cases.
-/

namespace IlpConnector.Hex

/-- The lower-case digit of a number below sixteen. -/
def digit (n : Nat) : Char :=
  if n < 10 then Char.ofNat (48 + n) else Char.ofNat (87 + n)

/-- What a hexadecimal digit stands for. -/
def digitValue? (c : Char) : Option Nat :=
  if '0' ≤ c ∧ c ≤ '9' then some (c.toNat - 48)
  else if 'a' ≤ c ∧ c ≤ 'f' then some (c.toNat - 87)
  else if 'A' ≤ c ∧ c ≤ 'F' then some (c.toNat - 55)
  else none

def encodeChars (b : Bytes) : List Char :=
  b.flatMap fun o => [digit (o.toNat / 16), digit (o.toNat % 16)]

def encode (b : Bytes) : String :=
  String.ofList (encodeChars b)

def decodeChars? : List Char → Option Bytes
  | [] => some []
  | [_] => none
  | hi :: lo :: rest => do
    let h ← digitValue? hi
    let l ← digitValue? lo
    let b ← decodeChars? rest
    return UInt8.ofNat (16 * h + l) :: b

/-- The octets that a text of digit pairs stands for; nothing else is hexadecimal text. -/
def decode? (s : String) : Option Bytes :=
  decodeChars? s.toList

/-- A character written as so many hexadecimal digits, and what follows it. -/
def readChar (digits : Nat) (cs : List Char) : Option (Char × List Char) := do
  let ds ← (cs.take digits).mapM digitValue?
  let n := ds.foldl (fun n d => n * 16 + d) 0
  if ds.length = digits && n.isValidChar then return (Char.ofNat n, cs.drop digits) else none

/-- The digits of a number without leading zeros, at least one. -/
def ofNat (n : Nat) : String :=
  String.ofList (Nat.toDigits 16 n)

end IlpConnector.Hex
