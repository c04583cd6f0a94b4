import IlpConnector.Bytes.Basic

/-!
# Writing length-prefixed fields

The writers use the shortest form of every length and number, and `stringSize` and `numberSize`
tell the size of it beforehand.
-/

namespace IlpConnector.Oer

/-- The octets of the shortest form of a number, at least one. -/
def numberSize (n : Nat) : Nat :=
  if n < 256 then 1 else numberSize (n / 256) + 1

/-- The octets of a variable-length string of `n` octets, with its length. -/
def stringSize (n : Nat) : Nat :=
  if n < 128 then 1 + n else 1 + numberSize n + n

def writeUInt8 (n : UInt8) : Bytes := [n]

def writeUInt16 (n : UInt16) : Bytes := Bytes.ofNatBE 2 n.toNat

def writeUInt32 (n : UInt32) : Bytes := Bytes.ofNatBE 4 n.toNat

def writeUInt64 (n : UInt64) : Bytes := Bytes.ofNatBE 8 n.toNat

/-- The length of a variable-length string. -/
def writeLength (n : Nat) : Bytes :=
  if n < 128 then [UInt8.ofNat n]
  else UInt8.ofNat (128 + numberSize n) :: Bytes.ofNatBE (numberSize n) n

/-- A variable-length string. -/
def writeString (b : Bytes) : Bytes :=
  writeLength b.length ++ b

/-- A variable-length number. -/
def writeVarUInt (n : UInt64) : Bytes :=
  writeLength (numberSize n.toNat) ++ Bytes.ofNatBE (numberSize n.toNat) n.toNat

end IlpConnector.Oer
