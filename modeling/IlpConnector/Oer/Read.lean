import IlpConnector.Bytes.Basic

/-!
# Reading length-prefixed fields

A reader takes what it reads from the front of some octets and returns the rest.  A variable-length
string starts with its length: one octet below 128, or the number of octets of a longer length and
then that length.  Longer lengths than needed are read too.  A variable-length number is such a
string of one to eight octets.
-/

namespace IlpConnector

/-- Takes a value from the front of some octets, and leaves the rest. -/
abbrev Reader (ε α : Type) := Bytes → Except ε (α × Bytes)

namespace Oer

inductive ReadError where
  /-- The octets end within a number or a field of fixed size. -/
  | endOfInput
  /-- A string is longer than the octets that are left. -/
  | tooFewOctets
  | invalidLengthPrefix
  | zeroLengthNumber
  | numberTooLarge
deriving DecidableEq, Repr

namespace ReadError

def message : ReadError → String
  | endOfInput => "failed to fill whole buffer"
  | tooFewOctets => "buffer too small"
  | invalidLengthPrefix => "invalid length prefix"
  | zeroLengthNumber => "zero-length VarUInt"
  | numberTooLarge => "VarUInt too large"

/-- The octets end too early, as against holding something wrong. -/
def isShortage : ReadError → Bool
  | endOfInput | tooFewOctets => true
  | _ => false

end ReadError

/-- So many octets, as a part of a number or a fixed field. -/
def readExact (n : Nat) : Reader ReadError Bytes := fun b =>
  if b.length < n then .error .endOfInput else .ok (b.take n, b.drop n)

/-- A field of `n` octets, as a number of fixed size. -/
def readOctets (n : Nat) : Reader ReadError (Octets n) := fun b =>
  if h : n ≤ b.length then .ok (Octets.ofTake n b h, b.drop n) else .error .endOfInput

/-- A big-endian number of `n` octets. -/
def readNat (n : Nat) : Reader ReadError Nat := fun b =>
  (readExact n b).map fun r => (Bytes.toNatBE r.1, r.2)

def readUInt8 : Reader ReadError UInt8
  | [] => .error .endOfInput
  | o :: rest => .ok (o, rest)

def readUInt16 : Reader ReadError UInt16 := fun b =>
  (readNat 2 b).map fun r => (.ofNat r.1, r.2)

def readUInt32 : Reader ReadError UInt32 := fun b =>
  (readNat 4 b).map fun r => (.ofNat r.1, r.2)

def readUInt64 : Reader ReadError UInt64 := fun b =>
  (readNat 8 b).map fun r => (.ofNat r.1, r.2)

/-- So many octets, as a string. -/
def readBytes (n : Nat) : Reader ReadError Bytes := fun b =>
  if b.length < n then .error .tooFewOctets else .ok (b.take n, b.drop n)

/-- A field of `n` octets, as a string whose length is known. -/
def readField (n : Nat) : Reader ReadError (Octets n) := fun b =>
  if h : n ≤ b.length then .ok (Octets.ofTake n b h, b.drop n) else .error .tooFewOctets

/-- The length of a variable-length string. -/
def readLength : Reader ReadError Nat
  | [] => .error .endOfInput
  | o :: rest =>
    if o < 0x80 then .ok (o.toNat, rest)
    else
      let width := o.toNat % 128
      if width = 0 ∨ 8 < width then .error .invalidLengthPrefix else readNat width rest

/-- A variable-length string. -/
def readString : Reader ReadError Bytes := fun b => do
  let (n, b) ← readLength b
  readBytes n b

/-- A variable-length number of at most eight octets. -/
def readVarUInt : Reader ReadError UInt64 := fun b => do
  let (n, b) ← readLength b
  if n = 0 then throw .zeroLengthNumber
  else if 8 < n then throw .numberTooLarge
  else
    let (v, b) ← readNat n b
    return (.ofNat v, b)

/-- As many items as announced, one after the other. -/
def readMany {ε α : Type} (item : Reader ε α) : Nat → Reader ε (List α)
  | 0, b => .ok ([], b)
  | n + 1, b =>
    match item b with
    | .error e => .error e
    | .ok (a, b) =>
      match readMany item n b with
      | .error e => .error e
      | .ok (as, b) => .ok (a :: as, b)

end Oer

end IlpConnector
