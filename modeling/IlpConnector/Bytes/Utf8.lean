import IlpConnector.Bytes.Basic

/-!
# UTF-8

`decode` reads text from octets and says where and how it fails: at the index of the first octet
that starts no character, with the number of octets that are wrong there, or with none when the
octets only end too early.  `decodeLossy` replaces each wrong stretch by one replacement
character.  `encode` is the form that `decode` reads.
-/

namespace IlpConnector.Utf8

/-- Why octets are not text.  The text before `validUpTo` is well formed; `length` is the number
of octets that start no character there, or `none` when the last character is cut short. -/
structure DecodeError where
  validUpTo : Nat
  length : Option Nat
deriving DecidableEq, Repr

def DecodeError.message (e : DecodeError) : String :=
  match e.length with
  | some n => s!"invalid utf-8 sequence of {n} bytes from index {e.validUpTo}"
  | none => s!"incomplete utf-8 byte sequence from index {e.validUpTo}"

/-- What stands at the start of some octets. -/
inductive Head where
  /-- A character in its shortest form, and what follows it. -/
  | char (c : Char) (rest : Bytes)
  /-- So many octets start no character. -/
  | wrong (length : Nat)
  /-- The octets end within a character. -/
  | short
deriving DecidableEq

def isContinuation (o : UInt8) : Bool :=
  0x80 ≤ o && o ≤ 0xBF

/-- How many octets a character with this first octet has after it; none where no character of
more than one octet starts. -/
def followers (o : UInt8) : Option Nat :=
  if 0xC2 ≤ o ∧ o ≤ 0xDF then some 1
  else if 0xE0 ≤ o ∧ o ≤ 0xEF then some 2
  else if 0xF0 ≤ o ∧ o ≤ 0xF4 then some 3
  else none

/-- Which second octets may follow a first one: the shortest forms of scalar values only. -/
def isSecond (first second : UInt8) : Bool :=
  if first = 0xE0 then 0xA0 ≤ second && second ≤ 0xBF
  else if first = 0xED then 0x80 ≤ second && second ≤ 0x9F
  else if first = 0xF0 then 0x90 ≤ second && second ≤ 0xBF
  else if first = 0xF4 then 0x80 ≤ second && second ≤ 0x8F
  else isContinuation second

/-- The low six bits of a continuation octet. -/
def payload (o : UInt8) : Nat := o.toNat % 64

/-- What stands at the start of the octets `first :: rest`. -/
def head (first : UInt8) (rest : Bytes) : Head :=
  if first < 0x80 then .char (Char.ofNat first.toNat) rest
  else
    match followers first with
    | none => .wrong 1
    | some 1 =>
      match rest with
      | [] => .short
      | b :: rest =>
        if isSecond first b then .char (Char.ofNat (first.toNat % 32 * 64 + payload b)) rest
        else .wrong 1
    | some 2 =>
      match rest with
      | [] => .short
      | b :: rest =>
        if isSecond first b then
          match rest with
          | [] => .short
          | c :: rest =>
            if isContinuation c then
              .char (Char.ofNat (first.toNat % 16 * 4096 + payload b * 64 + payload c)) rest
            else .wrong 2
        else .wrong 1
    | some _ =>
      match rest with
      | [] => .short
      | b :: rest =>
        if isSecond first b then
          match rest with
          | [] => .short
          | c :: rest =>
            if isContinuation c then
              match rest with
              | [] => .short
              | d :: rest =>
                if isContinuation d then
                  .char (Char.ofNat (first.toNat % 8 * 262144 + payload b * 4096
                    + payload c * 64 + payload d)) rest
                else .wrong 3
            else .wrong 2
        else .wrong 1

/-- A character takes at least its first octet. -/
theorem length_of_head_char {first : UInt8} {rest : Bytes} {c : Char} {r : Bytes}
    (h : head first rest = .char c r) : r.length ≤ rest.length := by
  unfold head at h
  grind

/-- Reads characters from octets that start at the given index. -/
def decodeFrom (index : Nat) : Bytes → Except DecodeError (List Char)
  | [] => .ok []
  | first :: rest =>
    match h : head first rest with
    | .char c r =>
      have : r.length ≤ rest.length := length_of_head_char h
      match decodeFrom (index + ((first :: rest).length - r.length)) r with
      | .ok cs => .ok (c :: cs)
      | .error e => .error e
    | .wrong n => .error ⟨index, some n⟩
    | .short => .error ⟨index, none⟩
termination_by b => b.length
decreasing_by
  simp only [List.length_cons]
  omega

/-- The text that octets stand for. -/
def decode (b : Bytes) : Except DecodeError String :=
  (decodeFrom 0 b).map String.ofList

/-- The text of octets in which each stretch that starts no character, and a character cut short at
the end, is replaced by one replacement character. -/
def decodeLossyChars : Bytes → List Char
  | [] => []
  | first :: rest =>
    match h : head first rest with
    | .char c r =>
      have : r.length ≤ rest.length := length_of_head_char h
      c :: decodeLossyChars r
    | .wrong n =>
      Char.ofNat 0xFFFD :: decodeLossyChars (rest.drop (n - 1))
    | .short => [Char.ofNat 0xFFFD]
termination_by b => b.length
decreasing_by
  all_goals
    simp only [List.length_drop, List.length_cons]
    omega

def decodeLossy (b : Bytes) : String :=
  String.ofList (decodeLossyChars b)

def encode (s : String) : Bytes :=
  s.toList.flatMap String.utf8EncodeChar

end IlpConnector.Utf8
