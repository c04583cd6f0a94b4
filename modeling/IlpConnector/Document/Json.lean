import IlpConnector.Document.Basic
import IlpConnector.Bytes.Hex
import IlpConnector.Decimal.Shortest
import IlpConnector.Text.Decimal

/-!
# JSON

`Json.read` reads a document from a text, and `Json.write` writes one without blanks.  Numbers that
not every reader can hold are made texts by `Json.portable`.  Of entries
with the same key the last counts.  A whole number that fits in 64 bits, signed or not, stays whole;
every other number is a real one.
-/

namespace IlpConnector.Json

/-- The deepest nesting of lists and tables. -/
def maxDepth : Nat := 127

def isBlank (c : Char) : Bool :=
  c = ' ' || c = '\t' || c = '\n' || c = '\r'

def skipBlanks (cs : List Char) : List Char :=
  cs.dropWhile isBlank

/-- Four hexadecimal digits. -/
def readUnit : List Char → Option (Nat × List Char)
  | a :: b :: c :: d :: rest => do
    let a ← Hex.digitValue? a
    let b ← Hex.digitValue? b
    let c ← Hex.digitValue? c
    let d ← Hex.digitValue? d
    return (a * 4096 + b * 256 + c * 16 + d, rest)
  | _ => none

/-- The character after `\u`; a pair of surrogates is one character. -/
def readEscapedUnit (cs : List Char) : Option (Char × List Char) := do
  let (n, rest) ← readUnit cs
  if 0xD800 ≤ n ∧ n < 0xDC00 then
    match rest with
    | '\\' :: 'u' :: rest =>
      let (m, rest) ← readUnit rest
      if 0xDC00 ≤ m ∧ m < 0xE000 then
        return (Char.ofNat (0x10000 + (n - 0xD800) * 1024 + (m - 0xDC00)), rest)
      else none
    | _ => none
  else if 0xDC00 ≤ n ∧ n < 0xE000 then none
  else return (Char.ofNat n, rest)

/-- The characters up to the closing quote, and what follows it. -/
def readString : (fuel : Nat) → List Char → (seen : List Char) → Option (String × List Char)
  | 0, _, _ => none
  | fuel + 1, cs, seen =>
    match cs with
    | [] => none
    | '"' :: rest => some (String.ofList seen.reverse, rest)
    | '\\' :: '"' :: rest => readString fuel rest ('"' :: seen)
    | '\\' :: '\\' :: rest => readString fuel rest ('\\' :: seen)
    | '\\' :: '/' :: rest => readString fuel rest ('/' :: seen)
    | '\\' :: 'b' :: rest => readString fuel rest ('\x08' :: seen)
    | '\\' :: 'f' :: rest => readString fuel rest ('\x0c' :: seen)
    | '\\' :: 'n' :: rest => readString fuel rest ('\n' :: seen)
    | '\\' :: 'r' :: rest => readString fuel rest ('\r' :: seen)
    | '\\' :: 't' :: rest => readString fuel rest ('\t' :: seen)
    | '\\' :: 'u' :: rest =>
      match readEscapedUnit rest with
      | some (c, rest) => readString fuel rest (c :: seen)
      | none => none
    | '\\' :: _ => none
    | c :: rest => if c.toNat < 32 then none else readString fuel rest (c :: seen)

/-- The number that digits, the digits of a fraction and an exponent stand for.  Beyond ten to the
power of 400 either way it is infinite or zero, whatever the digits. -/
def realOf (negative : Bool) (whole fraction : List Char) (exponent : Int) : Float :=
  let digits := whole ++ fraction
  let mantissa := Text.digitsValue digits
  let e := exponent - fraction.length
  let x :=
    if mantissa = 0 || e + digits.length < -400 then 0.0
    else if 400 < e then 1.0 / 0.0
    else Float.ofScientific mantissa (e < 0) e.natAbs
  if negative then -x else x

/-- The exponent of a number, if it has one. -/
def readExponent (cs : List Char) : Option (Option Int × List Char) :=
  let signed (negative : Bool) (cs : List Char) : Option (Option Int × List Char) :=
    let digits := cs.takeWhile Char.isDigit
    if digits.isEmpty then none
    else
      let n : Int := Text.digitsValue digits
      some (some (if negative then -n else n), cs.drop digits.length)
  match cs with
  | c :: rest =>
    if c = 'e' ∨ c = 'E' then
      match rest with
      | '-' :: rest => signed true rest
      | '+' :: rest => signed false rest
      | _ => signed false rest
    else some (none, cs)
  | [] => some (none, cs)

/-- The digits after a point, if there is one; at least one digit follows a point. -/
def readFraction (cs : List Char) : Option (Option (List Char) × List Char) :=
  match cs with
  | '.' :: rest =>
    let digits := rest.takeWhile Char.isDigit
    if digits.isEmpty then none else some (some digits, rest.drop digits.length)
  | _ => some (none, cs)

/-- A number; its whole part has no leading zero. -/
def readNumber (cs : List Char) : Option (Document × List Char) := do
  let (negative, cs) :=
    match cs with
    | '-' :: rest => (true, rest)
    | _ => (false, cs)
  let whole :=
    match cs with
    | '0' :: _ => ['0']
    | _ => cs.takeWhile Char.isDigit
  if whole.isEmpty then none
  else
    let rest := cs.drop whole.length
    if rest.head?.any Char.isDigit then none
    else
      let (fraction, rest) ← readFraction rest
      let (exponent, rest) ← readExponent rest
      let n : Int := Text.digitsValue whole
      let n := if negative then -n else n
      if fraction.isNone && exponent.isNone && -9223372036854775808 ≤ n && n < 18446744073709551616
          && !(negative && n == 0) then
        return (.int n, rest)
      else
        let x := realOf negative whole (fraction.getD []) (exponent.getD 0)
        if x.isFinite then return (.real x, rest) else none

/-- A fixed word. -/
def readWord (word : String) (d : Document) (cs : List Char) : Option (Document × List Char) :=
  if word.toList.isPrefixOf cs then some (d, cs.drop word.toList.length) else none

mutual

/-- A value, after blanks, nested at most so deep. -/
def readValue : (fuel depth : Nat) → List Char → Option (Document × List Char)
  | 0, _, _ => none
  | fuel + 1, depth, cs =>
    match skipBlanks cs with
    | '"' :: rest => (readString (rest.length + 1) rest []).map fun r => (.text r.1, r.2)
    | '[' :: rest =>
      match depth with
      | 0 => none
      | depth + 1 =>
        match skipBlanks rest with
        | ']' :: rest => some (.list [], rest)
        | rest => readItems fuel depth rest []
    | '\x7b' :: rest =>
      match depth with
      | 0 => none
      | depth + 1 =>
        match skipBlanks rest with
        | '\x7d' :: rest => some (.table [], rest)
        | rest => readEntries fuel depth rest []
    | 'n' :: rest => readWord "null" .null ('n' :: rest)
    | 't' :: rest => readWord "true" (.bool true) ('t' :: rest)
    | 'f' :: rest => readWord "false" (.bool false) ('f' :: rest)
    | cs => readNumber cs

/-- The items of a list up to its end, after some that are already read, the latest first. -/
def readItems : (fuel depth : Nat) → List Char → List Document → Option (Document × List Char)
  | 0, _, _, _ => none
  | fuel + 1, depth, cs, seen =>
    match readValue fuel depth cs with
    | none => none
    | some (d, rest) =>
      match skipBlanks rest with
      | ',' :: rest => readItems fuel depth rest (d :: seen)
      | ']' :: rest => some (.list (d :: seen).reverse, rest)
      | _ => none

/-- The entries of a table up to its end, after some that are already read. -/
def readEntries : (fuel depth : Nat) → List Char → List (String × Document) →
    Option (Document × List Char)
  | 0, _, _, _ => none
  | fuel + 1, depth, cs, seen =>
    match skipBlanks cs with
    | '"' :: rest =>
      match readString (rest.length + 1) rest [] with
      | none => none
      | some (key, rest) =>
        match skipBlanks rest with
        | ':' :: rest =>
          match readValue fuel depth rest with
          | none => none
          | some (d, rest) =>
            let seen := Document.setEntry key d seen
            match skipBlanks rest with
            | ',' :: rest => readEntries fuel depth rest seen
            | '\x7d' :: rest => some (.table seen, rest)
            | _ => none
        | _ => none
    | _ => none

end

/-- The document that a text stands for. -/
def read (s : String) : Option Document :=
  let cs := s.toList
  match readValue (2 * cs.length + 2) maxDepth cs with
  | some (d, rest) => if (skipBlanks rest).isEmpty then some d else none
  | none => none

/-- The form of a character in a quoted text. -/
def escape (c : Char) : List Char :=
  if c = '"' then ['\\', '"']
  else if c = '\\' then ['\\', '\\']
  else if c = '\x08' then ['\\', 'b']
  else if c = '\x0c' then ['\\', 'f']
  else if c = '\n' then ['\\', 'n']
  else if c = '\r' then ['\\', 'r']
  else if c = '\t' then ['\\', 't']
  else if c.toNat < 32 then
    ['\\', 'u', '0', '0', Hex.digit (c.toNat / 16), Hex.digit (c.toNat % 16)]
  else [c]

def writeString (s : String) : String :=
  String.ofList ('"' :: s.toList.flatMap escape ++ ['"'])

mutual

def write : Document → String
  | .null => "null"
  | .bool true => "true"
  | .bool false => "false"
  | .int n => toString n
  | .real x => Decimal.text x
  | .text s => writeString s
  | .list items => "[" ++ ",".intercalate (writeItems items) ++ "]"
  | .table entries => "\x7b" ++ ",".intercalate (writeEntries entries) ++ "\x7d"

def writeItems : List Document → List String
  | [] => []
  | d :: ds => write d :: writeItems ds

def writeEntries : List (String × Document) → List String
  | [] => []
  | (k, d) :: es => (writeString k ++ ":" ++ write d) :: writeEntries es

end

/-- The largest whole number up to which every reader tells all whole numbers apart. -/
def maxPortable : Int := 9007199254740992

mutual

/-- The document with larger whole numbers as texts. -/
def portable : Document → Document
  | .int n => if maxPortable < n then .text (toString n) else .int n
  | .list ds => .list (portableItems ds)
  | .table es => .table (portableEntries es)
  | d => d

def portableItems : List Document → List Document
  | [] => []
  | d :: ds => portable d :: portableItems ds

def portableEntries : List (String × Document) → List (String × Document)
  | [] => []
  | (k, d) :: es => (k, portable d) :: portableEntries es

end

end IlpConnector.Json
