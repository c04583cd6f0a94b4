import IlpConnector.Text.Decimal
import IlpConnector.Url.Basic

/-!
# Hosts in URLs

A host is a name in lower case, four numbers between dots, or eight groups of hexadecimal digits in
brackets.  The numbers may be written in other bases and be fewer than four; what is kept is the
common form.
-/

namespace IlpConnector.Url

/-- The texts between separators. -/
def splitOn (sep : Char) : List Char → List (List Char)
  | [] => [[]]
  | c :: cs =>
    if c = sep then [] :: splitOn sep cs
    else
      match splitOn sep cs with
      | [] => [[c]]
      | s :: ss => (c :: s) :: ss

/-- The octets that a text with percent signs stands for. -/
def unescape : List Char → Bytes
  | '%' :: a :: b :: rest =>
    match Hex.digitValue? a, Hex.digitValue? b with
    | some a, some b => UInt8.ofNat (16 * a + b) :: unescape rest
    | _, _ => 0x25 :: unescape (a :: b :: rest)
  | c :: rest => Utf8.encode (String.singleton c) ++ unescape rest
  | [] => []
termination_by cs => cs.length

/-- The number in digits of a base up to sixteen. -/
def digitsIn? (base : Nat) (cs : List Char) : Option Nat :=
  cs.foldlM (fun n c => (Hex.digitValue? c).bind fun d =>
    if d < base then some (n * base + d) else none) 0

/-- A part of a numeric host: hexadecimal after `0x`, octal after another zero. -/
def ipv4Part? : List Char → Option Nat
  | [] => none
  | '0' :: x :: rest =>
    if x = 'x' ∨ x = 'X' then digitsIn? 16 rest else digitsIn? 8 (x :: rest)
  | cs => digitsIn? 10 cs

/-- The parts of a host between dots, without an empty last one. -/
def hostParts (host : List Char) : List (List Char) :=
  let parts := splitOn '.' host
  if 1 < parts.length && parts.getLast? == some [] then parts.dropLast else parts

/-- A host whose last part is a number has to be numeric as a whole. -/
def endsInNumber (host : List Char) : Bool :=
  match (hostParts host).getLast? with
  | none => false
  | some [] => false
  | some last => last.all Char.isDigit || (match last with
      | '0' :: x :: rest => (x = 'x' ∨ x = 'X') && (digitsIn? 16 rest).isSome
      | _ => false)

def ipv4Text (n : Nat) : String :=
  ".".intercalate ([n / 16777216, n / 65536 % 256, n / 256 % 256, n % 256].map toString)

/-- A numeric host of up to four parts, of which the last fills the octets that are left. -/
def ipv4 (host : List Char) : Except UrlError String :=
  let parts := hostParts host
  if 4 < parts.length then .error .invalidIpv4
  else
    match parts.mapM ipv4Part? with
    | none => .error .invalidIpv4
    | some numbers =>
      let first := numbers.dropLast
      let last := numbers.getLastD 0
      if first.any (255 < ·) || Nat.pow 256 (5 - numbers.length) ≤ last then .error .invalidIpv4
      else
        let high := first.foldl (fun n d => n * 256 + d) 0
        .ok (ipv4Text (high * Nat.pow 256 (5 - numbers.length) + last))

/-- A group of up to four hexadecimal digits. -/
def ipv6Group? (cs : List Char) : Option Nat :=
  if cs.isEmpty || 4 < cs.length then none else digitsIn? 16 cs

/-- Groups between colons; the last may be four decimal numbers instead of two groups. -/
def ipv6Groups? (cs : List Char) : Option (List Nat) :=
  if cs.isEmpty then some []
  else
    let parts := splitOn ':' cs
    let last := parts.getLastD []
    if last.contains '.' then do
      let front ← parts.dropLast.mapM ipv6Group?
      let octets ← (splitOn '.' last).mapM fun s =>
        if s.length = 0 || 3 < s.length || (1 < s.length && s.head? == some '0') then none
        else (digitsIn? 10 s).filter (· < 256)
      match octets with
      | [a, b, c, d] => return front ++ [a * 256 + b, c * 256 + d]
      | _ => none
    else parts.mapM ipv6Group?

/-- Splits at the first double colon. -/
def splitDoubleColon : List Char → Option (List Char × List Char)
  | ':' :: ':' :: rest => some ([], rest)
  | c :: rest => (splitDoubleColon rest).map fun r => (c :: r.1, r.2)
  | [] => none

def ipv6 (cs : List Char) : Except UrlError (List Nat) :=
  let groups : Option (List Nat) :=
    match splitDoubleColon cs with
    | none => (ipv6Groups? cs).filter (·.length = 8)
    | some (front, back) => do
      let front ← ipv6Groups? front
      let back ← ipv6Groups? back
      if front.length + back.length ≤ 7 then
        return front ++ List.replicate (8 - front.length - back.length) 0 ++ back
      else none
  match groups with
  | some groups => .ok groups
  | none => .error .invalidIpv6

/-- The length of the run of zeros at the start. -/
def zeroRun (groups : List Nat) : Nat := (groups.takeWhile (· = 0)).length

/-- The first of the longest runs of two zeros or more, as its start and its length. -/
def longestZeroRun (groups : List Nat) : Option (Nat × Nat) :=
  let runs := (List.range groups.length).map fun i => (i, zeroRun (groups.drop i))
  (runs.foldl (fun best r => if best.2 < r.2 then r else best) (0, 1)) |> fun r =>
    if r.2 < 2 then none else some r

def lowerHex (n : Nat) : String := String.ofList (Nat.toDigits 16 n)

def ipv6Text (groups : List Nat) : String :=
  match longestZeroRun groups with
  | none => ":".intercalate (groups.map lowerHex)
  | some (start, length) =>
    ":".intercalate ((groups.take start).map lowerHex) ++ "::"
      ++ ":".intercalate ((groups.drop (start + length)).map lowerHex)

def forbiddenInHost (c : Char) : Bool := "\x00\t\n\r #/:<>?@[\\]^|".toList.contains c

def forbiddenInName (c : Char) : Bool :=
  forbiddenInHost c || c.toNat < 32 || c = '%' || c.toNat = 127

/-- The host of a URL with a scheme whose hosts are names. -/
def hostName (host : List Char) : Except UrlError String :=
  match host with
  | '[' :: rest =>
    if rest.getLast? = some ']' then
      (ipv6 rest.dropLast).map fun groups => "[" ++ ipv6Text groups ++ "]"
    else .error .invalidIpv6
  | _ =>
    let name := (Utf8.decodeLossy (unescape host)).toList
    if name.any (128 ≤ ·.toNat) then .error .invalidName
    else if name.isEmpty then .error .emptyHost
    else if name.any forbiddenInName then .error .invalidNameCharacter
    else
      let name := name.map Char.toLower
      if endsInNumber name then ipv4 name else .ok (String.ofList name)

/-- The host of a URL with any other scheme. -/
def opaqueHost (host : List Char) : Except UrlError String :=
  match host with
  | '[' :: _ => hostName host
  | _ =>
    if host.any forbiddenInHost then .error .invalidNameCharacter
    else .ok (String.ofList (host.flatMap (escape fun _ => false)))

end IlpConnector.Url
