import IlpConnector.Bytes.Hex
import IlpConnector.Document.Json

/-!
# Scalars in YAML

A scalar is a word or several, in quotes or plain, or a block of lines.  A `Cursor` is a place in a
text; where a line starts counts, so it knows its column.  Lines of one scalar are folded: the end
of a line is a blank, and each further one stays.

What is in quotes or a block is text.  A plain scalar is what it looks like (`scalarOf`).
-/

namespace IlpConnector.Yaml

def isBlank (c : Char) : Bool := c = ' ' || c = '\t'

def isGap (c : Char) : Bool := isBlank c || c = '\n'

/-- A blank or an end comes next. -/
def endsWord (cs : List Char) : Bool := cs.head?.all isGap

/-- The marks of lists and tables within brackets. -/
def isFlowMark (c : Char) : Bool :=
  c = ',' || c = '[' || c = ']' || c = '\x7b' || c = '\x7d'

/-- A place in a text: what is left, and how far along its line that starts. -/
structure Cursor where
  rest : List Char
  column : Nat
  /-- What has been given a name so far, the latest first. -/
  named : List (String × Document)

namespace Cursor

/-- The place after so many characters. -/
def skip (c : Cursor) (n : Nat) : Cursor :=
  let lastLine := (c.rest.take n).reverse.takeWhile (· ≠ '\n')
  { c with
    rest := c.rest.drop n
    column := if lastLine.length < n then lastLine.length else c.column + n }

/-- The place where this is left. -/
def moveTo (c : Cursor) (rest : List Char) : Cursor :=
  c.skip (c.rest.length - rest.length)

/-- Three dashes or points on the left start or end a document. -/
def isAtMarker (c : Cursor) : Bool :=
  c.column = 0 && endsWord (c.rest.drop 3)
    && (c.rest.take 3 == ['-', '-', '-'] || c.rest.take 3 == ['.', '.', '.'])

/-- Nothing more of the document is left. -/
def isAtEnd (c : Cursor) : Bool := c.rest.isEmpty || c.isAtMarker

end Cursor

/-- Skips gaps and comments; the flag tells that a line has ended.  Blanks on the left are spaces,
except within brackets. -/
def skipGaps (inFlow : Bool) : (inComment crossed : Bool) → (column : Nat) → List Char →
    Bool × Nat × List Char
  | _, crossed, column, [] => (crossed, column, [])
  | inComment, crossed, column, c :: rest =>
    if c = '\n' then skipGaps inFlow false true 0 rest
    else if inComment || c = ' ' || (c = '\t' && (inFlow || !crossed)) then
      skipGaps inFlow inComment crossed (column + 1) rest
    else if c = '#' then skipGaps inFlow true crossed (column + 1) rest
    else (crossed, column, c :: rest)

/-- The next token, and whether it is on a later line. -/
def nextToken (inFlow : Bool) (c : Cursor) : Bool × Cursor :=
  let (crossed, column, rest) := skipGaps inFlow false false c.column c.rest
  (crossed, { c with rest, column })

/-- What so many ends of lines in a row become. -/
def folded (ends : Nat) : List Char :=
  if ends = 1 then [' '] else List.replicate (ends - 1) '\n'

/-- The folded form of a gap; one that ends no line stays. -/
def foldGap (gap : List Char) : List Char :=
  if gap.contains '\n' then folded (gap.count '\n') else gap

/-- The character after a backslash. -/
def readEscape : List Char → Option (Char × List Char)
  | '0' :: rest => some ('\x00', rest)
  | 'a' :: rest => some ('\x07', rest)
  | 'b' :: rest => some ('\x08', rest)
  | 't' :: rest | '\t' :: rest => some ('\t', rest)
  | 'n' :: rest => some ('\n', rest)
  | 'v' :: rest => some ('\x0b', rest)
  | 'f' :: rest => some ('\x0c', rest)
  | 'r' :: rest => some ('\r', rest)
  | 'e' :: rest => some ('\x1b', rest)
  | ' ' :: rest => some (' ', rest)
  | '"' :: rest => some ('"', rest)
  | '\x27' :: rest => some ('\x27', rest)
  | '/' :: rest => some ('/', rest)
  | '\\' :: rest => some ('\\', rest)
  | 'N' :: rest => some ('\u0085', rest)
  | '_' :: rest => some ('\u00a0', rest)
  | 'L' :: rest => some ('\u2028', rest)
  | 'P' :: rest => some ('\u2029', rest)
  | 'x' :: rest => Hex.readChar 2 rest
  | 'u' :: rest => Hex.readChar 4 rest
  | 'U' :: rest => Hex.readChar 8 rest
  | _ => none

/-- A text up to its closing double quote, after what is read of it, the latest first. -/
def readDouble : (fuel : Nat) → List Char → (seen : List Char) → Option (String × List Char)
  | 0, _, _ => none
  | fuel + 1, cs, seen =>
    match cs with
    | [] => none
    | '"' :: rest => some (String.ofList seen.reverse, rest)
    | '\\' :: '\n' :: rest =>
      let gap := rest.takeWhile isGap
      readDouble fuel (rest.drop gap.length) (List.replicate (gap.count '\n') '\n' ++ seen)
    | '\\' :: rest =>
      match readEscape rest with
      | some (c, rest) => readDouble fuel rest (c :: seen)
      | none => none
    | c :: rest =>
      if isGap c then
        let gap := cs.takeWhile isGap
        readDouble fuel (cs.drop gap.length) ((foldGap gap).reverse ++ seen)
      else readDouble fuel rest (c :: seen)

/-- A text up to its closing single quote; two of them stand for one. -/
def readSingle : (fuel : Nat) → List Char → (seen : List Char) → Option (String × List Char)
  | 0, _, _ => none
  | fuel + 1, cs, seen =>
    match cs with
    | [] => none
    | '\x27' :: '\x27' :: rest => readSingle fuel rest ('\x27' :: seen)
    | '\x27' :: rest => some (String.ofList seen.reverse, rest)
    | c :: rest =>
      if isGap c then
        let gap := cs.takeWhile isGap
        readSingle fuel (cs.drop gap.length) ((foldGap gap).reverse ++ seen)
      else readSingle fuel rest (c :: seen)

/-- A text in quotes, if one starts here. -/
def readQuoted (c : Cursor) : Option (Option (String × Cursor)) :=
  match c.rest with
  | '"' :: rest =>
    (readDouble (rest.length + 1) rest []).map fun r => some (r.1, c.moveTo r.2)
  | '\x27' :: rest =>
    (readSingle (rest.length + 1) rest []).map fun r => some (r.1, c.moveTo r.2)
  | _ => some none

/-- A colon that is followed by this ends a key. -/
def endsKey (inFlow : Bool) (rest : List Char) : Bool :=
  endsWord rest || (inFlow && rest.head?.any isFlowMark)

/-- A plain scalar can start here. -/
def startsPlain (inFlow : Bool) : List Char → Bool
  | [] => false
  | c :: rest =>
    if c = '-' || c = '?' || c = ':' then !endsKey inFlow rest
    else !isGap c && !isFlowMark c
      && !(['#', '&', '*', '!', '|', '>', '\x27', '"', '%', '@', '\x60'].contains c)

/-- The characters of a plain scalar on its line.  A comment needs a blank before it. -/
def plainChars (inFlow : Bool) : (afterBlank : Bool) → List Char → List Char
  | _, [] => []
  | afterBlank, c :: rest =>
    if c = '\n' || (c = '#' && afterBlank) || (c = ':' && endsKey inFlow rest)
        || (inFlow && isFlowMark c) then []
    else c :: plainChars inFlow (isBlank c) rest

def trimBlanks (cs : List Char) : List Char :=
  (cs.reverse.dropWhile isBlank).reverse

/-- The further lines of a plain scalar, which are deeper than the collection it is in. -/
def readPlainLines (inFlow : Bool) (parent : Int) : (fuel : Nat) → Cursor → (seen : List Char) →
    List Char × Cursor
  | 0, c, seen => (seen, c)
  | fuel + 1, c, seen =>
    let gap := c.rest.takeWhile isGap
    let next := c.skip gap.length
    let line := trimBlanks (plainChars inFlow true next.rest)
    if c.rest.head? ≠ some '\n' || next.isAtEnd || line.isEmpty
        || (!inFlow && (next.column : Int) ≤ parent) then (seen, c)
    else
      readPlainLines inFlow parent fuel (next.skip (plainChars inFlow true next.rest).length)
        (seen ++ foldGap gap ++ line)

/-- A plain scalar. -/
def readPlain (inFlow : Bool) (parent : Int) (c : Cursor) : String × Cursor :=
  let line := plainChars inFlow false c.rest
  let (text, after) :=
    readPlainLines inFlow parent c.rest.length (c.skip line.length) (trimBlanks line)
  (String.ofList text, after)

/-- What becomes of the ends of lines at the end of a block. -/
inductive Chomping where
  | strip
  | clip
  | keep
deriving DecidableEq

/-- How a block is read, from the marks in its first line: a sign and a depth in any order. -/
def readBlockMarks : (chomping : Chomping) → (depth : Option Nat) → List Char →
    Chomping × Option Nat × List Char
  | _, depth, '-' :: rest => readBlockMarks .strip depth rest
  | _, depth, '+' :: rest => readBlockMarks .keep depth rest
  | chomping, depth, c :: rest =>
    if '1' ≤ c && c ≤ '9' && depth.isNone then
      readBlockMarks chomping (some (c.toNat - 48)) rest
    else (chomping, depth, c :: rest)
  | chomping, depth, [] => (chomping, depth, [])

/-- The lines of a block, each without its indentation; a line that holds nothing else is empty. -/
def readBlockLines (indent : Nat) : (fuel : Nat) → List Char → List (List Char) × List Char
  | 0, cs => ([], cs)
  | fuel + 1, cs =>
    let line := cs.takeWhile (· ≠ '\n')
    let depth := (line.takeWhile (· = ' ')).length
    if cs.isEmpty || (depth < indent && depth < line.length) then ([], cs)
    else
      let (lines, rest) := readBlockLines indent fuel (cs.drop (line.length + 1))
      (line.drop indent :: lines, rest)

/-- The depth of the first line that is not blank. -/
def firstDepth : (fuel : Nat) → List Char → Nat
  | 0, _ => 0
  | fuel + 1, cs =>
    let line := cs.takeWhile (· ≠ '\n')
    let depth := (line.takeWhile (· = ' ')).length
    if cs.isEmpty then 0
    else if depth < line.length then depth
    else max depth (firstDepth fuel (cs.drop (line.length + 1)))

/-- The lines of a block put together.  In a folded block the end of a line between two lines that
do not start with a blank is a blank. -/
def joinLines (isFolded : Bool) : (last : Option (List Char)) → (ends : Nat) →
    List (List Char) → List Char × Nat
  | _, ends, [] => ([], ends)
  | last, ends, line :: rest =>
    if line.isEmpty then joinLines isFolded last (ends + 1) rest
    else
      let folds := isFolded && last.any (fun l => !l.head?.any isBlank) && !line.head?.any isBlank
      let gap := if folds then folded ends else List.replicate ends '\n'
      let (text, ends) := joinLines isFolded (some line) 1 rest
      (gap ++ line ++ text, ends)

/-- A block of lines under a bar or an angle. -/
def readBlock (isFolded : Bool) (parent : Int) (c : Cursor) : Option (String × Cursor) :=
  let (chomping, depth, afterMarks) := readBlockMarks .clip none c.rest
  let rest := afterMarks.dropWhile isBlank
  let comment := if rest.head? = some '#' then rest.takeWhile (· ≠ '\n') else []
  match rest.drop comment.length with
  | [] => some ("", { c with rest := [] })
  | '\n' :: lines =>
    let base := (max parent 0).toNat
    let indent :=
      match depth with
      | some n => base + n
      | none => max (firstDepth lines.length lines) (max (parent + 1).toNat 1)
    let (lines, after) := readBlockLines indent (lines.length + 1) lines
    let (text, ends) := joinLines isFolded none 0 lines
    let ends :=
      match chomping with
      | .strip => 0
      | .clip => if text.isEmpty then 0 else min ends 1
      | .keep => ends
    some (String.ofList (text ++ List.replicate ends '\n'), { c with rest := after, column := 0 })
  | _ => none

/-- A whole number of 64 bits with a sign. -/
def whole? (n : Option Int) : Option Document :=
  (n.filter fun n => -9223372036854775808 ≤ n && n ≤ 9223372036854775807).map .int

/-- A number in a base other than ten. -/
def inBase? (base : Nat) (cs : List Char) : Option Document := do
  let ds ← cs.mapM fun c => (Hex.digitValue? c).filter (· < base)
  if ds.isEmpty then none
  whole? (some (ds.foldl (fun n d => n * base + d) 0 : Nat))

/-- A real number in digits, or a word for one that is not finite. -/
def real? (cs : List Char) : Option Float := do
  let (negative, digits) : Bool × List Char :=
    match cs with
    | '-' :: rest => (true, rest)
    | '+' :: rest => (false, rest)
    | _ => (false, cs)
  let word := String.ofList (digits.map Char.toLower)
  if word = "inf" || word = "infinity" then return if negative then -(1.0 / 0.0) else 1.0 / 0.0
  if word = "nan" then return 0.0 / 0.0
  let whole := digits.takeWhile Char.isDigit
  let rest := digits.drop whole.length
  let (fraction, rest) :=
    match rest with
    | '.' :: rest =>
      let fraction := rest.takeWhile Char.isDigit
      (fraction, rest.drop fraction.length)
    | _ => ([], rest)
  if whole.isEmpty && fraction.isEmpty then none
  match ← Json.readExponent rest with
  | (exponent, []) => return Json.realOf negative whole fraction (exponent.getD 0)
  | _ => none

/-- What a plain scalar stands for: a number, a switch or nothing if it looks like one, and itself
otherwise. -/
def scalarOf (s : String) : Document :=
  let number : Option Document :=
    match s.toList with
    | '0' :: 'x' :: rest => inBase? 16 rest
    | '0' :: 'o' :: rest => inBase? 8 rest
    | _ => none
  match number with
  | some d => d
  | none =>
    if s = "~" || s = "null" then .null
    else if s = "true" then .bool true
    else if s = "false" then .bool false
    else
      match Text.intBetween? (-9223372036854775808) 9223372036854775807 s with
      | some n => .int n
      | none =>
        if [".inf", ".Inf", ".INF", "+.inf", "+.Inf", "+.INF"].contains s then .real (1.0 / 0.0)
        else if ["-.inf", "-.Inf", "-.INF"].contains s then .real (-(1.0 / 0.0))
        else if [".nan", "NaN", ".NAN"].contains s then .real (0.0 / 0.0)
        else
          match real? s.toList with
          | some x => .real x
          | none => .text s

/-- What a plain scalar stands for under a tag; one of the wrong form stands for nothing. -/
def taggedScalar (tag s : String) : Document :=
  match tag with
  | "!!bool" => if s = "true" then .bool true else if s = "false" then .bool false else .null
  | "!!int" =>
    match Text.intBetween? (-9223372036854775808) 9223372036854775807 s with
    | some n => .int n
    | none => .null
  | "!!float" => (real? s.toList).elim .null .real
  | "!!null" => .null
  | _ => .text s

end IlpConnector.Yaml
