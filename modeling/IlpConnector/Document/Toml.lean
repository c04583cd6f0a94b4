import IlpConnector.Bytes.Hex
import IlpConnector.Document.Json
import IlpConnector.Document.Path

/-!
# TOML

`Toml.read` reads a document from lines of keys and values under headers.  A header in brackets
opens a table, and one in double brackets a new item of a list of tables.  A table is opened once,
and no key has two values.  Dates are texts.
-/

namespace IlpConnector.Toml

def isBlank (c : Char) : Bool := c = ' ' || c = '\t'

def skipBlanks (cs : List Char) : List Char := cs.dropWhile isBlank

/-- Skips a comment up to the end of its line. -/
def skipComment : List Char → List Char
  | '#' :: rest => rest.dropWhile (· ≠ '\n')
  | cs => cs

/-- Skips blanks and a comment, and the end of the line, which has to follow. -/
def endLine? (cs : List Char) : Option (List Char) :=
  match skipComment (skipBlanks cs) with
  | [] => some []
  | '\n' :: rest => some rest
  | '\r' :: '\n' :: rest => some rest
  | _ => none

/-- Skips blanks, comments and ends of lines. -/
def skipLines : (fuel : Nat) → List Char → List Char
  | 0, cs => cs
  | fuel + 1, cs =>
    match skipComment (skipBlanks cs) with
    | '\n' :: rest => skipLines fuel rest
    | '\r' :: '\n' :: rest => skipLines fuel rest
    | cs => cs

/-- The character after a backslash. -/
def readEscape : List Char → Option (Char × List Char)
  | 'b' :: rest => some ('\x08', rest)
  | 't' :: rest => some ('\t', rest)
  | 'n' :: rest => some ('\n', rest)
  | 'f' :: rest => some ('\x0c', rest)
  | 'r' :: rest => some ('\r', rest)
  | '"' :: rest => some ('"', rest)
  | '\\' :: rest => some ('\\', rest)
  | 'u' :: rest => Hex.readChar 4 rest
  | 'U' :: rest => Hex.readChar 8 rest
  | _ => none

def isControl (c : Char) : Bool := (c.toNat < 32 && c ≠ '\t') || c.toNat = 127

/-- A text up to its closing quote, on one line. -/
def readQuoted : (fuel : Nat) → List Char → (seen : List Char) → Option (String × List Char)
  | 0, _, _ => none
  | fuel + 1, cs, seen =>
    match cs with
    | '"' :: rest => some (String.ofList seen.reverse, rest)
    | '\\' :: rest =>
      match readEscape rest with
      | some (c, rest) => readQuoted fuel rest (c :: seen)
      | none => none
    | c :: rest => if isControl c then none else readQuoted fuel rest (c :: seen)
    | [] => none

/-- A text up to three closing quotes, on any number of lines. -/
def readLongQuoted : (fuel : Nat) → List Char → (seen : List Char) → Option (String × List Char)
  | 0, _, _ => none
  | fuel + 1, cs, seen =>
    match cs with
    | '"' :: '"' :: '"' :: rest => some (String.ofList seen.reverse, rest)
    | '\\' :: rest =>
      let after := skipBlanks rest
      match after with
      | '\n' :: _ => readLongQuoted fuel (after.dropWhile fun c => isBlank c || c = '\n' || c = '\r') seen
      | '\r' :: '\n' :: _ =>
        readLongQuoted fuel (after.dropWhile fun c => isBlank c || c = '\n' || c = '\r') seen
      | _ =>
        match readEscape rest with
        | some (c, rest) => readLongQuoted fuel rest (c :: seen)
        | none => none
    | '\r' :: '\n' :: rest => readLongQuoted fuel rest ('\n' :: seen)
    | c :: rest =>
      if isControl c && c ≠ '\n' then none else readLongQuoted fuel rest (c :: seen)
    | [] => none

/-- A text between single quotes, taken as it is. -/
def readPlain (cs : List Char) : Option (String × List Char) :=
  let text := cs.takeWhile fun c => c ≠ '\x27' && !isControl c
  match cs.drop text.length with
  | '\x27' :: rest => some (String.ofList text, rest)
  | _ => none

/-- A text up to three single quotes, taken as it is. -/
def readLongPlain : List Char → (seen : List Char) → Option (String × List Char)
  | '\x27' :: '\x27' :: '\x27' :: rest, seen => some (String.ofList seen.reverse, rest)
  | c :: rest, seen =>
    if isControl c && c ≠ '\n' && c ≠ '\r' then none else readLongPlain rest (c :: seen)
  | [], _ => none

/-- The text of a line that follows opening quotes starts after the end of their line. -/
def dropFirstBreak : List Char → List Char
  | '\n' :: rest => rest
  | '\r' :: '\n' :: rest => rest
  | cs => cs

/-- A quoted text of any kind. -/
def readText (cs : List Char) : Option (String × List Char) :=
  match cs with
  | '"' :: '"' :: '"' :: rest => readLongQuoted (rest.length + 1) (dropFirstBreak rest) []
  | '"' :: rest => readQuoted (rest.length + 1) rest []
  | '\x27' :: '\x27' :: '\x27' :: rest => readLongPlain (dropFirstBreak rest) []
  | '\x27' :: rest => readPlain rest
  | _ => none

def isBareChar (c : Char) : Bool := c.isAlphanum || c = '_' || c = '-'

/-- One key, bare or quoted. -/
def readKey (cs : List Char) : Option (String × List Char) :=
  match cs with
  | '"' :: rest => readQuoted (rest.length + 1) rest []
  | '\x27' :: rest => readPlain rest
  | _ =>
    let key := cs.takeWhile isBareChar
    if key.isEmpty then none else some (String.ofList key, cs.drop key.length)

/-- Keys between dots, each a step further in. -/
def readKeys : (fuel : Nat) → List Char → Option (List String × List Char)
  | 0, _ => none
  | fuel + 1, cs => do
    let (key, rest) ← readKey (skipBlanks cs)
    match skipBlanks rest with
    | '.' :: rest =>
      let (keys, rest) ← readKeys fuel rest
      return (key :: keys, rest)
    | rest => return ([key], rest)

/-- Digits with single underscores between them, without the underscores. -/
def plainDigits? (isDigit : Char → Bool) (cs : List Char) : Option (List Char) :=
  let rec go : (afterDigit : Bool) → List Char → Option (List Char)
    | afterDigit, [] => if afterDigit then some [] else none
    | afterDigit, c :: rest =>
      if isDigit c then (go true rest).map (c :: ·)
      else if c = '_' && afterDigit then go false rest
      else none
  go false cs

/-- A whole number of 64 bits with a sign. -/
def wholeOf? (n : Int) : Option Document :=
  if -9223372036854775808 ≤ n && n ≤ 9223372036854775807 then some (.int n) else none

/-- A number in a base other than ten. -/
def inBase? (base : Nat) (cs : List Char) : Option Document := do
  let isDigit (c : Char) : Bool := (Hex.digitValue? c).any (· < base)
  let ds ← plainDigits? isDigit cs
  let n := ds.foldl (fun n c => n * base + (Hex.digitValue? c).getD 0) 0
  wholeOf? n

/-- A number in digits, perhaps with a fraction and an exponent. -/
def decimal? (negative : Bool) (cs : List Char) : Option Document := do
  let isEnd (c : Char) : Bool := c = '.' || c = 'e' || c = 'E'
  let whole := cs.takeWhile (!isEnd ·)
  let rest := cs.drop whole.length
  let whole ← plainDigits? Char.isDigit whole
  if 1 < whole.length && whole.head? == some '0' then none
  if rest.isEmpty then
    let n : Int := Text.digitsValue whole
    wholeOf? (if negative then -n else n)
  else
    let (fraction, rest) ←
      match rest with
      | '.' :: rest =>
        let fraction := rest.takeWhile (!isEnd ·)
        (plainDigits? Char.isDigit fraction).map fun f => (f, rest.drop fraction.length)
      | _ => some ([], rest)
    let exponent ←
      match rest with
      | [] => some 0
      | e :: '-' :: digits =>
        if e = 'e' ∨ e = 'E' then
          (plainDigits? Char.isDigit digits).map fun d => -(Text.digitsValue d : Int)
        else none
      | e :: rest =>
        if e = 'e' ∨ e = 'E' then
          let digits := if rest.head? = some '+' then rest.tail else rest
          (plainDigits? Char.isDigit digits).map fun d => (Text.digitsValue d : Int)
        else none
    return .real (Json.realOf negative whole fraction exponent)

/-- A date begins with a year and a month, and a time with hours and minutes. -/
def looksLikeDate (cs : List Char) : Bool :=
  match cs with
  | a :: b :: c :: d :: e :: _ =>
    (a.isDigit && b.isDigit && c.isDigit && d.isDigit && e = '-')
      || (a.isDigit && b.isDigit && c = ':' && d.isDigit && e.isDigit)
  | _ => false

def isScalarChar (c : Char) : Bool :=
  c.isAlphanum || c = '_' || c = '-' || c = '+' || c = '.' || c = ':'

/-- What a word without quotes stands for. -/
def scalarOf? (word : List Char) : Option Document :=
  match word with
  | ['t', 'r', 'u', 'e'] => some (.bool true)
  | ['f', 'a', 'l', 's', 'e'] => some (.bool false)
  | '0' :: 'x' :: rest => inBase? 16 rest
  | '0' :: 'o' :: rest => inBase? 8 rest
  | '0' :: 'b' :: rest => inBase? 2 rest
  | _ =>
    if looksLikeDate word then some (.text (String.ofList word))
    else
      let (negative, digits) : Bool × List Char :=
        match word with
        | '-' :: rest => (true, rest)
        | '+' :: rest => (false, rest)
        | _ => (false, word)
      if digits = ['i', 'n', 'f'] then
        some (.real (if negative then -(1.0 / 0.0) else 1.0 / 0.0))
      else if digits = ['n', 'a', 'n'] then some (.real (0.0 / 0.0))
      else decimal? negative digits

/-- Sets a value under keys in a table, opening tables on the way; no key may have a value yet. -/
def assign (keys : List String) (value : Document) (d : Document) : Option Document :=
  match keys, d with
  | [], _ => none
  | [key], .table es =>
    if (es.find? (·.1 == key)).isSome then none else some (.table (es ++ [(key, value)]))
  | key :: rest, .table es => do
    let inner := ((es.find? (·.1 == key)).map (·.2)).getD (.table [])
    let inner ← assign rest value inner
    return .table (Document.setEntry key inner es)
  | _, _ => none

mutual

/-- A value. -/
def readValue : (fuel : Nat) → List Char → Option (Document × List Char)
  | 0, _ => none
  | fuel + 1, cs =>
    match cs with
    | '"' :: _ => (readText cs).map fun r => (.text r.1, r.2)
    | '\x27' :: _ => (readText cs).map fun r => (.text r.1, r.2)
    | '[' :: rest => readItems fuel rest []
    | '\x7b' :: rest =>
      match skipBlanks rest with
      | '\x7d' :: rest => some (.table [], rest)
      | rest => readEntries fuel rest (.table [])
    | _ =>
      let word := cs.takeWhile isScalarChar
      (scalarOf? word).map fun d => (d, cs.drop word.length)

/-- The items of a list up to its end; they may be on lines of their own. -/
def readItems : (fuel : Nat) → List Char → List Document → Option (Document × List Char)
  | 0, _, _ => none
  | fuel + 1, cs, seen =>
    match skipLines cs.length cs with
    | ']' :: rest => some (.list seen.reverse, rest)
    | cs =>
      match readValue fuel cs with
      | none => none
      | some (d, rest) =>
        match skipLines rest.length rest with
        | ',' :: rest => readItems fuel rest (d :: seen)
        | ']' :: rest => some (.list (d :: seen).reverse, rest)
        | _ => none

/-- The entries of a table on one line. -/
def readEntries : (fuel : Nat) → List Char → Document → Option (Document × List Char)
  | 0, _, _ => none
  | fuel + 1, cs, seen =>
    match readKeys cs.length cs with
    | some (keys, '=' :: rest) =>
      match readValue fuel (skipBlanks rest) with
      | none => none
      | some (d, rest) =>
        match assign keys d seen with
        | none => none
        | some seen =>
          match skipBlanks rest with
          | ',' :: rest => readEntries fuel rest seen
          | '\x7d' :: rest => some (seen, rest)
          | _ => none
    | _ => none

end

/-- Opens the table that a header names, and changes it.  A list of tables on the way stands for its
last one; in double brackets the list gets a new one. -/
def openTable (isItem : Bool) (f : Document → Option Document) :
    List String → Document → Option Document
  | [], _ => none
  | key :: rest, .table es => do
    let found : Option Document := (es.find? (·.1 == key)).map (·.2)
    let inner : Document ←
      match rest, isItem, found with
      | [], true, none => (f (.table [])).map fun d => .list [d]
      | [], true, some (.list ds) => (f (.table [])).map fun d => .list (ds ++ [d])
      | [], true, some _ => none
      | [], false, none => f (.table [])
      | [], false, some (.table es) => f (.table es)
      | [], false, some _ => none
      | _ :: _, _, none => openTable isItem f rest (.table [])
      | _ :: _, _, some (.list ds) =>
        match ds.getLast? with
        | some d => (openTable isItem f rest d).map fun d => .list (ds.dropLast ++ [d])
        | none => none
      | _ :: _, _, some d => openTable isItem f rest d
    return .table (Document.setEntry key inner es)
  | _ :: _, _ => none

/-- The lines of a table up to the next header. -/
def readLines : (fuel : Nat) → List Char → Document → Option (Document × List Char)
  | 0, _, _ => none
  | fuel + 1, cs, seen =>
    match skipLines cs.length cs with
    | [] => some (seen, [])
    | '[' :: rest => some (seen, '[' :: rest)
    | cs =>
      match readKeys cs.length cs with
      | some (keys, '=' :: rest) =>
        match readValue (rest.length + 1) (skipBlanks rest) with
        | none => none
        | some (d, rest) =>
          match assign keys d seen, endLine? rest with
          | some seen, some rest => readLines fuel rest seen
          | _, _ => none
      | _ => none

/-- A header: whether it is in double brackets, and its keys. -/
def readHeader (cs : List Char) : Option ((Bool × List String) × List Char) :=
  match cs with
  | '[' :: '[' :: rest =>
    match readKeys rest.length rest with
    | some (keys, ']' :: ']' :: rest) => (endLine? rest).map fun rest => ((true, keys), rest)
    | _ => none
  | '[' :: rest =>
    match readKeys rest.length rest with
    | some (keys, ']' :: rest) => (endLine? rest).map fun rest => ((false, keys), rest)
    | _ => none
  | _ => none

/-- The tables with headers, given which ones are open already. -/
def readTables : (fuel : Nat) → List Char → (opened : List (List String)) → Document →
    Option Document
  | 0, _, _, _ => none
  | fuel + 1, cs, opened, d =>
    if cs.isEmpty then some d
    else
      match readHeader cs with
      | none => none
      | some ((isItem, keys), rest) =>
        if !isItem && opened.contains keys then none
        else
          match readLines (rest.length + 1) rest (.table []) with
          | none => none
          | some (content, rest) =>
            let fill (there : Document) : Option Document :=
              content.entries.foldlM (fun d e => assign [e.1] e.2 d) there
            let opened :=
              if isItem then opened.filter (fun o => !keys.isPrefixOf o) else keys :: opened
            match openTable isItem fill keys d with
            | some d => readTables fuel rest opened d
            | none => none

/-- The document that a text stands for. -/
def read (s : String) : Option Document :=
  let cs := s.toList
  match readLines (cs.length + 1) cs (.table []) with
  | some (d, rest) => readTables (cs.length + 1) rest [] d
  | none => none

end IlpConnector.Toml
