import IlpConnector.Document.Yaml.Scalar

/-!
# YAML

`Yaml.read` reads a document whose collections show in its indentation: a list is items behind
dashes in one column, a table is keys in one column, and what belongs to either is deeper.  Within
brackets lines do not count.  A text holds one document at most, and an empty one is an empty table.

A node can be named and used again.  Keys that are not text are passed over, and of entries with the
same key the last counts.
-/

namespace IlpConnector.Yaml

/-- A dash starts an item. -/
def startsItem : List Char → Bool
  | '-' :: rest => endsWord rest
  | _ => false

def isNameChar (c : Char) : Bool := c.isAlphanum || c = '_' || c = '-'

/-- The name after the sign at this place, and the place after it. -/
def readName (c : Cursor) : Option (String × Cursor) :=
  let name := (c.rest.drop 1).takeWhile isNameChar
  if name.isEmpty then none else some (String.ofList name, c.skip (name.length + 1))

/-- The tag at this place, and the place after it. -/
def readTag (inFlow : Bool) (c : Cursor) : String × Cursor :=
  let tag := c.rest.takeWhile fun x => !isGap x && !(inFlow && isFlowMark x)
  (String.ofList tag, c.skip tag.length)

/-- The node with a name, and the place after the name. -/
def readAlias (c : Cursor) : Option (Document × Cursor) := do
  let (name, after) ← readName c
  let node ← c.named.find? (·.1 == name)
  return (node.2, after)

/-- What has been read, from now on under this name. -/
def nameNode (name : String) (r : Document × Cursor) : Document × Cursor :=
  (r.1, { r.2 with named := (name, r.1) :: r.2.named })

/-- The entries with one more; a key that is no text has none. -/
def setEntry (key value : Document) (entries : List (String × Document)) :
    List (String × Document) :=
  match key with
  | .text k => Document.setEntry k value entries
  | _ => entries

/-- What a plain scalar stands for, under its tag if it has one. -/
def plainNode (tag : Option String) (s : String) : Document :=
  match tag with
  | some tag => taggedScalar tag s
  | none => scalarOf s

/-- A key on one line, and the place after its colon. -/
def readKey (c : Cursor) : Option (Document × Cursor) := do
  let (key, after) ←
    match ← readQuoted c with
    | some (s, after) => some (Document.text s, after)
    | none =>
      if startsPlain false c.rest then
        let line := plainChars false false c.rest
        some (scalarOf (String.ofList (trimBlanks line)), c.skip line.length)
      else none
  let written := c.rest.take (c.rest.length - after.rest.length)
  let blanks := after.rest.takeWhile isBlank
  match after.rest.drop blanks.length with
  | ':' :: rest =>
    if endsWord rest && !written.contains '\n' then return (key, after.skip (blanks.length + 1))
    else none
  | _ => none

mutual

/-- A node within brackets. -/
def readFlow : (fuel : Nat) → (tag : Option String) → Cursor → Option (Document × Cursor)
  | 0, _, _ => none
  | fuel + 1, tag, c =>
    match c.rest with
    | '[' :: _ => readFlowItems fuel (nextToken true (c.skip 1)).2 []
    | '\x7b' :: _ => readFlowEntries fuel (nextToken true (c.skip 1)).2 []
    | '*' :: _ => readAlias c
    | '&' :: _ =>
      match readName c with
      | some (name, after) =>
        (readFlow fuel tag (nextToken true after).2).map (nameNode name)
      | none => none
    | '!' :: _ =>
      let (tag, after) := readTag true c
      readFlow fuel (some tag) (nextToken true after).2
    | _ =>
      match readQuoted c with
      | none => none
      | some (some (s, after)) => some (.text s, after)
      | some none =>
        if startsPlain true c.rest then
          let (s, after) := readPlain true 0 c
          some (plainNode tag s, after)
        else none

/-- The value after a colon within brackets, which may be missing. -/
def readFlowValue : (fuel : Nat) → Cursor → Option (Document × Cursor)
  | 0, _ => none
  | fuel + 1, c =>
    let next := (nextToken true c).2
    match next.rest with
    | ',' :: _ => some (.null, next)
    | ']' :: _ => some (.null, next)
    | '\x7d' :: _ => some (.null, next)
    | _ => readFlow fuel none next

/-- The items of a list in brackets; a key and its value are a table. -/
def readFlowItems : (fuel : Nat) → Cursor → List Document → Option (Document × Cursor)
  | 0, _, _ => none
  | fuel + 1, c, seen =>
    match c.rest with
    | ']' :: _ => some (.list seen.reverse, c.skip 1)
    | _ =>
      match readFlow fuel none c with
      | none => none
      | some (d, after) =>
        let next := (nextToken true after).2
        let item : Option (Document × Cursor) :=
          match next.rest with
          | ':' :: _ =>
            (readFlowValue fuel (next.skip 1)).map fun r => (.table (setEntry d r.1 []), r.2)
          | _ => some (d, next)
        match item with
        | none => none
        | some (d, after) =>
          let next := (nextToken true after).2
          match next.rest with
          | ',' :: _ => readFlowItems fuel (nextToken true (next.skip 1)).2 (d :: seen)
          | ']' :: _ => some (.list (d :: seen).reverse, next.skip 1)
          | _ => none

/-- The entries of a table in brackets; a key alone has no value. -/
def readFlowEntries : (fuel : Nat) → Cursor → List (String × Document) →
    Option (Document × Cursor)
  | 0, _, _ => none
  | fuel + 1, c, seen =>
    match c.rest with
    | '\x7d' :: _ => some (.table seen, c.skip 1)
    | _ =>
      match readFlow fuel none c with
      | none => none
      | some (key, after) =>
        let next := (nextToken true after).2
        let value : Option (Document × Cursor) :=
          match next.rest with
          | ':' :: _ => readFlowValue fuel (next.skip 1)
          | _ => some (.null, next)
        match value with
        | none => none
        | some (d, after) =>
          let seen := setEntry key d seen
          let next := (nextToken true after).2
          match next.rest with
          | ',' :: _ => readFlowEntries fuel (nextToken true (next.skip 1)).2 seen
          | '\x7d' :: _ => some (.table seen, next.skip 1)
          | _ => none

end

/-- Where a node stands. -/
structure Place where
  /-- The column of the collection that the node is in. -/
  parent : Int
  /-- A list may start in the parent's column. -/
  allowsFlat : Bool
  /-- A collection may start on the same line. -/
  opens : Bool

mutual

/-- The node after this place; there is none if what comes next is not deeper than its parent. -/
def readNode : (fuel : Nat) → Place → (tag : Option String) → Cursor → Option (Document × Cursor)
  | 0, _, _, _ => none
  | fuel + 1, place, tag, c =>
    let (crossed, next) := nextToken false c
    let opens := place.opens || crossed
    if next.isAtEnd then some (.null, next)
    else if crossed && (next.column : Int) ≤ place.parent then
      if place.allowsFlat && (next.column : Int) = place.parent && startsItem next.rest then
        readItems fuel next.column next []
      else some (.null, next)
    else
      match next.rest with
      | '[' :: _ => readFlow fuel none next
      | '\x7b' :: _ => readFlow fuel none next
      | '*' :: _ => readAlias next
      | '&' :: _ =>
        match readName next with
        | some (name, after) =>
          (readNode fuel { place with opens } tag after).map (nameNode name)
        | none => none
      | '!' :: _ =>
        let (tag, after) := readTag false next
        readNode fuel { place with opens } (some tag) after
      | '|' :: _ => (readBlock false place.parent (next.skip 1)).map fun r => (.text r.1, r.2)
      | '>' :: _ => (readBlock true place.parent (next.skip 1)).map fun r => (.text r.1, r.2)
      | _ =>
        if startsItem next.rest then
          if opens then readItems fuel next.column next [] else none
        else if (readKey next).isSome then
          if opens then readEntries fuel next.column next [] else none
        else
          match readQuoted next with
          | none => none
          | some (some (s, after)) => some (.text s, after)
          | some none =>
            if startsPlain false next.rest then
              let (s, after) := readPlain false place.parent next
              some (plainNode tag s, after)
            else none

/-- The items behind dashes in a column. -/
def readItems : (fuel column : Nat) → Cursor → List Document → Option (Document × Cursor)
  | 0, _, _, _ => none
  | fuel + 1, column, c, seen =>
    match readNode fuel ⟨column, false, true⟩ none (c.skip 1) with
    | none => none
    | some (d, after) =>
      let next := (nextToken false after).2
      if next.isAtEnd || next.column < column then some (.list (d :: seen).reverse, next)
      else if next.column ≠ column then none
      else if startsItem next.rest then readItems fuel column next (d :: seen)
      else some (.list (d :: seen).reverse, next)

/-- The entries whose keys are in a column. -/
def readEntries : (fuel column : Nat) → Cursor → List (String × Document) →
    Option (Document × Cursor)
  | 0, _, _, _ => none
  | fuel + 1, column, c, seen =>
    match readKey c with
    | none => none
    | some (key, after) =>
      match readNode fuel ⟨column, true, false⟩ none after with
      | none => none
      | some (d, after) =>
        let seen := setEntry key d seen
        let next := (nextToken false after).2
        if next.isAtEnd || next.column < column then some (.table seen, next)
        else if next.column = column then readEntries fuel column next seen
        else none

end

/-- Line ends of any kind become the same one. -/
def unifyEnds : List Char → List Char
  | '\r' :: '\n' :: rest => '\n' :: unifyEnds rest
  | '\r' :: rest => '\n' :: unifyEnds rest
  | c :: rest => c :: unifyEnds rest
  | [] => []

/-- Nothing follows a document but the mark of its end. -/
def endsDocument (c : Cursor) : Bool :=
  let next := (nextToken false c).2
  next.rest.isEmpty
    || (next.isAtMarker && next.rest.head? == some '.'
      && (nextToken false (next.skip 3)).2.rest.isEmpty)

/-- The document that a text stands for. -/
def read (s : String) : Option Document :=
  let cs := unifyEnds s.toList
  let fuel := 3 * cs.length + 3
  let start : Cursor := ⟨cs, 0, []⟩
  let next := (nextToken false start).2
  let root : Option (Document × Cursor) :=
    if next.rest.isEmpty then some (.table [], next)
    else if next.isAtMarker then
      if next.rest.head? == some '-' then readNode fuel ⟨-1, false, false⟩ none (next.skip 3)
      else none
    else readNode fuel ⟨-1, false, true⟩ none start
  match root with
  | some (d, after) => if endsDocument after then some d else none
  | none => none

end IlpConnector.Yaml
