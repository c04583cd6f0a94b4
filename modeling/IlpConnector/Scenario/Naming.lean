import IlpConnector.Ccp.Error
import IlpConnector.Document.Basic

/-!
# Table ids in reports

Most tables get their id by chance.  A report that should be the same each time therefore numbers
such ids in the order in which they come up, and shows only those that were given beforehand.
`Naming.document` does so throughout a document.
-/

namespace IlpConnector

/-- The ids that are shown, and the ones that were numbered so far. -/
structure Naming where
  given : List String
  seen : List String := []

namespace Naming

def isDigit (c : Char) : Bool := c.isDigit || ('a' ≤ c && c ≤ 'f')

/-- The text has the form of a table id. -/
def isId (cs : List Char) : Bool :=
  cs.length = 36 && cs.zipIdx.all fun e =>
    if [8, 13, 18, 23].contains e.2 then e.1 = '-' else isDigit e.1

def ofId (n : Naming) (id : String) : String × Naming :=
  if n.given.contains id then (id, n)
  else
    match n.seen.idxOf? id with
    | some i => ("#" ++ toString (i + 1), n)
    | none => ("#" ++ toString (n.seen.length + 1), { n with seen := n.seen ++ [id] })

/-- An id, or the message of a gap in a table; any other text stays. -/
def ofText (n : Naming) (s : String) : String × Naming :=
  let front := RoutingError.gapStart.toList
  let rest := s.toList.drop front.length
  if isId s.toList then n.ofId s
  else if front.isPrefixOf s.toList && isId (rest.take 36) then
    let (name, n) := n.ofId (String.ofList (rest.take 36))
    (RoutingError.gapStart ++ name ++ String.ofList (rest.drop 36), n)
  else (s, n)

mutual

def document (n : Naming) : Document → Document × Naming
  | .text s => (.text (n.ofText s).1, (n.ofText s).2)
  | .list ds =>
    let (ds, n) := n.items ds
    (.list ds, n)
  | .table es =>
    let (es, n) := n.entries es
    (.table es, n)
  | d => (d, n)

def items (n : Naming) : List Document → List Document × Naming
  | [] => ([], n)
  | d :: ds =>
    let (d, n) := n.document d
    let (ds, n) := n.items ds
    (d :: ds, n)

def entries (n : Naming) : List (String × Document) → List (String × Document) × Naming
  | [] => ([], n)
  | (k, d) :: es =>
    let (d, n) := n.document d
    let (es, n) := n.entries es
    ((k, d) :: es, n)

end

mutual

/-- The table ids that a document gives. -/
def idsIn : Document → List String
  | .list ds => idsInItems ds
  | .table es => idsInEntries es
  | _ => []

def idsInItems : List Document → List String
  | [] => []
  | d :: ds => idsIn d ++ idsInItems ds

def idsInEntries : List (String × Document) → List String
  | [] => []
  | (k, .text s) :: es =>
    (if k = "table_id" then ((TableId.ofText? s).map TableId.text).toList else [])
      ++ idsInEntries es
  | (_, d) :: es => idsIn d ++ idsInEntries es

end

end Naming

end IlpConnector
