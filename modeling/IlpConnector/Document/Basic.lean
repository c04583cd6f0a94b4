/-!
# Documents

The value that a configuration text stands for: numbers, texts, lists and tables, whichever notation
the text is in.  A table lists its entries in the order they were written, one for each key.
-/

namespace IlpConnector

inductive Document where
  | null
  | bool (b : Bool)
  | int (n : Int)
  | real (x : Float)
  | text (s : String)
  | list (items : List Document)
  | table (entries : List (String × Document))
deriving Inhabited

namespace Document

/-- The entries with this one in place of an entry under the same key, or at the end. -/
def setEntry (key : String) (value : Document) : List (String × Document) → List (String × Document)
  | [] => [(key, value)]
  | (k, v) :: rest =>
    if k = key then (k, value) :: rest else (k, v) :: setEntry key value rest

/-- The entry of a table under a key. -/
def get? (key : String) : Document → Option Document
  | table entries => (entries.find? (·.1 == key)).map (·.2)
  | _ => none

/-- The entries of a table; anything else has none. -/
def entries : Document → List (String × Document)
  | table es => es
  | _ => []

/-- The items of a list; anything else has none. -/
def items : Document → List Document
  | list ds => ds
  | _ => []

def isNull : Document → Bool
  | null => true
  | _ => false

/-- The text of an optional value; a missing one is null. -/
def ofOption {α : Type} (f : α → Document) : Option α → Document
  | some a => f a
  | none => null

end Document

end IlpConnector
