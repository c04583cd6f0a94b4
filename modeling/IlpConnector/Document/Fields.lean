import IlpConnector.Document.Basic
import IlpConnector.Text.Decimal

/-!
# Reading values out of documents

How the scalars of a document are read depends on where it comes from.  `Scalars.exact` takes a
number for a number and a text for a text; `Scalars.loose` turns the one into the other where that
makes sense, as settings do that may come from the environment, where everything is text.

A record is a table with an entry for each field, or a list of the fields in their order.
-/

namespace IlpConnector.Document

/-- How scalars are read. -/
structure Scalars where
  text : Document → Option String
  bool : Document → Option Bool
  /-- An unsigned number of so many bits. -/
  nat : (bits : Nat) → Document → Option Nat
  /-- A list may have more items than the record has fields. -/
  allowsMore : Bool

namespace Scalars

def exact : Scalars where
  text
    | .text s => some s
    | _ => none
  bool
    | .bool b => some b
    | _ => none
  nat bits
    | .int n => if 0 ≤ n ∧ n < Int.ofNat (Nat.pow 2 bits) then some n.toNat else none
    | _ => none
  allowsMore := false

/-- A real number to the nearest whole one, halves away from zero, within 64 bits. -/
def roundToInt (x : Float) : Int :=
  let r := x.round
  if r.isNaN then 0
  else if r ≥ 9223372036854775807.0 then 9223372036854775807
  else if r ≤ -9223372036854775808.0 then -9223372036854775808
  else r.toInt64.toInt

def looseBool : Document → Option Bool
  | .bool b => some b
  | .int n => some (n ≠ 0)
  | .real x => some (x != 0.0)
  | .text s =>
    let s := s.toLower
    if ["1", "true", "on", "yes"].contains s then some true
    else if ["0", "false", "off", "no"].contains s then some false
    else none
  | _ => none

def looseInt : Document → Option Int
  | .int n => some n
  | .bool b => some (if b then 1 else 0)
  | .real x => some (roundToInt x)
  | .text s =>
    let t := s.toLower
    if ["true", "on", "yes"].contains t then some 1
    else if ["false", "off", "no"].contains t then some 0
    else Text.intBetween? (-9223372036854775808) 9223372036854775807 s
  | _ => none

def looseText (real : Float → String) : Document → Option String
  | .text s => some s
  | .bool b => some (if b then "true" else "false")
  | .int n => some (toString n)
  | .real x => some (real x)
  | _ => none

/-- Scalars turn into each other; a number takes the lowest bits that it has room for. -/
def loose (real : Float → String) : Scalars where
  text := looseText real
  bool := looseBool
  nat bits d := (looseInt d).map fun n => (n % Int.ofNat (Nat.pow 2 bits)).toNat
  allowsMore := true

/-- A missing value or null is none. -/
def optional {α : Type} (f : Document → Option α) : Option Document → Option (Option α)
  | none | some .null => some none
  | some d => (f d).map some

/-- A missing value is the given one. -/
def orElse {α : Type} (missing : α) (f : Document → Option α) : Option Document → Option α
  | none => some missing
  | some d => f d

/-- The fields of a record by their names. -/
def fields (r : Scalars) (names : List String) : Document → Option (String → Option Document)
  | .table entries => some fun name => (entries.find? (·.1 == name)).map (·.2)
  | .list items =>
    if names.length < items.length && !r.allowsMore then none
    else some fun name => ((names.zip items).find? (·.1 == name)).map (·.2)
  | _ => none

/-- The items of a list. -/
def items {α : Type} (f : Document → Option α) : Document → Option (List α)
  | .list ds => ds.mapM f
  | _ => none

/-- A dictionary of texts. -/
def texts (r : Scalars) : Document → Option (List (String × String))
  | .table entries => entries.mapM fun e => (r.text e.2).map fun s => (e.1, s)
  | _ => none

end Scalars

end IlpConnector.Document
