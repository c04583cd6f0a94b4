import IlpConnector.Document.Basic
import IlpConnector.Text.Decimal

/-!
# Places in documents

A path names a place in a document: `accounts[0].id` is the entry `id` of the first item under
`accounts`.  What is put at a place makes its way: whatever stands where a table or a list has to be
gives way to one.  A table that is put where there is one already is merged into it.
-/

namespace IlpConnector.Document

inductive PathStep where
  | key (name : String)
  /-- An item of a list; a negative number counts from the end. -/
  | index (place : Int)
deriving DecidableEq

abbrev Path := List PathStep

namespace Path

def isKeyChar (c : Char) : Bool :=
  c.isAlphanum || c = ' ' || c = '_' || c = '-'

/-- The whole number in a text. -/
def readIndex (cs : List Char) : Option Int :=
  match cs with
  | '-' :: digits => (Text.digitsValue? digits).map fun n => -(n : Int)
  | digits => (Text.digitsValue? digits).map Int.ofNat

/-- The steps of a path after the first one. -/
def readSteps : (fuel : Nat) → List Char → Option Path
  | _, [] => some []
  | 0, _ => none
  | fuel + 1, '.' :: rest =>
    let name := rest.takeWhile isKeyChar
    if name.isEmpty then none
    else (readSteps fuel (rest.drop name.length)).map (.key (String.ofList name) :: ·)
  | fuel + 1, '[' :: rest =>
    let inner := rest.takeWhile (· ≠ ']')
    match rest.drop inner.length with
    | ']' :: rest => do
      let i ← readIndex inner
      let steps ← readSteps fuel rest
      return .index i :: steps
    | _ => none
  | _, _ => none

/-- The path that a text names. -/
def read (s : String) : Option Path :=
  let cs := s.toList
  let name := cs.takeWhile isKeyChar
  if name.isEmpty then none
  else
    let rest := cs.drop name.length
    (readSteps (rest.length + 1) rest).map (.key (String.ofList name) :: ·)

end Path

mutual

/-- Puts a value under a key; a table is merged into what is there. -/
def mergeAt (root : Document) (key : String) : Document → Document
  | table es =>
    table (setEntry key (mergeAll ((root.get? key).getD (table [])) es) root.entries)
  | v => table (setEntry key v root.entries)

/-- Puts entries into a table, one after the other. -/
def mergeAll (target : Document) : List (String × Document) → Document
  | [] => target
  | (k, v) :: rest => mergeAll (target.mergeAt k v) rest

end

/-- The place of an item in a list of so many. -/
def itemPlace (i : Int) (length : Nat) : Nat :=
  if 0 ≤ i then i.toNat else length - i.natAbs

/-- A list that has an item at a place, filled up with nulls. -/
def reaching (place : Nat) (ds : List Document) : List Document :=
  ds ++ List.replicate (place + 1 - ds.length) null

/-- Changes what is at the end of a path. -/
def modifyAt (f : Document → Document) : Path → Document → Document
  | [], d => f d
  | .key name :: rest, d =>
    table (setEntry name (modifyAt f rest ((d.get? name).getD null)) d.entries)
  | .index i :: rest, d =>
    let place := itemPlace i d.items.length
    let ds := reaching place d.items
    list (ds.set place (modifyAt f rest (ds[place]?.getD null)))

/-- Puts a value at the end of a path. -/
def put (path : Path) (value root : Document) : Document :=
  match path.getLast? with
  | none => value
  | some (.key name) => modifyAt (fun d => d.mergeAt name value) path.dropLast root
  | some (.index i) => modifyAt (fun _ => value) (path.dropLast ++ [.index i]) root

end IlpConnector.Document
