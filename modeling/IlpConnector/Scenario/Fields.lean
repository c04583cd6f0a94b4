import IlpConnector.Account.Record
import IlpConnector.Bytes.Hex
import IlpConnector.Scenario.Complaint

/-!
# Fields of a scenario

Scenarios are read leniently: what is missing is empty, zero or false, numbers may be texts, and only
what has a form of its own, such as an address, is complained about.
-/

namespace IlpConnector

namespace Document

/-- The entry of a table under a key, unless it is null. -/
def field? (key : String) (d : Document) : Option Document :=
  (d.get? key).filter fun v => !v.isNull

/-- The entry of a table under a key, or null. -/
def field (key : String) (d : Document) : Document :=
  (d.field? key).getD .null

def toText : Document → String
  | text s => s
  | int n => toString n
  | _ => ""

def toNat : Document → Nat
  | int n => n.toNat
  | text s => (Text.natBelow? UInt64.size s).getD 0
  | _ => 0

def toInt : Document → Int
  | int n => n
  | d => d.toNat

def textAt (key : String) (d : Document) : String := (d.field key).toText

def natAt (key : String) (d : Document) : Nat := (d.field key).toNat

def boolAt (key : String) (d : Document) : Bool :=
  match d.field key with
  | bool b => b
  | _ => false

def listAt (key : String) (d : Document) : List Document := (d.field key).items

def textsAt (key : String) (d : Document) : List String := (d.listAt key).map toText

def toOctets (d : Document) : Bytes := (Hex.decode? d.toText).getD []

/-- Octets in hexadecimal text. -/
def octetsAt (key : String) (d : Document) : Bytes := (d.field key).toOctets

/-- A field of 32 octets: hexadecimal text, or one octet that fills it. -/
def toWide (d : Document) : Octets 32 :=
  match Octets.ofList? d.toOctets with
  | some o => o
  | none => .replicate 32 (.ofNat d.toNat)

def wideAt (key : String) (d : Document) : Octets 32 := (d.field key).toWide

end Document

namespace Reading

open Document

def ofAddress (s : String) : Reading Address := (Address.ofText s).mapError .address

def ofPrefix (s : String) : Reading AddressPrefix := (AddressPrefix.ofText s).mapError .address

def ofAccountId (s : String) : Reading AccountId :=
  match AccountId.ofText? s with
  | some a => .ok a
  | none => .error (.account s)

def ofErrorCode (s : String) : Reading ErrorCode :=
  match ErrorCode.ofText? s with
  | some c => .ok c
  | none => .error (.errorCode s)

def ofSettings {α : Type} : Option α → Reading α
  | some a => .ok a
  | none => .error .settings

/-- An optional part of a scenario. -/
def optional {α : Type} (f : Document → Reading α) : Option Document → Reading (Option α)
  | some d => (f d).map some
  | none => .ok none

def addressAt (key : String) (d : Document) : Reading Address := ofAddress (d.textAt key)

def prefixAt (key : String) (d : Document) : Reading AddressPrefix := ofPrefix (d.textAt key)

def accountAt (key : String) (d : Document) : Reading AccountId := ofAccountId (d.textAt key)

/-- Addresses in a list. -/
def addressesAt (key : String) (d : Document) : Reading (List Address) :=
  (d.textsAt key).mapM ofAddress

def prefixesAt (key : String) (d : Document) : Reading (List AddressPrefix) :=
  (d.textsAt key).mapM ofPrefix

/-- The address of a node, if one is given. -/
def operatorAt (key : String) (d : Document) : Reading (Option Address) :=
  optional (fun v => ofAddress v.toText) (d.field? key)

def account (d : Document) : Reading AccountSettings :=
  ofSettings (AccountSettings.read .exact d)

def accountsAt (key : String) (d : Document) : Reading (List AccountSettings) :=
  (d.listAt key).mapM account

def customAt (key : String) (d : Document) : CustomSettings :=
  Dict.ofList ((d.field key).entries.map fun e => (e.1, e.2.toText))

/-- The type of a link, or the usual one. -/
def linkTypeAt (key usual : String) (d : Document) : LinkType :=
  .ofText (((d.field? key).map toText).getD usual)

def linkIdAt (key : String) (d : Document) : Option LinkId :=
  (d.field? key).map fun v => ⟨v.toText⟩

end Reading

end IlpConnector
