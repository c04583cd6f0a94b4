import IlpConnector.Dict
import IlpConnector.Text.Basic
import IlpConnector.Text.Upper

/-!
# Accounts

A node has an account with each of its neighbours.  The relationship says who serves whom: a
parent serves the node, the node serves a child, and peers serve each other.  It also decides with
whom routes are exchanged, unless the settings say otherwise (`AccountSettings.sendsRoutes` and
`AccountSettings.receivesRoutes`).
-/

namespace IlpConnector

namespace AccountId

def isIdChar (c : Char) : Bool :=
  c.isAlphanum || c = '_' || c = '~' || c = '.' || c = '-'

/-- One to 64 characters that addresses may have. -/
def isValid (s : String) : Bool :=
  1 ≤ s.toList.length && s.toList.length ≤ 64 && s.toList.all isIdChar

end AccountId

structure AccountId where
  text : String
  valid : AccountId.isValid text = true
deriving DecidableEq

namespace AccountId

def ofText? (s : String) : Option AccountId :=
  if h : isValid s = true then some ⟨s, h⟩ else none

/-- The complaint about a text that is no account id. -/
def invalidMessage (s : String) : String :=
  "Invalid account id: " ++ Text.quoted s

def debugText (a : AccountId) : String := "AccountId(" ++ Text.quoted a.text ++ ")"

instance : TextKey AccountId where
  keyText := text
  keyText_inj := fun {a b} h => by cases a; cases b; simp_all

end AccountId

inductive Relationship where
  | parent
  | peer
  | child
deriving DecidableEq, Repr

namespace Relationship

def name : Relationship → String
  | parent => "PARENT"
  | peer => "PEER"
  | child => "CHILD"

def debugText : Relationship → String
  | parent => "Parent"
  | peer => "Peer"
  | child => "Child"

/-- The relationship with this name, in any case. -/
def ofText? (s : String) : Option Relationship :=
  [parent, peer, child].find? fun r => r.name.toList = s.toList.map Char.toUpper

def invalidMessage (s : String) : String :=
  "Invalid account relationship: " ++ s

def isPeerOrParent (r : Relationship) : Bool := r ≠ child

end Relationship

/-- The name of a kind of link, without blanks around it and in upper case. -/
structure LinkType where
  name : String
deriving DecidableEq

namespace LinkType

def ofText (s : String) : LinkType := ⟨Text.upper (Text.trim s)⟩

def loopback : LinkType := ⟨"LOOPBACK"⟩
def pingLoopback : LinkType := ⟨"PING_LOOPBACK"⟩
def ilpOverHttp : LinkType := ⟨"ILP_OVER_HTTP"⟩

def debugText (t : LinkType) : String := "LinkType(" ++ t.name ++ ")"

end LinkType

/-- Settings that only the kind of link knows; their values may be secrets. -/
abbrev CustomSettings := Dict String String

/-- The keys only; values are not shown. -/
def CustomSettings.debugText (c : CustomSettings) : String :=
  "\x7b" ++ ", ".intercalate (c.keys.map fun k => Text.quoted k ++ ": \"[redacted]\"") ++ "\x7d"

structure AccountSettings where
  id : AccountId
  description : String
  relationship : Relationship
  assetCode : String
  assetScale : UInt8
  /-- The largest amount of a packet from the account; no limit if none. -/
  maximumPacketAmount : Option UInt64
  /-- The most packets from the account in a second; no limit if none. -/
  maxPacketsPerSecond : Option UInt32
  linkType : LinkType
  sendRoutes : Option Bool
  receiveRoutes : Option Bool
  customSettings : CustomSettings
deriving DecidableEq

namespace AccountSettings

/-- The settings of an account of which no more is said. -/
def plain (id : AccountId) (relationship : Relationship) (linkType : LinkType) :
    AccountSettings where
  id := id
  description := ""
  relationship := relationship
  assetCode := "XRP"
  assetScale := 9
  maximumPacketAmount := none
  maxPacketsPerSecond := none
  linkType := linkType
  sendRoutes := none
  receiveRoutes := none
  customSettings := ∅

/-- Routes are sent to peers and children, if nothing else is set. -/
def sendsRoutes (a : AccountSettings) : Bool :=
  a.sendRoutes.getD (a.relationship ≠ .parent)

/-- Routes are received from peers and parents, if nothing else is set. -/
def receivesRoutes (a : AccountSettings) : Bool :=
  a.receiveRoutes.getD (a.relationship ≠ .child)

end AccountSettings

/-- An optional value in a message. -/
def optionDebugText {α : Type} (f : α → String) : Option α → String
  | some a => "Some(" ++ f a ++ ")"
  | none => "None"

def AccountSettings.debugText (a : AccountSettings) : String :=
  "AccountSettings \x7b id: " ++ a.id.debugText ++ ", description: " ++ Text.quoted a.description
    ++ ", relationship: " ++ a.relationship.debugText ++ ", asset_code: " ++ Text.quoted a.assetCode
    ++ ", asset_scale: " ++ toString a.assetScale.toNat ++ ", maximum_packet_amount: "
    ++ optionDebugText (fun n => toString n.toNat) a.maximumPacketAmount
    ++ ", rate_limit: RateLimitSettings \x7b max_packets_per_second: "
    ++ optionDebugText (fun n => toString n.toNat) a.maxPacketsPerSecond ++ " \x7d, link_type: "
    ++ a.linkType.debugText ++ ", send_routes: " ++ optionDebugText toString a.sendRoutes
    ++ ", receive_routes: " ++ optionDebugText toString a.receiveRoutes ++ ", custom_settings: "
    ++ CustomSettings.debugText a.customSettings ++ " \x7d"

/-- The settings of the accounts a node knows. -/
abbrev AccountStore := Dict AccountId AccountSettings

namespace AccountStore

/-- Of settings for the same account the last count. -/
def ofAccounts (accounts : List AccountSettings) : AccountStore :=
  Dict.ofList (accounts.map fun a => (a.id, a))

def put (store : AccountStore) (a : AccountSettings) : AccountStore :=
  store.insert a.id a

end AccountStore

end IlpConnector
