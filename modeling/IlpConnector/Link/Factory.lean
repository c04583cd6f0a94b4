import IlpConnector.Link.Basic
import IlpConnector.Link.Http
import IlpConnector.Link.Local

/-!
# How links come about

A factory makes the links of one type from their settings, and a node goes by a list of factories,
of which the first that knows the type is taken.
-/

namespace IlpConnector

/-- What moves the packets of a link; `other` stands for what the library has no factory for. -/
inductive Transport (ε : Type) where
  | loopback (refusal : Option ErrorCode)
  | ping
  | http (settings : OutgoingHttp)
  | other (e : ε)

structure LinkFactory (ε : Type) where
  type : LinkType
  /-- The transport of a link with the given settings of its own. -/
  transport : CustomSettings → Except LinkError (Transport ε)

namespace LinkFactory

variable {ε η : Type}

def loopback : LinkFactory ε where
  type := .loopback
  transport custom := (Loopback.refusalCode custom).map .loopback

def ping : LinkFactory ε where
  type := .pingLoopback
  transport _ := .ok .ping

def http (urls : UrlReader) : LinkFactory ε where
  type := .ilpOverHttp
  transport custom := (OutgoingHttp.ofCustom urls custom).map .http

/-- The factories that every node has. -/
def usual (urls : UrlReader) : List (LinkFactory ε) := [loopback, ping, http urls]

/-- A link of the factory's type, not yet connected. -/
def make (f : LinkFactory ε) (s : LinkSettings) : Except LinkError (Link (Transport ε) η) :=
  if s.type = f.type then (f.transport s.custom).map fun t => { settings := s, transport := t }
  else .error (.unsupportedType s.type)

/-- The factory for a type. -/
def find? (factories : List (LinkFactory ε)) (t : LinkType) : Option (LinkFactory ε) :=
  factories.find? (·.type = t)

/-- A link made by the first factory that knows the type. -/
def makeAny (factories : List (LinkFactory ε)) (s : LinkSettings) :
    Except LinkError (Link (Transport ε) η) :=
  match find? factories s.type with
  | some f => f.make s
  | none => .error (.unsupportedType s.type)

end LinkFactory

/-- The settings of an account's link, if its type is among the given ones. -/
def AccountSettings.linkSettings (known : List LinkType) (a : AccountSettings) :
    Except LinkError LinkSettings :=
  if known.contains a.linkType then .ok ⟨.ofText a.linkType.name, a.customSettings⟩
  else .error (.unsupportedType a.linkType)

/-- The types of links that every node knows. -/
def LinkType.usual : List LinkType := [.loopback, .pingLoopback, .ilpOverHttp]

end IlpConnector
