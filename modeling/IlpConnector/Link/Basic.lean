import IlpConnector.Link.Error

/-!
# Links

A link carries packets to and from one neighbour.  What a link keeps is its settings, the id and the
handler it is given, whether it is connected, and who listens to its events; the transport that
moves the octets is a value that the link never looks into.

Connecting and disconnecting wait for the transport, and other calls may come in between.  A call is
therefore run in pieces: `Link.begin` up to the first wait, and `Link.resume` from the transport's
answer up to the next wait or the end.  Only the call that turns the flag goes on to the transport;
every other one returns at once.
-/

namespace IlpConnector

structure LinkSettings where
  type : LinkType
  custom : CustomSettings := ∅
deriving DecidableEq

namespace LinkSettings

def debugText (s : LinkSettings) : String :=
  "LinkSettings \x7b link_type: " ++ s.type.debugText ++ ", custom_settings: "
    ++ CustomSettings.debugText s.custom ++ " \x7d"

end LinkSettings

/-- What the listeners of a link hear about it. -/
inductive LinkEvent where
  | connected (link : Option LinkId)
  | disconnected (link : Option LinkId)
  | error (link : Option LinkId) (text : String)
deriving DecidableEq

/-- The listeners of a link, each as often as it was added and in that order. -/
abbrev Listeners := List String

namespace Listeners

def add (l : Listeners) (name : String) : Listeners := l ++ [name]

/-- Removes a listener, however often it was added. -/
def remove (l : Listeners) (name : String) : Listeners := l.filter (· ≠ name)

/-- Who hears an event, and the listeners afterwards.  The ones that hear it are those there are when
it happens, whatever the listeners do about each other when they hear it. -/
def notify (react : String → Listeners → Listeners) (l : Listeners) : List String × Listeners :=
  (l, l.foldl (fun now name => react name now) l)

end Listeners

/-- Which of the links of a network. -/
structure LinkRef where
  index : Nat
deriving DecidableEq

/-- A link with transports of type `τ` and handlers of type `η`. -/
structure Link (τ η : Type) where
  settings : LinkSettings
  transport : τ
  id : Option LinkId := none
  /-- The flag that the calls turn before they turn to the transport. -/
  connected : Bool := false
  handler : Option η := none
  listeners : Listeners := []

/-- What a call on a link asks of the transport. -/
inductive TransportStep where
  | open
  | close
deriving DecidableEq

/-- Where a call waits for the transport. -/
inductive LinkWait where
  | connecting
  /-- The transport refused to open for this reason, and closes what it has set up. -/
  | tearingDown (cause : LinkError)
  | disconnecting
deriving DecidableEq

/-- What the transport is doing in the meantime. -/
def LinkWait.step : LinkWait → TransportStep
  | connecting => .open
  | tearingDown _ | disconnecting => .close

/-- How far a call has come. -/
inductive LinkProgress where
  | waiting (wait : LinkWait)
  | returned (result : Except LinkError Unit)

/-- The calls that change whether a link is connected. -/
inductive LinkCall where
  | connect
  | disconnect
deriving DecidableEq

namespace Link

variable {τ η : Type}

/-- A call up to its first wait.  It turns the flag, or returns at once if the flag is turned
already. -/
def begin : LinkCall → Link τ η → Link τ η × LinkProgress
  | .connect, l =>
    if l.connected then (l, .returned (.ok ()))
    else ({ l with connected := true }, .waiting .connecting)
  | .disconnect, l =>
    if l.connected then ({ l with connected := false }, .waiting .disconnecting)
    else (l, .returned (.ok ()))

/-- A call from the transport's answer on, and the events that its listeners hear.  A transport that
fails to open is closed again before the flag is turned back; how that closing ends does not
matter. -/
def resume : LinkWait → Except LinkError Unit → Link τ η →
    Link τ η × List LinkEvent × LinkProgress
  | .connecting, .ok (), l => (l, [.connected l.id], .returned (.ok ()))
  | .connecting, .error e, l => (l, [], .waiting (.tearingDown e))
  | .tearingDown e, _, l =>
    ({ l with connected := false }, [.error l.id e.message], .returned (.error e))
  | .disconnecting, .ok (), l => (l, [.disconnected l.id], .returned (.ok ()))
  | .disconnecting, .error e, l => (l, [], .returned (.error e))

/-- Gives the link its id, which it keeps. -/
def setId (l : Link τ η) (id : LinkId) : Except LinkError (Link τ η) :=
  match l.id with
  | some current => .error (.idAlreadySet current id)
  | none => .ok { l with id := some id }

/-- Gives the link a handler, if it has none. -/
def register (l : Link τ η) (h : η) : Except LinkError (Link τ η) :=
  match l.handler with
  | some _ => .error (.handlerAlreadyRegistered l.id)
  | none => .ok { l with handler := some h }

def unregister (l : Link τ η) : Link τ η :=
  { l with handler := none }

/-- The transport that takes a packet, if the link is connected. -/
def outgoing (l : Link τ η) : Except LinkError τ :=
  if l.connected then .ok l.transport else .error (.notConnected l.id)

/-- Who handles a packet that has come in, and under which name of the link. -/
def incoming (l : Link τ η) : Except LinkError (LinkId × η) :=
  match l.id, l.handler with
  | none, _ => .error .idNotSet
  | some id, none => .error (.noHandler (some id))
  | some id, some h => .ok (id, h)

def debugText (l : Link τ η) : String :=
  "Link \x7b link_id: " ++ optionDebugText LinkId.debugText l.id ++ ", settings: "
    ++ l.settings.debugText ++ ", connected: " ++ toString l.connected ++ " \x7d"

end Link

end IlpConnector
