import IlpConnector.Scenario.Messages
import IlpConnector.Simulation.Script

/-!
# Scripts in a scenario

What the neighbours of a scenario do when they are asked to connect, to disconnect or to answer a
packet.
-/

namespace IlpConnector.Reading

/-- An error of a link, by its name. -/
def linkError (d : Document) : LinkError :=
  let link := linkIdAt "link_id" d
  let message := d.textAt "message"
  match d.textAt "variant" with
  | "HandlerAlreadyRegistered" => .handlerAlreadyRegistered link
  | "LinkIdAlreadySet" => .idAlreadySet ⟨d.textAt "current"⟩ ⟨d.textAt "attempted"⟩
  | "LinkIdNotSet" => .idNotSet
  | "NoHandlerRegistered" => .noHandler link
  | "NotConnected" => .notConnected link
  | "UnsupportedLinkType" => .unsupportedType (.ofText message)
  | "InvalidSettings" => .invalidSettings message
  | "ConnectFailed" => .connectFailed message
  | "DisconnectFailed" => .disconnectFailed message
  | _ => .transport message

/-- What a neighbour answers that does not only give a packet back, hang or break down. -/
def answer (d : Document) : Reading ScriptedAnswer :=
  match d.field? "fulfill", d.field? "reject", d.field? "error" with
  | some f, _, _ => .ok (.reply (.fulfilled (fulfill f)))
  | _, some r, _ => (reject r).map fun r => .reply (.rejected r)
  | _, _, some e => .ok (.fail (linkError e))
  | _, _, _ => .ok ScriptedAction.usual.answer

def action (d : Document) : Reading ScriptedAction :=
  match d with
  | .text "echo" => .ok { answer := .echo }
  | .text "hang" => .ok { answer := .hang }
  | .text "panic" => .ok { answer := .crash }
  | d => (answer d).map fun a => ⟨d.natAt "sleep_ms", a⟩

/-- Why a neighbour refuses, if it does. -/
def refusal? (d : Document) : Option LinkError :=
  (d.field? "variant").map fun _ => linkError d

def script (d : Document) : Reading Script := do
  let answers ← (d.listAt "send").mapM action
  let otherwise ← action (d.field "default")
  return {
    connects := (d.listAt "connect").map refusal?
    disconnects := (d.listAt "disconnect").map refusal?
    delay := d.natAt "delay_ms"
    answers, otherwise }

def scriptAt (key : String) (d : Document) : Reading Script := script (d.field key)

end IlpConnector.Reading
