import IlpConnector.Digest.Sha256
import IlpConnector.Link.Error
import IlpConnector.Packet.Basic
import IlpConnector.Settings

/-!
# Links that answer by themselves

A loopback link fulfills whatever it is sent, or refuses it with a code from its settings.  A ping
link fulfills only packets under the condition of pings, whose fulfillment everyone knows.
-/

namespace IlpConnector

namespace Loopback

/-- The setting that names the code to refuse with. -/
def refusalKey : String := "simulatedRejectErrorCode"

def fulfillment : Octets 32 := Octets.replicate 32 0

def refusalMessage : String := "Loopback set to manually reject via simulate_reject=true"

/-- The code to refuse with, if the settings name one. -/
def refusalCode (custom : CustomSettings) : Except LinkError (Option ErrorCode) :=
  match custom.get? refusalKey with
  | none => .ok none
  | some text =>
    match ErrorCode.ofText? text with
    | some code => .ok (some code)
    | none => .error (.invalidSettings (ErrorCode.invalidMessage text))

def answer (refusal : Option ErrorCode) (operator : Option Address) (p : Prepare) : Reply :=
  match refusal with
  | some code =>
    .rejected ⟨code, some (Address.orUnset operator), Utf8.encode refusalMessage, []⟩
  | none => .fulfilled ⟨fulfillment, p.data⟩

end Loopback

namespace Ping

def fulfillment : Octets 32 where
  toList := (List.replicate 8 [0x70, 0x69, 0x6e, 0x67]).flatten
  length_eq := by decide

def condition : Octets 32 := Sha256.digest fulfillment.toList

def refusalMessage : String := "Ping packets must use the ping protocol condition"

def answer (operator : Option Address) (p : Prepare) : Reply :=
  if p.condition = condition then .fulfilled ⟨fulfillment, []⟩
  else
    .rejected
      ⟨.wrongCondition, some (Address.orUnset operator), Utf8.encode refusalMessage, []⟩

end Ping

end IlpConnector
