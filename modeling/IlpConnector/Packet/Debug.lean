import IlpConnector.Packet.Basic

/-!
# Packets in messages

How a packet is shown to people: its fields by name, long ones by their length, the expiry in the
form with separators.
-/

namespace IlpConnector

def Prepare.debugText (p : Prepare) : String :=
  "Prepare \x7b destination: " ++ p.destination.debugText ++ ", amount: " ++ toString p.amount
    ++ ", expires_at: " ++ Text.quoted (Timestamp.display p.expiresAt)
    ++ ", execution_condition: " ++ Text.quoted (Hex.encode p.condition.toList)
    ++ ", data_length: " ++ toString p.data.length ++ " \x7d"

def Fulfill.debugText (f : Fulfill) : String :=
  "Fulfill \x7b fulfillment: " ++ Text.quoted (Hex.encode f.fulfillment.toList)
    ++ ", data_length: " ++ toString f.data.length ++ " \x7d"

/-- A code that is text, as a value. -/
def ErrorCode.debugText? (c : ErrorCode) : Option String :=
  c.text?.map fun t => "ErrorCode(" ++ t ++ ")"

/-- A refusal whose code is not text cannot be shown. -/
def Reject.debugText? (r : Reject) : Option String :=
  r.code.debugText?.map fun code =>
    "Reject \x7b code: " ++ code ++ ", message: " ++ Text.quoted (Utf8.decodeLossy r.message)
      ++ ", triggered_by: " ++ (match r.triggeredBy with
        | some a => "Some(" ++ a.debugText ++ ")"
        | none => "None")
      ++ ", data_length: " ++ toString r.data.length ++ " \x7d"

end IlpConnector
