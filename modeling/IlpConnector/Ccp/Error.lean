import IlpConnector.Ccp.Message
import IlpConnector.Link.Error

/-!
# What can go wrong in the exchange of routes
-/

namespace IlpConnector

/-- An update that starts after the epoch that is expected next. -/
structure EpochGap where
  tableId : TableId
  expected : UInt32
  found : UInt32
deriving DecidableEq

inductive RoutingError where
  | invalidMessage (cause : PacketError)
  | gap (gap : EpochGap)
  | unknownAccount (account : AccountId)
  | notRouting (account : AccountId)
  | link (cause : LinkError)

namespace RoutingError

/-- What the message of a gap starts with, before the table's id. -/
def gapStart : String := "Gap in routing table "

def message : RoutingError → String
  | invalidMessage e => "Invalid CCP message: " ++ e.message
  | gap g =>
    gapStart ++ g.tableId.text ++ ". Expected epoch: " ++ toString g.expected.toNat
      ++ ", got from_epoch: " ++ toString g.found.toNat
  | unknownAccount a => "Account " ++ a.text ++ " not found"
  | notRouting a => "Route updates are not exchanged with account " ++ a.text
  | link e => "Unable to send CCP message: " ++ e.message

end RoutingError

end IlpConnector
