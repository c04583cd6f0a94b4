import IlpConnector.Ccp.Error
import IlpConnector.ErrorCode
import IlpConnector.Node.Basic

/-!
# What a scenario complains about

A scenario is a document that describes a network and what happens in it, step by step.  Whatever is
wrong with a part of it, or with what a step does, is the answer in place of a result.
-/

namespace IlpConnector

inductive Complaint where
  | address (cause : AddressError)
  | account (text : String)
  | errorCode (text : String)
  /-- Settings that cannot be read. -/
  | settings
  | octets (cause : Oer.ReadError)
  | packet (cause : PacketError)
  | link (cause : LinkError)
  | routing (cause : RoutingError)
  | node (cause : NodeError)
  /-- A breakdown with a message. -/
  | crash (message : String)
  /-- The account has no sender. -/
  | noSender
  | noReceiver
  | noLink

namespace Complaint

/-- The complaint in words, if there is more to say than what it is about. -/
def message? : Complaint → Option String
  | address e => some e.message
  | account s => some (AccountId.invalidMessage s)
  | errorCode s => some (ErrorCode.invalidMessage s)
  | octets e => some e.message
  | packet e => some e.message
  | link e => some e.message
  | routing e => some e.message
  | node .configuration => none
  | node e => some e.message
  | crash m => some m
  | settings | noSender | noReceiver | noLink => none

end Complaint

/-- A part of a scenario, or what is wrong with it. -/
abbrev Reading := Except Complaint

end IlpConnector
