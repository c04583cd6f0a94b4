import IlpConnector.Account.Basic

/-!
# What can go wrong on a link

A refusal by the peer is no error of the link: it is a `Reject`, which travels as an answer.
-/

namespace IlpConnector

/-- The name of a link, usually the id of the account it serves. -/
structure LinkId where
  text : String
deriving DecidableEq

namespace LinkId

def ofAccount (a : AccountId) : LinkId := ⟨a.text⟩

def debugText (l : LinkId) : String := "LinkId(" ++ l.text ++ ")"

/-- The name of a link that may have none. -/
def orUnset (l : Option LinkId) : String :=
  (l.map LinkId.text).getD "unset"

end LinkId

inductive LinkError where
  | handlerAlreadyRegistered (link : Option LinkId)
  | idAlreadySet (current attempted : LinkId)
  | idNotSet
  | noHandler (link : Option LinkId)
  | notConnected (link : Option LinkId)
  | unsupportedType (type : LinkType)
  | invalidSettings (reason : String)
  | connectFailed (reason : String)
  | disconnectFailed (reason : String)
  | transport (reason : String)
deriving DecidableEq

namespace LinkError

def message : LinkError → String
  | handlerAlreadyRegistered l =>
    "DataHandler may not be registered twice on link `" ++ LinkId.orUnset l
      ++ "`. Call unregister_link_handler first!"
  | idAlreadySet current attempted =>
    "LinkId may only be set once (link `" ++ current.text ++ "`, attempted `" ++ attempted.text ++ "`)"
  | idNotSet => "link has no LinkId; set one before exchanging packets"
  | noHandler l => "no link handler registered on link `" ++ LinkId.orUnset l ++ "`"
  | notConnected l => "link `" ++ LinkId.orUnset l ++ "` is not connected"
  | unsupportedType t => "Unsupported LinkType: " ++ t.debugText
  | invalidSettings r => "invalid link settings: " ++ r
  | connectFailed r => "unable to connect: " ++ r
  | disconnectFailed r => "unable to disconnect: " ++ r
  | transport r => "transport error: " ++ r

/-- The error is a mistake in how links are put together, and no state of the network: it never helps
to try again. -/
def isProgrammingError : LinkError → Bool
  | handlerAlreadyRegistered _ | idAlreadySet .. | idNotSet => true
  | _ => false

end LinkError

end IlpConnector
