import IlpConnector.Bytes.Utf8
import IlpConnector.Text.Basic

/-!
# Error codes

A refused packet carries a code of three octets, whose first one tells the class of the error: final
errors stay, temporary ones may pass, and relative ones depend on the packet's amount or time.
-/

namespace IlpConnector

inductive ErrorClass where
  | final
  | temporary
  | relative
  | unknown
deriving DecidableEq, Repr

structure ErrorCode where
  octets : Octets 3
deriving DecidableEq

namespace ErrorCode

/-- The code of three ASCII characters. -/
def ofChars (a b c : Char) : ErrorCode :=
  ⟨⟨[a, b, c].map fun x => UInt8.ofNat x.toNat, rfl⟩⟩

def badRequest : ErrorCode := ofChars 'F' '0' '0'
def unreachable : ErrorCode := ofChars 'F' '0' '2'
def wrongCondition : ErrorCode := ofChars 'F' '0' '5'
def amountTooLarge : ErrorCode := ofChars 'F' '0' '8'
def invalidPeerResponse : ErrorCode := ofChars 'F' '0' '9'
def peerUnreachable : ErrorCode := ofChars 'T' '0' '1'
def rateLimited : ErrorCode := ofChars 'T' '0' '5'
def transferTimedOut : ErrorCode := ofChars 'R' '0' '0'
def insufficientTimeout : ErrorCode := ofChars 'R' '0' '2'

def errorClass (c : ErrorCode) : ErrorClass :=
  match c.octets.toList with
  | 0x46 :: _ => .final
  | 0x54 :: _ => .temporary
  | 0x52 :: _ => .relative
  | _ => .unknown

/-- The code in a text of three ASCII letters and digits, between blanks; its first letter is made
upper-case. -/
def ofText? (s : String) : Option ErrorCode :=
  match Text.trimChars s.toList with
  | [a, b, c] =>
    if a.isAlphanum && b.isAlphanum && c.isAlphanum then some (ofChars a.toUpper b c) else none
  | _ => none

/-- The complaint about a text that is no code. -/
def invalidMessage (s : String) : String :=
  "Invalid ILP error code: " ++ Text.quoted s

/-- The code as text, if it is text. -/
def text? (c : ErrorCode) : Option String :=
  (Utf8.decode c.octets.toList).toOption

end ErrorCode

end IlpConnector
