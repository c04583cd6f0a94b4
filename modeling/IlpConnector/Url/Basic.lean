import IlpConnector.Bytes.Hex
import IlpConnector.Bytes.Utf8

/-!
# URLs

The parts of an absolute URL and its text.  The parts are kept in their written form, with the
characters that a part may not have as percent signs and hexadecimal digits.
-/

namespace IlpConnector

/-- Why a text is no URL. -/
inductive UrlError where
  | emptyHost
  | invalidName
  | invalidNameCharacter
  | invalidPort
  | invalidIpv4
  | invalidIpv6
  | noBase
deriving DecidableEq

def UrlError.message : UrlError → String
  | emptyHost => "empty host"
  | invalidName => "invalid international domain name"
  | invalidNameCharacter => "invalid domain character"
  | invalidPort => "invalid port number"
  | invalidIpv4 => "invalid IPv4 address"
  | invalidIpv6 => "invalid IPv6 address"
  | noBase => "relative URL without a base"

/-- What stands between the double slash and the path. -/
structure UrlAuthority where
  /-- User name and password with the sign after them, if any. -/
  userInfo : String
  host : String
  /-- The port, if it is not the usual one of the scheme. -/
  port : Option Nat
deriving DecidableEq

structure Url where
  scheme : String
  authority : Option UrlAuthority
  path : String
  query : Option String
  fragment : Option String
deriving DecidableEq

namespace UrlAuthority

def text (a : UrlAuthority) : String :=
  a.userInfo ++ a.host ++ (match a.port with
    | some n => ":" ++ toString n
    | none => "")

end UrlAuthority

namespace Url

/-- A part with the sign before it, if there is one. -/
def marked (sign : String) : Option String → String
  | some s => sign ++ s
  | none => ""

def text (u : Url) : String :=
  u.scheme ++ ":" ++ marked "//" (u.authority.map UrlAuthority.text) ++ u.path
    ++ marked "?" u.query ++ marked "#" u.fragment

/-- A character as it is, or the octets of it as percent signs and digits, as the part demands. -/
def escape (mustEscape : Char → Bool) (c : Char) : List Char :=
  if c.toNat < 32 || 126 < c.toNat || mustEscape c then
    (Utf8.encode (String.singleton c)).flatMap fun o =>
      '%' :: (Hex.encodeChars [o]).map Char.toUpper
  else [c]

def escapedInFragment (c : Char) : Bool := " \"<>`".toList.contains c

def escapedInQuery (special : Bool) (c : Char) : Bool :=
  " \"#<>".toList.contains c || special && c = '\x27'

def escapedInPath (c : Char) : Bool :=
  escapedInFragment c || "#?\x7b\x7d".toList.contains c

def escapedInUserInfo (c : Char) : Bool :=
  escapedInPath c || "/:;=@[\\]^|".toList.contains c

end Url

end IlpConnector
