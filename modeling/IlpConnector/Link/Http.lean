import IlpConnector.Bytes.Base64
import IlpConnector.Digest.Sha256
import IlpConnector.Document.Json
import IlpConnector.Link.Error
import IlpConnector.Packet.Codec

/-!
# Packets over HTTP

A link over HTTP posts each packet to the neighbour's URL and takes the packet in the response for
the answer.  Every request carries a token: the shared secret itself, or claims about the sender
that are signed with the secret and hold for some time (`OutgoingHttp.token?`).

Which texts are URLs, and what comes of a request, is not said here: settings are read by some
`UrlReader`, and requests end as some `HttpExchange` has it.
-/

namespace IlpConnector

inductive HttpAuth where
  | simple
  | signed
deriving DecidableEq

namespace HttpAuth

/-- The kind of token with this name, in any case. -/
def ofText (s : String) : Except LinkError HttpAuth :=
  let name := String.ofList (s.toList.map Char.toUpper)
  if name = "SIMPLE" then .ok simple
  else if name = "JWT_HS_256" then .ok signed
  else .error (.invalidSettings ("unsupported auth type: " ++ name))

end HttpAuth

/-- Reads URLs: gives the written form of the URL that a text is, or what is wrong with the text. -/
abbrev UrlReader := String → Except String String

/-- Where requests go, and what their tokens say. -/
structure OutgoingHttp where
  /-- The URL in its written form. -/
  url : String
  auth : HttpAuth
  subject : String
  issuer : Option String
  audience : Option String
  secret : String
  /-- Seconds for which a token holds. -/
  tokenLifetime : UInt64

namespace OutgoingHttp

def urlKey : String := "http.outgoing.url"
def authKey : String := "http.outgoing.auth_type"
def subjectKey : String := "http.outgoing.token_subject"
def issuerKey : String := "http.outgoing.token_issuer"
def audienceKey : String := "http.outgoing.token_audience"
def secretKey : String := "http.outgoing.shared_secret"
def lifetimeKey : String := "http.outgoing.token_expiry"

def defaultLifetime : UInt64 := 60

def required (custom : CustomSettings) (key : String) : Except LinkError String :=
  match custom.get? key with
  | some s => .ok s
  | none => .error (.invalidSettings ("missing `" ++ key ++ "`"))

def readUrl (urls : UrlReader) (s : String) : Except LinkError String :=
  (urls s).mapError fun message => .invalidSettings ("bad `" ++ urlKey ++ "`: " ++ message)

def readLifetime (s : String) : Except LinkError UInt64 :=
  match Text.natBelow? UInt64.size s with
  | some n => .ok (.ofNat n)
  | none => .error (.invalidSettings ("bad `" ++ lifetimeKey ++ "`"))

/-- The settings of a link over HTTP; of several faults the first one is told, in the order of the
fields here. -/
def ofCustom (urls : UrlReader) (custom : CustomSettings) : Except LinkError OutgoingHttp := do
  let url ← readUrl urls (← required custom urlKey)
  let auth ← ((custom.get? authKey).map HttpAuth.ofText).getD (.ok .simple)
  let lifetime ← ((custom.get? lifetimeKey).map readLifetime).getD (.ok defaultLifetime)
  let secret ← required custom secretKey
  return {
    url, auth
    subject := (custom.get? subjectKey).getD ""
    issuer := custom.get? issuerKey
    audience := custom.get? audienceKey
    secret
    tokenLifetime := lifetime }

/-- The second at which a token ends that is made now; a second before 1970 counts as its start.  There
is none if the clock cannot hold the end, which it can for 63 bits of seconds. -/
def expiry? (h : OutgoingHttp) (now : Instant) : Option Nat :=
  let finish := now.seconds + h.tokenLifetime.toNat
  if finish < Int.ofNat (Nat.pow 2 63) then some finish.toNat else none

/-- An optional claim. -/
def claim (name : String) : Option String → List (String × Document)
  | some s => [(name, .text s)]
  | none => []

def claims (h : OutgoingHttp) (expiry : Nat) : Document :=
  .table ([("sub", .text h.subject)] ++ claim "iss" h.issuer ++ claim "aud" h.audience
    ++ [("exp", .int expiry)])

/-- The part of a signed token that names its form. -/
def tokenHeader : String :=
  Base64.encode (Utf8.encode "\x7b\"alg\":\"HS256\",\"typ\":\"JWT\"\x7d")

/-- Header, claims and the signature of both. -/
def signedToken (h : OutgoingHttp) (expiry : Nat) : String :=
  let signed := tokenHeader ++ "." ++ Base64.encode (Utf8.encode (Json.write (h.claims expiry)))
  signed ++ "."
    ++ Base64.encode (Hmac.sign (Utf8.encode h.secret) (Utf8.encode signed)).toList

/-- The token of a request that is made now.  There is none if its end is beyond the clock. -/
def token? (h : OutgoingHttp) (now : Instant) : Option String :=
  match h.auth with
  | .simple => some h.secret
  | .signed => (h.expiry? now).map h.signedToken

end OutgoingHttp

/-- A packet on its way to the neighbour's host. -/
structure HttpRequest where
  url : String
  token : String
  body : Bytes
deriving DecidableEq

/-- The request that carries a packet, with a token. -/
def OutgoingHttp.request (h : OutgoingHttp) (token : String) (p : Prepare) : HttpRequest :=
  ⟨h.url, token, p.encode⟩

/-- What the neighbour's host answers to a request. -/
structure HttpResponse where
  status : Nat
  /-- The status with its phrase. -/
  statusText : String
  /-- The body, or what keeps it from being read. -/
  body : Except String Bytes

/-- What comes of a request after others: the response, or what keeps the request from being sent,
after so many milliseconds; or nothing ever. -/
abbrev HttpExchange :=
  (earlier : List HttpRequest) → HttpRequest → Option (Nat × Except String HttpResponse)

/-- No request gets to its host. -/
def HttpExchange.unreachable : HttpExchange := fun _ _ => some (0, .error "connection refused")

namespace HttpResponse

/-- The neighbour's answer in a response. -/
def reply (r : HttpResponse) : Except LinkError Reply :=
  if r.status < 200 || 299 < r.status then
    .error (.transport ("peer responded with HTTP " ++ r.statusText))
  else
    match r.body with
    | .error message => .error (.transport ("error reading response: " ++ message))
    | .ok body =>
      match Packet.decode body with
      | .ok (.fulfill f) => .ok (.fulfilled f)
      | .ok (.reject r) => .ok (.rejected r)
      | .ok (.prepare _) => .error (.transport "peer responded with a Prepare packet")
      | .error e => .error (.transport ("unable to parse response packet: " ++ e.message))

/-- The neighbour's answer to a request that has come to this. -/
def answer : Except String HttpResponse → Except LinkError Reply
  | .error message => .error (.transport ("error sending request: " ++ message))
  | .ok r => r.reply

end HttpResponse

end IlpConnector
