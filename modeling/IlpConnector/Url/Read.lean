import IlpConnector.Url.Host

/-!
# Reading URLs

`Url.read` reads an absolute URL the way browsers do: blanks around it do not count, a backslash
passes for a slash in the schemes of the web, and dots in the path are resolved.

Hosts are read as far as ASCII goes: names in other scripts, which have an ASCII form by tables of
their own, are taken for invalid here.  `Url.reader` is but the reader that is at hand, and whatever
goes by URLs takes any other one as well.
-/

namespace IlpConnector.Url

/-- The usual port of the schemes of the web. -/
def defaultPort? (scheme : String) : Option Nat :=
  [("http", 80), ("https", 443), ("ws", 80), ("wss", 443), ("ftp", 21)].lookup scheme

/-- The scheme is one of the web, with names for hosts. -/
def isWebScheme (scheme : String) : Bool := (defaultPort? scheme).isSome

def trimControls (cs : List Char) : List Char :=
  ((cs.dropWhile (·.toNat ≤ 32)).reverse.dropWhile (·.toNat ≤ 32)).reverse

/-- The text that counts. -/
def relevant (s : String) : List Char :=
  (trimControls s.toList).filter fun c => c ≠ '\t' && c ≠ '\n' && c ≠ '\r'

def isSchemeChar (c : Char) : Bool :=
  c.isAlphanum || c = '+' || c = '-' || c = '.'

/-- The scheme, and what follows the colon after it. -/
def readScheme (cs : List Char) : Option (String × List Char) :=
  let scheme := cs.takeWhile isSchemeChar
  match cs.drop scheme.length with
  | ':' :: rest =>
    if scheme.head?.any Char.isAlpha then some (String.ofList (scheme.map Char.toLower), rest)
    else none
  | _ => none

def isSlash (web : Bool) (c : Char) : Bool := c = '/' || web && c = '\\'

def endsAuthority (web : Bool) (c : Char) : Bool := isSlash web c || c = '?' || c = '#'

/-- Splits at the last at-sign. -/
def splitUserInfo (authority : List Char) : Option (List Char × List Char) :=
  if authority.contains '@' then
    let host := (authority.reverse.takeWhile (· ≠ '@')).reverse
    some (authority.take (authority.length - host.length - 1), host)
  else none

/-- User name and password in their written form; an empty password is left out. -/
def writeUserInfo (info : List Char) : String :=
  let user := info.takeWhile (· ≠ ':')
  let password := info.drop (user.length + 1)
  let user := user.flatMap (escape escapedInUserInfo)
  let password := password.flatMap (escape escapedInUserInfo)
  if user.isEmpty && password.isEmpty then ""
  else
    String.ofList user ++ (if password.isEmpty then "" else ":" ++ String.ofList password) ++ "@"

/-- The host up to a colon outside of brackets. -/
def takeHost : (inBrackets : Bool) → List Char → List Char
  | _, [] => []
  | inBrackets, c :: cs =>
    if c = ':' && !inBrackets then []
    else c :: takeHost (if c = '[' then true else if c = ']' then false else inBrackets) cs

/-- The port after a colon; the usual one of the scheme goes without saying. -/
def readPort (usual : Option Nat) (cs : List Char) : Except UrlError (Option Nat) :=
  if !cs.all Char.isDigit then .error .invalidPort
  else
    let n := Text.digitsValue cs
    if 65535 < n then .error .invalidPort
    else if cs.isEmpty || usual = some n then .ok none
    else .ok (some n)

def readAuthority (scheme : String) (cs : List Char) : Except UrlError UrlAuthority := do
  let web := isWebScheme scheme
  let (userInfo, cs) :=
    match splitUserInfo cs with
    | some (info, host) => (some info, host)
    | none => (none, cs)
  if userInfo.isSome && cs.isEmpty then throw .emptyHost
  let host := takeHost false cs
  let rest := cs.drop host.length
  if host.isEmpty && (web || !rest.isEmpty || userInfo.isSome) then throw .emptyHost
  let name ← if web then hostName host else opaqueHost host
  let port ←
    match rest with
    | _ :: digits => readPort (defaultPort? scheme) digits
    | [] => pure none
  return ⟨(userInfo.map writeUserInfo).getD "", name, port⟩

def isSingleDot (s : String) : Bool :=
  s = "." || s.toLower = "%2e"

def isDoubleDot (s : String) : Bool :=
  ["..", ".%2e", "%2e.", "%2e%2e"].contains s.toLower

/-- The segments that are left when the dots among them are resolved.  Dots at the end leave an empty
segment. -/
def resolveDots : (seen : List String) → List String → List String
  | seen, [] => seen.reverse
  | seen, s :: rest =>
    if isDoubleDot s then
      if rest.isEmpty then ("" :: seen.tail).reverse else resolveDots seen.tail rest
    else if isSingleDot s then
      if rest.isEmpty then ("" :: seen).reverse else resolveDots seen rest
    else resolveDots (s :: seen) rest

/-- The path in its written form. -/
def writePath (web : Bool) (cs : List Char) : String :=
  let cs := cs.map fun c => if isSlash web c then '/' else c
  let segments := (splitOn '/' (if cs.head? = some '/' then cs.tail else cs)).map fun s =>
    String.ofList (s.flatMap (escape escapedInPath))
  "/" ++ "/".intercalate (resolveDots [] segments)

/-- The query and the fragment at the end of a URL. -/
def readTail (web : Bool) (cs : List Char) : Option String × Option String :=
  let fragment : List Char → Option String
    | '#' :: rest => some (String.ofList (rest.flatMap (escape escapedInFragment)))
    | _ => none
  match cs with
  | '?' :: rest =>
    let query := rest.takeWhile (· ≠ '#')
    (some (String.ofList (query.flatMap (escape (escapedInQuery web)))),
      fragment (rest.drop query.length))
  | _ => (none, fragment cs)

def endsPath (c : Char) : Bool := c = '?' || c = '#'

/-- A URL from its authority on. -/
def readAfterSlashes (scheme : String) (cs : List Char) : Except UrlError Url := do
  let web := isWebScheme scheme
  let authority := cs.takeWhile (!endsAuthority web ·)
  let rest := cs.drop authority.length
  let a ← readAuthority scheme authority
  let path := rest.takeWhile (!endsPath ·)
  let (query, fragment) := readTail web (rest.drop path.length)
  let written := if path.isEmpty && !web then "" else writePath web path
  return ⟨scheme, some a, written, query, fragment⟩

/-- A URL of a file; a host of the name of this machine is none. -/
def readFile (cs : List Char) : Except UrlError Url := do
  let slashes := (cs.takeWhile (isSlash true)).length
  let (host, rest) :=
    if slashes = 2 then
      let host := (cs.drop 2).takeWhile (!endsAuthority true ·)
      (host, cs.drop (2 + host.length))
    else ([], cs.drop (min slashes 2))
  let name ← if host.isEmpty then pure "" else hostName host
  let path := rest.takeWhile (!endsPath ·)
  let (query, fragment) := readTail true (rest.drop path.length)
  return ⟨"file", some ⟨"", if name = "localhost" then "" else name, none⟩, writePath true path, query,
    fragment⟩

/-- A URL of any other scheme, which may have a path of its own kind. -/
def readOther (scheme : String) (cs : List Char) : Except UrlError Url :=
  match cs with
  | '/' :: '/' :: rest => readAfterSlashes scheme rest
  | _ =>
    let path := cs.takeWhile (!endsPath ·)
    let (query, fragment) := readTail false (cs.drop path.length)
    let written :=
      match path with
      | '/' :: _ => writePath false path
      | _ => String.ofList (path.flatMap (escape fun _ => false))
    .ok ⟨scheme, none, written, query, fragment⟩

/-- The URL that a text is. -/
def read (s : String) : Except UrlError Url :=
  match readScheme (relevant s) with
  | none => .error .noBase
  | some (scheme, rest) =>
    if isWebScheme scheme then readAfterSlashes scheme (rest.dropWhile (isSlash true))
    else if scheme = "file" then readFile rest
    else readOther scheme rest

/-- The written form of the URL that a text is, or what is wrong with the text. -/
def reader (s : String) : Except String String :=
  ((read s).map text).mapError UrlError.message

end IlpConnector.Url
