import IlpConnector.Account.Record
import IlpConnector.Bytes.Hex
import IlpConnector.Decimal.Shortest
import IlpConnector.Document.Json
import IlpConnector.Document.Path
import IlpConnector.Document.Toml
import IlpConnector.Document.Yaml

/-!
# The configuration of a node

All that is needed to run a node: its settings, its accounts, and the secret that the tags on its
own routes are made with.

A configuration comes in layers: a document from a file, variables of the environment, and values of
the command line.  A later layer wins, entry by entry.  Variables and values are texts, so numbers
and switches may be written as text everywhere.
-/

namespace IlpConnector

open Document (Scalars Path)

structure NodeConfig where
  settings : ConnectorSettings
  accounts : List AccountSettings
  logLevel : String
  /-- The key of route tags; a random one is made if none is set. -/
  routeSecret : Option (Octets 32)

namespace NodeConfig

/-- How the scalars of a configuration are read. -/
def scalars : Scalars := .loose Decimal.text

def defaultLogLevel : String := "info"

def readSecret (d : Document) : Option (Octets 32) := do
  Octets.ofList? (← Hex.decode? (← scalars.text d))

/-- The configuration in a document. -/
def ofDocument (d : Document) : Option NodeConfig := do
  let field ← scalars.fields ["operator_address", "global_routing_settings", "accounts",
    "static_routes", "log_level", "route_secret"] d
  let operator ← Scalars.optional (Address.read scalars) (field "operator_address")
  let routing ← Scalars.orElse {} (RoutingSettings.read scalars) (field "global_routing_settings")
  let accounts ← Scalars.orElse [] (Scalars.items (AccountSettings.read scalars))
    (field "accounts")
  let routes ← Scalars.orElse [] (Scalars.items (StaticRoute.read scalars)) (field "static_routes")
  let logLevel ← Scalars.orElse defaultLogLevel scalars.text (field "log_level")
  let secret ← Scalars.optional readSecret (field "route_secret")
  return ⟨⟨operator, routing, routes⟩, accounts, logLevel, secret⟩

mutual

/-- A document whose whole numbers have 63 bits and a sign; larger ones are real numbers. -/
def narrowed : Document → Document
  | .int n => if n < Int.ofNat (Nat.pow 2 63) then .int n else .real (Float.ofInt n)
  | .list ds => .list (narrowedItems ds)
  | .table es => .table (narrowedEntries es)
  | d => d

def narrowedItems : List Document → List Document
  | [] => []
  | d :: ds => narrowed d :: narrowedItems ds

def narrowedEntries : List (String × Document) → List (String × Document)
  | [] => []
  | (k, d) :: es => (k, narrowed d) :: narrowedEntries es

end

/-- The document in a file, by the last part of the file's name. -/
def documentOf (format content : String) : Option Document :=
  match format with
  | "json" => Json.read content
  | "toml" => Toml.read content
  | "yaml" | "yml" => Yaml.read content
  | _ => none

/-- The entries that a file gives; only a table has any. -/
def layerOfFile (d : Document) : List (String × Document) :=
  (narrowed d).entries

/-- A name in which two underscores are a dot. -/
def dotted : List Char → List Char
  | '_' :: '_' :: rest => '.' :: dotted rest
  | c :: rest => c :: dotted rest
  | [] => []

/-- The key of a variable whose name starts with the given one and an underscore.  Two underscores
lead into a table. -/
def variableKey? (start name : String) : Option String :=
  let lower (s : String) : List Char := s.toList.map Char.toLower
  let front := lower start ++ ['_']
  if front.isPrefixOf (lower name) then
    some (String.ofList (dotted ((lower name).drop front.length)))
  else none

/-- The entries that the variables of an environment give. -/
def layerOfVariables (start : String) (environment : List (String × String)) :
    List (String × Document) :=
  environment.filterMap fun v => (variableKey? start v.1).map fun key => (key, .text v.2)

/-- Lays entries over a document; a key that is no path stands for itself. -/
def overlay (d : Document) (layer : List (String × Document)) : Document :=
  layer.foldl (fun d e =>
    match Path.read e.1 with
    | some path => Document.put path e.2 d
    | none => d.mergeAt e.1 e.2) d

/-- Puts values over a document, each at a path, which it has to be. -/
def overrideAll (d : Document) : List (String × String) → Option Document
  | [] => some d
  | (key, value) :: rest => do
    let path ← Path.read key
    overrideAll (Document.put path (.text value) d) rest

/-- The configuration from all layers. -/
def ofLayers (file : Document) (start : String) (environment overrides : List (String × String)) :
    Option NodeConfig := do
  let d := overlay (.table []) (layerOfFile file)
  let d := overlay d (layerOfVariables start environment)
  ofDocument (← overrideAll d overrides)

end NodeConfig

end IlpConnector
