import IlpConnector.Config.Basic

/-!
# The command line of a node

The command line names the file of the configuration and may set single values over it.  Each
option takes a value, behind it or after an equals sign, and occurs at most once.
-/

namespace IlpConnector

structure CommandLine where
  /-- The file of the configuration. -/
  file : Option String := none
  /-- The options that are set, by their names. -/
  options : List (String × String) := []

namespace CommandLine

/-- The options, and the places in the configuration that they set. -/
def places : List (String × String) :=
  [("operator_address", "operator_address"),
    ("log_level", "log_level"),
    ("route_broadcast_interval", "global_routing_settings.route_broadcast_interval_ms")]

/-- The name of an option that a word starts, and the value if the word has it too. -/
def option? (word : String) : Option (String × Option String) :=
  match word.toList with
  | '-' :: '-' :: rest =>
    let name := rest.takeWhile (· ≠ '=')
    some (String.ofList name,
      if name.length < rest.length then some (String.ofList (rest.drop (name.length + 1)))
      else none)
  | _ => none

/-- The command line with an option set that it does not have yet. -/
def set (name value : String) (c : CommandLine) : Option CommandLine :=
  if (places.map (·.1)).contains name && !(c.options.map (·.1)).contains name then
    some { c with options := c.options ++ [(name, value)] }
  else none

/-- What the words say, after what is known already. -/
def readWords : CommandLine → List String → Option CommandLine
  | c, [] => some c
  | c, [word] =>
    match option? word with
    | some (name, some value) => c.set name value
    | some (_, none) => none
    | none => if c.file.isSome then none else some { c with file := word }
  | c, word :: next :: rest =>
    match option? word with
    | some (name, some value) => (c.set name value).bind fun c => readWords c (next :: rest)
    | some (name, none) => (c.set name next).bind fun c => readWords c rest
    | none => if c.file.isSome then none else readWords { c with file := word } (next :: rest)

def read (words : List String) : Option CommandLine := readWords {} words

/-- The values to set in the configuration, in the order of the options. -/
def overrides (c : CommandLine) : List (String × String) :=
  places.filterMap fun p =>
    (c.options.find? (·.1 == p.1)).map fun o => (p.2, o.2)

/-- The last part of a file's name, which tells how the file is written. -/
def formatOf (file : String) : String :=
  let last := (file.toList.reverse.takeWhile (· ≠ '/')).reverse
  let ending := (last.reverse.takeWhile (· ≠ '.')).reverse
  if ending.length < last.length then String.ofList ending else ""

/-- The name and the value in an entry of the environment. -/
def assignment? (entry : String) : Option (String × String) :=
  let name := entry.toList.takeWhile (· ≠ '=')
  let rest := entry.toList.drop name.length
  if name.isEmpty || rest.isEmpty then none
  else some (String.ofList name, String.ofList rest.tail)

end CommandLine

namespace NodeConfig

/-- The configuration that a command line, the content of its file and the variables of the
environment give. -/
def ofCommandLine (c : CommandLine) (content : Option String) (start : String)
    (environment : List (String × String)) : Option NodeConfig := do
  let file ←
    match c.file with
    | some name => documentOf (CommandLine.formatOf name) (← content)
    | none => some (.table [])
  ofLayers file start environment c.overrides

end NodeConfig

end IlpConnector
