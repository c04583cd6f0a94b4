import IlpConnector.Config.CommandLine
import IlpConnector.Node.Record

/-!
# The program

Reads the configuration of a node from the command line, a file and the environment, and prints the
node that it describes, or what is wrong with it.
-/

namespace IlpConnector.Program

/-- Variables of the environment that start like this belong to the configuration. -/
def variableStart : String := "ILP"

/-- The variables of the environment; none where they cannot be listed. -/
def environment : IO (List (String × String)) := do
  let content ←
    try pure (some (← IO.FS.readBinFile "/proc/self/environ"))
    catch _ => pure none
  let octets := (content.map ByteArray.toList).getD []
  let entries := octets.splitOn 0 |>.filterMap fun e => String.fromUTF8? ⟨e.toArray⟩
  return entries.filterMap CommandLine.assignment?

/-- So many random octets. -/
def randomOctets (n : Nat) : IO Bytes := do
  return (← IO.getRandomBytes n.toUSize).toList

/-- The content of the file that a command line names. -/
def contentOf (c : CommandLine) : IO (Option String) :=
  match c.file with
  | some name => try return some (← IO.FS.readFile name) catch _ => return none
  | none => return none

/-- The accounts of a node and its address. -/
def summary (n : Node) : Document :=
  .table (("accounts", .list (n.accounts.keys.map fun a => .text a.text))
    :: Node.operatorEntries n.operator "operator_set")

/-- Says what is wrong. -/
def fail (message : String) : IO UInt32 := do
  (← IO.getStderr).putStrLn message
  return 1

def run (words : List String) : IO UInt32 := do
  let some line := CommandLine.read words
    | fail "Usage: [config] [--operator_address address] [--log_level level] [--route_broadcast_interval ms]"
  let content ← contentOf line
  let some config := NodeConfig.ofCommandLine line content variableStart (← environment)
    | fail NodeError.configuration.message
  let secret ←
    match config.routeSecret with
    | some s => pure s.toList
    | none => randomOctets 32
  let some id := Octets.ofList? (← randomOctets 16)
    | fail "No random octets"
  match Node.ofSettings config.settings config.accounts secret ⟨id⟩ with
  | .error e => fail ("Invalid node configuration: " ++ e.message)
  | .ok n =>
    (← IO.getStdout).putStrLn (Json.write (summary n))
    return 0

end IlpConnector.Program

/-- Reads the configuration of a node and prints the node. -/
def main (args : List String) : IO UInt32 :=
  IlpConnector.Program.run args
