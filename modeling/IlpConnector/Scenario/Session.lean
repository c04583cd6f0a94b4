import IlpConnector.Ccp.Record
import IlpConnector.Scenario.Complaint
import IlpConnector.Simulation.Procedures

/-!
# The steps of a scenario

A scenario is played on a network, one step after the other.  A step changes the network at once, or
runs procedures that take their time; a step is over when its procedures are, but what they have set
going goes on until all tasks wait.

`Session.play` plays a list of steps.  Each is read from its document when its turn comes, so that
it may refer to the network as it is then; and what has been sent and heard is told once, in the
answer to the step during which it was.
-/

namespace IlpConnector

/-- A network at some time, with the tasks in it. -/
abbrev Session := Scheduler Network Procedure Outcome

/-- What a step is answered with. -/
inductive Answer where
  | done
  | value (d : Document)
  | complaint (c : Complaint)
  | several (answers : List Answer)

namespace Answer

/-- How a procedure has ended; a step with a procedure that never ends has no value. -/
def ofEnding : Option (Ending Outcome) → Answer
  | some (.finished .finished) => done
  | some (.finished (.replied r)) => value r.toDocument
  | some (.finished (.linkFailed e)) => complaint (.link e)
  | some (.finished (.routingFailed e)) => complaint (.routing e)
  | some (.finished (.nodeFailed e)) => complaint (.node e)
  | some (.finished .notRouting) => complaint .noSender
  | some (.crashed m) => complaint (.crash m)
  | none => value .null

def text (s : String) : Answer := value (.text s)

def flag (b : Bool) : Answer := value (.bool b)

/-- An optional value. -/
def ofOption {α : Type} (f : α → Document) (a : Option α) : Answer := value (.ofOption f a)

end Answer

/-- What a step does: a change, procedures one after the other or side by side, and at last the
answer, with a change and with procedures that go on by themselves. -/
structure Step where
  before : Network → Network := id
  runs : List Procedure := []
  race : Bool := false
  after : List (Option (Ending Outcome)) → Network → Answer × Network × List Procedure

namespace Step

/-- A procedure whose ending is the answer. -/
def run (p : Procedure) : Step where
  runs := [p]
  after es n := (Answer.ofEnding es.head?.join, n, [])

/-- A change that takes no time. -/
def change (f : Network → Answer × Network) : Step where
  after _ n := ((f n).1, (f n).2, [])

def tell (a : Answer) : Step := change fun n => (a, n)

/-- A change of a node. -/
def node (name : String) (f : Node → Answer × Node) : Step :=
  change fun n =>
    match n.nodes.get? name with
    | some m => ((f m).1, n.setNode name (f m).2)
    | none => (.value .null, n)

/-- A change of what a node knows about routes. -/
def routes (name : String) (f : Broadcaster → Answer × Broadcaster) : Step :=
  node name fun m => ((f m.broadcaster).1, { m with broadcaster := (f m.broadcaster).2 })

/-- Goes through procedures, one after the other. -/
def performAll (s : Session) : List Procedure → List (Option (Ending Outcome)) × Session
  | [] => ([], s)
  | p :: rest =>
    let (e, s) := s.perform Procedure.task p
    let (es, s) := performAll s rest
    (e :: es, s)

def play (step : Step) (s : Session) : Answer × Session :=
  let s : Session := { s with state := step.before s.state }
  let (endings, s) :=
    if step.race then s.performAll Procedure.task step.runs else performAll s step.runs
  let (a, n, more) := step.after endings s.state
  let s : Session := { s with state := n }
  (a, more.foldl (fun s p => s.launch Procedure.task p) s)

end Step

/-- The network with nothing left to tell about what was sent and heard. -/
def Network.forget (n : Network) : Network :=
  { n with
    peers := n.peers.mapValues fun _ p => { p with received := [] }
    heard := []
    probed := [] }

/-- What a neighbour has received, as documents. -/
def Network.sentTo (n : Network) (peer : String) : List Document :=
  ((n.peers.get? peer).map fun p => p.received.map (·.sentDocument n.now)).getD []

/-- What neighbours have received, each under a name; who has received nothing is left out. -/
def Network.sentDocument (n : Network) (named : List (String × String)) : Document :=
  .table ((named.map fun e => (e.2, n.sentTo e.1)).filterMap fun e =>
    if e.2.isEmpty then none else some (e.1, .list e.2))

namespace LinkEvent

def text : LinkEvent → String
  | connected l => "connected " ++ LinkId.orUnset l
  | disconnected l => "disconnected " ++ LinkId.orUnset l
  | error l e => "error " ++ LinkId.orUnset l ++ ": " ++ e

/-- What listeners have heard, the listener's name before each event. -/
def heardDocument (heard : List (String × LinkEvent)) : Document :=
  .texts (heard.map fun e => e.1 ++ " " ++ e.2.text)

end LinkEvent

namespace Session

/-- Plays the steps that documents stand for, and gives the report of each. -/
def play (read : Network → Document → Reading Step) (report : Network → Answer → Document) :
    List Document → Session → List Document
  | [], _ => []
  | d :: rest, s =>
    let (a, s) := match read s.state d with
      | .ok step => step.play s
      | .error c => (Answer.complaint c, s)
    report s.state a :: play read report rest { s with state := s.state.forget }

/-- The session at the start. -/
def ofNetwork (n : Network) : Session := { state := n }

end Session

end IlpConnector
