import IlpConnector.Simulation.Flow

/-!
# Turns and time

The scheduler gives the tasks their turns in the order in which they became ready.  The main task is
an exception: once it has waited, it gets its turn only when no other task is ready.  When all tasks
wait, the clock goes on to the next time for which one of them waits.
-/

namespace IlpConnector

/-- A task that goes on with the ending of the task it waits for, or without one if its time is up. -/
structure Turn (σ κ ω : Type) where
  id : Nat
  awaited : Option Nat
  next : Option (Ending ω) → Flow σ κ ω ω

namespace Turn

variable {σ κ ω : Type}

/-- The turn of a task that waits for nothing. -/
def free (id : Nat) (f : Flow σ κ ω ω) : Turn σ κ ω := ⟨id, none, fun _ => f⟩

/-- The turn after a task has ended. -/
def hear (id : Nat) (e : Ending ω) (t : Turn σ κ ω) : Turn σ κ ω :=
  if t.awaited = some id then ⟨t.id, none, fun _ => t.next (some e)⟩ else t

end Turn

/-- A task that waits for a time, in milliseconds, for the end of another task, or for whichever comes
first. -/
structure Sleeper (σ κ ω : Type) where
  turn : Turn σ κ ω
  deadline : Option Nat

structure Scheduler (σ κ ω : Type) where
  state : σ
  /-- Milliseconds since the start. -/
  clock : Nat := 0
  nextId : Nat := 0
  ready : List (Turn σ κ ω) := []
  /-- In the order in which they began to wait. -/
  asleep : List (Sleeper σ κ ω) := []
  /-- The main task, which waits for the others. -/
  main : Option Nat := none
  /-- The tasks whose endings are of interest, and the endings so far. -/
  watched : List Nat := []
  endings : List (Nat × Ending ω) := []

namespace Scheduler

variable {σ κ ω : Type}

/-- A new task, which becomes ready. -/
def add (s : Scheduler σ κ ω) (f : Flow σ κ ω ω) : Nat × Scheduler σ κ ω :=
  (s.nextId, { s with nextId := s.nextId + 1, ready := s.ready ++ [.free s.nextId f] })

/-- Ends a task, and makes those ready that wait for it.  A task whose time is up, but which has not
had its turn since, hears of the end as well. -/
def finish (s : Scheduler σ κ ω) (id : Nat) (e : Ending ω) : Scheduler σ κ ω :=
  let (woken, asleep) := s.asleep.partition (·.turn.awaited == some id)
  { s with
    ready := (s.ready ++ woken.map Sleeper.turn).map (Turn.hear id e)
    asleep
    endings := if s.watched.contains id then s.endings ++ [(id, e)] else s.endings }

def lull (s : Scheduler σ κ ω) (w : Sleeper σ κ ω) : Scheduler σ κ ω :=
  { s with asleep := s.asleep ++ [w] }

/-- A task's next move; a task that goes on keeps its turn. -/
def move (program : κ → Flow σ κ ω ω) (s : Scheduler σ κ ω) (id : Nat) :
    Flow σ κ ω ω → Scheduler σ κ ω × Option (Flow σ κ ω ω)
  | .done o => (s.finish id (.finished o), none)
  | .crash m => (s.finish id (.crashed m), none)
  | .act f next =>
    let (r, state) := f s.state
    ({ s with state }, some (next r))
  | .call c next => (s, some ((program c).bind next))
  | .spawn c next =>
    let (t, s) := s.add (program c)
    (s, some (next t))
  | .await t limit next => (s.lull ⟨⟨id, some t, next⟩, limit.map (s.clock + ·)⟩, none)
  | .sleep ms next => (s.lull ⟨.free id (next ()), some (s.clock + ms)⟩, none)
  | .stall => (s, none)

/-- The next task to get its turn, and the others. -/
def pick (s : Scheduler σ κ ω) : Option (Turn σ κ ω × Scheduler σ κ ω) :=
  match s.ready.find? fun t => some t.id ≠ s.main with
  | some t => some (t, { s with ready := s.ready.eraseP fun t => some t.id ≠ s.main })
  | none =>
    match s.ready with
    | [] => none
    | t :: rest => some (t, { s with ready := rest })

/-- The next time for which a task waits. -/
def nextDeadline? (s : Scheduler σ κ ω) : Option Nat :=
  (s.asleep.filterMap Sleeper.deadline).min?

/-- Goes on to a time, and makes those ready that have waited for it. -/
def advanceTo (s : Scheduler σ κ ω) (time : Nat) : Scheduler σ κ ω :=
  let (woken, asleep) := s.asleep.partition fun w => w.deadline.any (· ≤ time)
  { s with
    clock := max s.clock time
    ready := s.ready ++ woken.map Sleeper.turn
    asleep }

/-- All tasks that are watched have ended. -/
def isSettled (s : Scheduler σ κ ω) : Bool :=
  s.watched.all fun id => s.endings.any (·.1 == id)

/-- Runs until all tasks wait and the watched ones have ended, in so many moves at most. -/
def run (program : κ → Flow σ κ ω ω) : (moves : Nat) → Scheduler σ κ ω →
    Option (Nat × Flow σ κ ω ω) → Scheduler σ κ ω
  | 0, s, _ => s
  | n + 1, s, some (id, f) =>
    let (s, next) := s.move program id f
    run program n s (next.map fun f => (id, f))
  | n + 1, s, none =>
    match s.pick with
    | some (t, s) => run program n s (some (t.id, t.next none))
    | none =>
      if s.isSettled then s
      else
        match s.nextDeadline? with
        | some time => run program n (s.advanceTo time) none
        | none => s

/-- More moves than any session needs that comes to an end. -/
def moveLimit : Nat := 4000000

/-- Runs a procedure as the main task, and gives its ending, if it ends. -/
def perform (program : κ → Flow σ κ ω ω) (c : κ) (s : Scheduler σ κ ω) :
    Option (Ending ω) × Scheduler σ κ ω :=
  let (id, s) := s.add (program c)
  let s := run program moveLimit { s with main := some id, watched := [id], endings := [] } none
  ((s.endings.lookup id), { s with main := none, watched := [], endings := [] })

/-- Starts procedures as tasks, one after the other, and gives their endings. -/
def performAll (program : κ → Flow σ κ ω ω) (cs : List κ) (s : Scheduler σ κ ω) :
    List (Option (Ending ω)) × Scheduler σ κ ω :=
  let (ids, s) := cs.foldl
    (fun (r : List Nat × Scheduler σ κ ω) c =>
      let (id, s) := r.2.add (program c)
      (r.1 ++ [id], s)) ([], s)
  let s := run program moveLimit { s with watched := ids, endings := [] } none
  (ids.map fun id => s.endings.lookup id, { s with watched := [], endings := [] })

/-- Starts a procedure as a task and lets all tasks go on until they wait. -/
def launch (program : κ → Flow σ κ ω ω) (c : κ) (s : Scheduler σ κ ω) : Scheduler σ κ ω :=
  run program moveLimit (s.add (program c)).2 none

end Scheduler

end IlpConnector
