/-!
# Tasks that take turns

A `Flow` is a task as a tree of what it does next: change the common state, run another procedure,
start a task beside it, wait for a task or for some time.  Procedures are named by values of `κ`, so
that a flow may go on without end although each tree is finite.

Tasks run one at a time, and a task keeps its turn until it waits.
-/

namespace IlpConnector

/-- How a task has ended. -/
inductive Ending (ω : Type) where
  | finished (o : ω)
  /-- The task has broken down with this message. -/
  | crashed (message : String)

/-- A task over a state `σ`, with procedures `κ` that end with outcomes `ω`. -/
inductive Flow (σ κ ω α : Type) : Type 1 where
  | done (a : α)
  | act {ρ : Type} (f : σ → ρ × σ) (next : ρ → Flow σ κ ω α)
  /-- Goes through a procedure as a part of the task. -/
  | call (c : κ) (next : ω → Flow σ κ ω α)
  /-- Starts a procedure as a task of its own. -/
  | spawn (c : κ) (next : Nat → Flow σ κ ω α)
  /-- Waits until a task has ended, or for so many milliseconds at most. -/
  | await (task : Nat) (limit : Option Nat) (next : Option (Ending ω) → Flow σ κ ω α)
  | sleep (millis : Nat) (next : Unit → Flow σ κ ω α)
  /-- Waits for ever. -/
  | stall
  | crash (message : String)

namespace Flow

variable {σ κ ω α β : Type}

def bind : Flow σ κ ω α → (α → Flow σ κ ω β) → Flow σ κ ω β
  | done a, k => k a
  | act f next, k => act f fun r => (next r).bind k
  | call c next, k => call c fun o => (next o).bind k
  | spawn c next, k => spawn c fun t => (next t).bind k
  | await t limit next, k => await t limit fun e => (next e).bind k
  | sleep ms next, k => sleep ms fun u => (next u).bind k
  | stall, _ => stall
  | crash m, _ => crash m

instance : Monad (Flow σ κ ω) where
  pure := done
  bind := bind

/-- Reads the state. -/
def read (f : σ → α) : Flow σ κ ω α := act (fun s => (f s, s)) done

/-- Changes the state. -/
def change (f : σ → σ) : Flow σ κ ω Unit := act (fun s => ((), f s)) done

/-- Changes the state and goes on with what is told. -/
def take (f : σ → α × σ) : Flow σ κ ω α := act f done

/-- Goes through a procedure. -/
def run (c : κ) : Flow σ κ ω ω := call c done

/-- Starts a procedure beside the task. -/
def start (c : κ) : Flow σ κ ω Nat := spawn c done

def wait (task : Nat) (limit : Option Nat) : Flow σ κ ω (Option (Ending ω)) :=
  await task limit done

def pause (millis : Nat) : Flow σ κ ω Unit := sleep millis done

end Flow

end IlpConnector
