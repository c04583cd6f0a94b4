/-!
# Instants

A point in time is a whole number of nanoseconds before or after the start of 1970, Coordinated
Universal Time without leap seconds.
-/

namespace IlpConnector

/-- Nanoseconds since the start of 1970. -/
structure Instant where
  nanos : Int
deriving DecidableEq, Inhabited

namespace Instant

instance : LT Instant := ⟨fun a b => a.nanos < b.nanos⟩

instance : LE Instant := ⟨fun a b => a.nanos ≤ b.nanos⟩

instance (a b : Instant) : Decidable (a < b) := inferInstanceAs (Decidable (a.nanos < b.nanos))

instance (a b : Instant) : Decidable (a ≤ b) := inferInstanceAs (Decidable (a.nanos ≤ b.nanos))

def nanosPerMilli : Int := 1000000

def nanosPerSecond : Int := 1000000000

def ofSeconds (secs : Int) (nanos : Int) : Instant :=
  ⟨secs * nanosPerSecond + nanos⟩

def ofMillis (millis : Int) : Instant :=
  ⟨millis * nanosPerMilli⟩

/-- The whole second the instant is in. -/
def seconds (t : Instant) : Int :=
  t.nanos / nanosPerSecond

/-- Nanoseconds since the start of the instant's second. -/
def subsecond (t : Instant) : Int :=
  t.nanos % nanosPerSecond

/-- The whole millisecond the instant is in. -/
def millis (t : Instant) : Int :=
  t.nanos / nanosPerMilli

def addMillis (t : Instant) (millis : Int) : Instant :=
  ⟨t.nanos + millis * nanosPerMilli⟩

def addSeconds (t : Instant) (secs : Int) : Instant :=
  ⟨t.nanos + secs * nanosPerSecond⟩

/-- The last whole millisecond not after the instant. -/
def truncateToMillis (t : Instant) : Instant :=
  ofMillis t.millis

end Instant

end IlpConnector
