import IlpConnector.Account.Basic

/-!
# Rate limits

An account with a limit has a limiter, which is asked about each of its packets.  A limiter is
whatever answers: all that counts is what it says when it is asked at some reading of its clock,
after it has been asked at others.  It is made by a `Governor`, for the limit that the account has;
another limit makes another limiter (`Governor.acquire`).

`Governor.bucket` is the governor that nodes have unless they are given another one.
-/

namespace IlpConnector

/-- What decides about one packet after the other. -/
structure Limiter where
  /-- Whether a packet may pass, by the readings of the limiter's clock when it was asked before, the
  first one first, and by the reading now. -/
  admits : (earlier : List Nat) → (now : Nat) → Bool

namespace Limiter

/-- Whether one more packet may pass, and the limiter after that. -/
def check (l : Limiter) (now : Nat) : Bool × Limiter :=
  (l.admits [] now, ⟨fun earlier => l.admits (now :: earlier)⟩)

variable {σ : Type}

/-- The limiter that decides by a state, which changes whenever it is asked. -/
def ofState (ask : Nat → σ → Bool × σ) (s : σ) : Limiter where
  admits earlier now := (ask now (earlier.foldl (fun s t => (ask t s).2) s)).1

theorem check_ofState (ask : Nat → σ → Bool × σ) (s : σ) (now : Nat) :
    (ofState ask s).check now = ((ask now s).1, ofState ask (ask now s).2) := rfl

end Limiter

/-- What makes limiters, for so many packets a second, when their clock shows a reading. -/
structure Governor where
  limiter : (quota : UInt32) → (made : Nat) → Limiter

/-- The limiter of an account, with the limit that it was made for.  There is none for a limit of
zero, under which nothing passes. -/
structure AccountLimiter where
  limit : UInt32
  limiter : Option Limiter

/-- The limiters of the accounts that have sent packets under a limit. -/
abbrev Limiters := Dict AccountId AccountLimiter

namespace Governor

/-- A new limiter for an account. -/
def forAccount (g : Governor) (now : Nat) (limit : UInt32) : AccountLimiter :=
  ⟨limit, if limit = 0 then none else some (g.limiter limit now)⟩

/-- The limiter for an account's packets under a limit, a new one if they came under another limit
before. -/
def current (g : Governor) (now : Nat) (limiters : Limiters) (account : AccountId)
    (limit : UInt32) : AccountLimiter :=
  match limiters.get? account with
  | some l => if l.limit = limit then l else g.forAccount now limit
  | none => g.forAccount now limit

/-- Whether one more packet of an account may pass now, and the limiters after that. -/
def acquire (g : Governor) (now : Nat) (limiters : Limiters) (account : AccountId)
    (limit : UInt32) : Bool × Limiters :=
  let l := g.current now limiters account limit
  match l.limiter with
  | none => (false, limiters.insert account l)
  | some s => ((s.check now).1, limiters.insert account { l with limiter := some (s.check now).2 })

end Governor

/-- Packets that may pass at once: so many billionths of a packet there are, at a reading of the
clock. -/
structure Bucket where
  level : Nat
  filled : Nat

namespace Bucket

/-- The billionths of a packet, and the nanoseconds in a second. -/
def billion : Nat := 1000000000

/-- A bucket fills up by its quota each second, and holds no more than that.  A packet that passes
takes its part. -/
def take (quota : UInt32) (now : Nat) (b : Bucket) : Bool × Bucket :=
  let level := min (quota.toNat * billion) (b.level + quota.toNat * (now - b.filled))
  if billion ≤ level then (true, ⟨level - billion, now⟩) else (false, ⟨level, now⟩)

end Bucket

/-- Limiters with buckets that are full when they are made.  The clock counts nanoseconds. -/
def Governor.bucket : Governor where
  limiter quota made := .ofState (Bucket.take quota) ⟨quota.toNat * Bucket.billion, made⟩

end IlpConnector
