import IlpConnector.Proofs.PacketCodec
import IlpConnector.Switch.Basic

/-!
# The usual filters of the switch

The filters refuse a packet for the first check that it fails, in the order of the filters, and the
packets that fail none are those that may pass (`PacketSwitch.firstFailure_eq_none_iff`).  Each
filter puts its check before those of the filters behind it, so the decision about a packet is built
from the innermost filter on (`PacketSwitch.decided_usual`).
-/

namespace IlpConnector

/-- One more packet of an account may pass under a limit, as far as its limiter goes. -/
def Governor.admits (g : Governor) (reading : ℕ) (limiters : Limiters) (account : AccountId)
    (limit : UInt32) : Bool :=
  (g.acquire reading limiters account limit).1

namespace PacketSwitch

/-- The first check that a packet fails, if it fails one: its account has to be known, its time must
not be up, it must be admitted under the limit of its account, and its amount must not be too
large. -/
def firstFailure (admits : AccountId → UInt32 → Bool) (found : Option AccountSettings)
    (now : Instant) (p : Prepare) : Option ErrorCode :=
  match found with
  | none => some .badRequest
  | some source =>
    if p.expiresAt ≤ now then some .insufficientTimeout
    else if source.maxPacketsPerSecond.any fun limit => !admits source.id limit then
      some .rateLimited
    else if source.maximumPacketAmount.any (· < p.amount) then some .amountTooLarge
    else none

/-- A packet that may pass the switch: its time is not up, it is admitted under the limit of its
account, and its amount is not too large. -/
structure MayPass (admits : AccountId → UInt32 → Bool) (source : AccountSettings) (now : Instant)
    (p : Prepare) : Prop where
  inTime : now < p.expiresAt
  admitted : ∀ limit, source.maxPacketsPerSecond = some limit → admits source.id limit = true
  notTooLarge : ∀ maximum, source.maximumPacketAmount = some maximum → p.amount ≤ maximum

theorem firstFailure_eq_none_iff {admits : AccountId → UInt32 → Bool}
    {found : Option AccountSettings} {now : Instant} {p : Prepare} :
    firstFailure admits found now p = none ↔
      ∃ source, found = some source ∧ MayPass admits source now p := by
  cases found with
  | none => simp [firstFailure]
  | some source =>
    have hlate : p.expiresAt ≤ now ↔ ¬ now < p.expiresAt := Int.not_lt.symm
    have hmany : (source.maxPacketsPerSecond.any fun limit => !admits source.id limit) = true ↔
        ¬ ∀ limit, source.maxPacketsPerSecond = some limit → admits source.id limit = true := by
      cases source.maxPacketsPerSecond <;> simp
    have hlarge : source.maximumPacketAmount.any (· < p.amount) = true ↔
        ¬ ∀ maximum, source.maximumPacketAmount = some maximum → p.amount ≤ maximum := by
      cases source.maximumPacketAmount <;> simp
    simp only [firstFailure, hlate, hmany, hlarge, Option.some.injEq, exists_eq_left']
    constructor
    · intro h
      split_ifs at h with h₁ h₂ h₃
      exact ⟨h₁, h₂, h₃⟩
    · rintro ⟨h₁, h₂, h₃⟩
      rw [if_neg (not_not.mpr h₁), if_neg (not_not.mpr h₂), if_neg (not_not.mpr h₃)]

/-- A refusal of a packet for this reason.  One for too large an amount tells the amount and the
largest one that is accepted. -/
structure RefusedFor (found : Option AccountSettings) (p : Prepare) (code : ErrorCode)
    (r : Reject) : Prop where
  told : r.code = code
  amounts : code = .amountTooLarge → ∃ source maximum, found = some source ∧
    source.maximumPacketAmount = some maximum ∧ AmountLimit.decode r.data = .ok ⟨p.amount, maximum⟩

/-- The filters have refused a packet for the check that it fails, or have let it pass and left
guards behind. -/
structure Decided (source : AccountSettings) (p : Prepare) (e : Entry) (failure : Option ErrorCode)
    (guards : List Guard) : Prop where
  unprobed : e.probes = []
  refused : ∀ code, failure = some code →
    ∃ r, e.refusal = some r ∧ RefusedFor (some source) p code r
  passed : failure = none → e.refusal = none ∧ e.guards = guards

variable {g : Governor} {reading : ℕ} {operator : Option Address} {now : Instant}
  {source : AccountSettings} {p : Prepare} {limiters : List Limiters} {own : Limiters} {f : Filter}
  {rest : List Filter} {guards : List Guard} {failure : Option ErrorCode}

theorem decided_of_refused {code : ErrorCode} {r : Reject}
    (h : f.screen g reading operator now source (limiters.headD ∅) p = (.refused r, own))
    (hr : RefusedFor (some source) p code r) :
    Decided source p (enter g reading operator now source p (f :: rest) limiters) (some code)
      guards := by
  simp only [enter, h]
  refine ⟨rfl, ?_, nofun⟩
  rintro _ ⟨⟩
  exact ⟨r, rfl, hr⟩

theorem decided_of_passed {guard : Option Guard} (hf : ∀ name, f ≠ .probe name)
    (h : f.screen g reading operator now source (limiters.headD ∅) p = (.passed guard, own))
    (hrest : Decided source p (enter g reading operator now source p rest limiters.tail) failure
      guards) :
    Decided source p (enter g reading operator now source p (f :: rest) limiters) failure
      (guard.toList ++ guards) := by
  simp only [enter, h]
  refine ⟨?_, hrest.refused, fun hnone => ?_⟩
  · cases f with
    | probe name => exact absurd rfl (hf name)
    | _ => exact hrest.unprobed
  · obtain ⟨hrefusal, hguards⟩ := hrest.passed hnone
    exact ⟨hrefusal, congrArg (guard.toList ++ ·) hguards⟩

theorem RefusedFor.plain {found : Option AccountSettings} {code : ErrorCode} {r : Reject}
    (hne : code ≠ .amountTooLarge) (h : r.code = code) : RefusedFor found p code r :=
  ⟨h, fun h => absurd h hne⟩

theorem refusedFor_tooLarge {maximum : UInt64} (h : source.maximumPacketAmount = some maximum) :
    RefusedFor (some source) p .amountTooLarge (Filter.tooLarge operator p.amount maximum) :=
  ⟨rfl, fun _ => ⟨source, maximum, rfl, h, AmountLimit.decode_encode _⟩⟩

theorem decided_nil :
    Decided source p (enter g reading operator now source p [] limiters) none [] where
  unprobed := rfl
  refused _ h := by cases h
  passed _ := ⟨rfl, rfl⟩

theorem decided_fulfillment
    (hrest : Decided source p (enter g reading operator now source p rest limiters.tail) failure
      guards) :
    Decided source p (enter g reading operator now source p (.fulfillment :: rest) limiters) failure
      (.condition p.condition :: guards) :=
  decided_of_passed (f := .fulfillment) (by simp) rfl hrest

theorem decided_maximumAmount
    (hrest : Decided source p (enter g reading operator now source p rest limiters.tail) failure
      guards) :
    Decided source p (enter g reading operator now source p (.maximumAmount :: rest) limiters)
      (if source.maximumPacketAmount.any (· < p.amount) then some .amountTooLarge else failure)
      guards := by
  cases hmaximum : source.maximumPacketAmount with
  | none =>
    have hscreen : Filter.screen g reading operator now source (limiters.headD ∅) p .maximumAmount
        = (.passed none, limiters.headD ∅) := by
      rw [Filter.screen, hmaximum]
    exact decided_of_passed (by simp) hscreen hrest
  | some maximum =>
    by_cases hlt : maximum < p.amount
    · have hscreen : Filter.screen g reading operator now source (limiters.headD ∅) p .maximumAmount
          = (.refused (Filter.tooLarge operator p.amount maximum), limiters.headD ∅) := by
        rw [Filter.screen, hmaximum]
        exact if_pos hlt
      rw [if_pos (by simpa using hlt)]
      exact decided_of_refused hscreen (refusedFor_tooLarge hmaximum)
    · have hscreen : Filter.screen g reading operator now source (limiters.headD ∅) p .maximumAmount
          = (.passed none, limiters.headD ∅) := by
        rw [Filter.screen, hmaximum]
        exact if_neg hlt
      rw [if_neg (by simpa using hlt)]
      exact decided_of_passed (by simp) hscreen hrest

theorem decided_rateLimit
    (hrest : Decided source p (enter g reading operator now source p rest limiters.tail) failure
      guards) :
    Decided source p (enter g reading operator now source p (.rateLimit :: rest) limiters)
      (if source.maxPacketsPerSecond.any
          fun limit => !g.admits reading (limiters.headD ∅) source.id limit
        then some .rateLimited else failure) guards := by
  unfold Governor.admits
  cases hlimit : source.maxPacketsPerSecond with
  | none =>
    have hscreen : Filter.screen g reading operator now source (limiters.headD ∅) p .rateLimit
        = (.passed none, limiters.headD ∅) := by
      rw [Filter.screen, hlimit]
    exact decided_of_passed (by simp) hscreen hrest
  | some limit =>
    have hscreen : Filter.screen g reading operator now source (limiters.headD ∅) p .rateLimit
        = (if (g.acquire reading (limiters.headD ∅) source.id limit).1 then .passed none
            else .refused (Filter.tooMany operator),
          (g.acquire reading (limiters.headD ∅) source.id limit).2) := by
      rw [Filter.screen, hlimit]
    cases hadmitted : (g.acquire reading (limiters.headD ∅) source.id limit).1 with
    | true =>
      rw [hadmitted] at hscreen
      rw [if_neg (by rw [Option.any_some, hadmitted]; simp)]
      exact decided_of_passed (by simp) hscreen hrest
    | false =>
      rw [hadmitted] at hscreen
      rw [if_pos (by rw [Option.any_some, hadmitted]; rfl)]
      exact decided_of_refused hscreen (.plain (by decide) rfl)

theorem decided_expiry
    (hrest : Decided source p (enter g reading operator now source p rest limiters.tail) failure
      guards) :
    Decided source p (enter g reading operator now source p (.expiry :: rest) limiters)
      (if p.expiresAt ≤ now then some .insufficientTimeout else failure)
      (.deadline (p.expiresAt.nanos - now.nanos).toNat :: guards) := by
  by_cases hexpired : p.expiresAt ≤ now
  · rw [if_pos hexpired]
    have hscreen : Filter.screen g reading operator now source (limiters.headD ∅) p .expiry
        = (.refused (Filter.tooLate operator), limiters.headD ∅) := if_pos hexpired
    exact decided_of_refused hscreen (.plain (by decide) rfl)
  · rw [if_neg hexpired]
    have hscreen : Filter.screen g reading operator now source (limiters.headD ∅) p .expiry
        = (.passed (some (.deadline (p.expiresAt.nanos - now.nanos).toNat)), limiters.headD ∅) :=
      if_neg hexpired
    exact decided_of_passed (by simp) hscreen hrest

/-- The usual filters refuse a packet for the first check that it fails; a packet that fails none
leaves a deadline behind, and the condition within it. -/
theorem decided_usual (g : Governor) (reading : ℕ) (operator : Option Address) (now : Instant)
    (source : AccountSettings) (p : Prepare) (limiters : List Limiters) :
    Decided source p (enter g reading operator now source p Filter.usual limiters)
      (firstFailure (g.admits reading (limiters.tail.headD ∅)) (some source) now p)
      [.deadline (p.expiresAt.nanos - now.nanos).toNat, .condition p.condition] :=
  decided_expiry (decided_rateLimit (decided_maximumAmount (decided_fulfillment decided_nil)))

end PacketSwitch

end IlpConnector
