import IlpConnector.Proofs.Dict
import IlpConnector.Switch.Basic
import Mathlib.Data.List.DropRight

/-!
# Rate limits over many packets

The switch relies on a governor whose limiters admit, while their clock stands still, as many checks
as their quota says (`Governor.Exact`).

Whether a packet passes then depends only on how many packets of its account have come last under
the same limit (`streak`, `Governor.acquire_eq`).  So over a run of packets under one limit just the
first ones pass, as many as the limit says, and other accounts make no difference
(`Governor.passes_exactly`).
-/

namespace IlpConnector

/-- A packet and the account it comes from. -/
abbrev Arrival := AccountSettings × Prepare

/-! ## Packets that have come under a limit -/

/-- How many of these limits, from the end on, are this one. -/
def streak (n : UInt32) (limits : List UInt32) : ℕ := (limits.rtakeWhile (· = n)).length

theorem streak_concat (n m : UInt32) (limits : List UInt32) :
    streak n (limits ++ [m]) = if m = n then streak n limits + 1 else 0 := by
  unfold streak
  rw [List.rtakeWhile_concat]
  split_ifs <;> simp_all

theorem streak_eq_zero {n : UInt32} {limits : List UInt32} (h : limits.getLast? ≠ some n) :
    streak n limits = 0 := by
  induction limits using List.reverseRecOn with
  | nil => rfl
  | append_singleton limits m =>
    rw [streak_concat, if_neg]
    rintro rfl
    simp at h

namespace Arrival

variable {a : AccountId} {x : Arrival} {xs earlier : List Arrival}

/-- The limit under which a packet of this account comes. -/
def limit? (a : AccountId) (x : Arrival) : Option UInt32 :=
  if x.1.id = a then x.1.maxPacketsPerSecond else none

def limits (a : AccountId) (xs : List Arrival) : List UInt32 := xs.filterMap (limit? a)

theorem limits_cons (a : AccountId) (x : Arrival) (xs : List Arrival) :
    limits a (x :: xs) = (limit? a x).toList ++ limits a xs := by
  rw [limits, List.filterMap_cons]
  cases limit? a x <;> rfl

theorem limits_concat (a : AccountId) (xs : List Arrival) (x : Arrival) :
    limits a (xs ++ [x]) = limits a xs ++ (limit? a x).toList := by
  rw [limits, List.filterMap_append]
  cases hx : limit? a x <;> simp [limits, hx]

theorem limits_filter (a : AccountId) (xs : List Arrival) :
    limits a (xs.filter (·.1.id = a)) = limits a xs := by
  induction xs with
  | nil => rfl
  | cons x xs ih =>
    by_cases hx : x.1.id = a
    · simp_all [limits, List.filterMap_cons]
    · simp_all [limits, limit?]

/-- The packet may pass after these: less packets of its account have come last under its limit than
the limit says. -/
def mayPass (earlier : List Arrival) (x : Arrival) : Bool :=
  x.1.maxPacketsPerSecond.all fun n => streak n (limits x.1.id earlier) < n.toNat

def rulings : List Arrival → List Arrival → List Bool
  | _, [] => []
  | earlier, x :: xs => mayPass earlier x :: rulings (earlier ++ [x]) xs

end Arrival

open Arrival

/-! ## Limiters while the clock stands still -/

namespace Limiter

/-- The limiter after it has been asked so often at one reading. -/
def asked (l : Limiter) (reading : ℕ) : ℕ → Limiter
  | 0 => l
  | k + 1 => ((l.asked reading k).check reading).2

end Limiter

namespace Governor

variable {g : Governor} {reading : ℕ} {a : AccountId} {limiters : Limiters}

/-- A limiter that is made at a reading admits as many checks at it as its quota says, and no
more. -/
def Exact (g : Governor) (reading : ℕ) : Prop :=
  ∀ n k, n ≠ 0 → (((g.limiter n reading).asked reading k).check reading).1 = decide (k < n.toNat)

/-- Which packets pass, one after the other, if the account's limiter is asked about each packet with
a limit. -/
def passes (g : Governor) (reading : ℕ) : Limiters → List Arrival → List Bool
  | _, [] => []
  | limiters, x :: xs =>
    match x.1.maxPacketsPerSecond with
    | none => true :: g.passes reading limiters xs
    | some n => (g.acquire reading limiters x.1.id n).1
        :: g.passes reading (g.acquire reading limiters x.1.id n).2 xs

/-- An account's limiter after so many packets under the limit. -/
def kept (g : Governor) (reading : ℕ) (n : UInt32) (k : ℕ) : AccountLimiter :=
  ⟨n, if n = 0 then none else some ((g.limiter n reading).asked reading k)⟩

theorem acquire_of_current (hg : g.Exact reading) {n : UInt32} {k : ℕ}
    (h : g.current reading limiters a n = g.kept reading n k) :
    g.acquire reading limiters a n
      = (decide (k < n.toNat), limiters.insert a (g.kept reading n (k + 1))) := by
  unfold acquire
  rw [h]
  by_cases hn : n = 0
  · simp [kept, hn]
  · simp [kept, hn, hg n k hn, Limiter.asked]

/-- The limiter that an account has when its packets have come under these limits. -/
def keptFor (g : Governor) (reading : ℕ) (limits : List UInt32) : Option AccountLimiter :=
  limits.getLast?.map fun n => g.kept reading n (streak n limits)

theorem keptFor_concat (limits : List UInt32) (n : UInt32) :
    g.keptFor reading (limits ++ [n]) = some (g.kept reading n (streak n limits + 1)) := by
  simp [keptFor, streak_concat]

/-- Only the packets that have come last under the same limit count against one. -/
theorem acquire_eq (hg : g.Exact reading) {limits : List UInt32}
    (hkept : limiters.get? a = g.keptFor reading limits) (n : UInt32) :
    g.acquire reading limiters a n = (decide (streak n limits < n.toNat),
      limiters.insert a (g.kept reading n (streak n limits + 1))) := by
  refine acquire_of_current hg ?_
  unfold keptFor at hkept
  unfold current
  rw [hkept]
  cases hlast : limits.getLast? with
  | none =>
    rw [streak_eq_zero (by simp [hlast])]
    rfl
  | some m =>
    rw [Option.map_some]
    by_cases hm : m = n
    · subst hm
      exact if_pos rfl
    · have hnone : streak n limits = 0 := streak_eq_zero (by simp [hlast, hm])
      rw [hnone]
      exact if_neg hm

theorem passes_eq_rulings (hg : g.Exact reading) {earlier : List Arrival} (xs : List Arrival)
    (hkept : ∀ a, limiters.get? a = g.keptFor reading (limits a earlier)) :
    g.passes reading limiters xs = rulings earlier xs := by
  induction xs generalizing earlier limiters with
  | nil => rfl
  | cons x xs ih =>
    cases hlimit : x.1.maxPacketsPerSecond with
    | none =>
      simp only [passes, rulings, mayPass, hlimit, Option.all_none]
      refine congrArg (true :: ·) (ih fun a => ?_)
      rw [hkept, limits_concat]
      simp [limit?, hlimit]
    | some n =>
      simp only [passes, rulings, mayPass, hlimit, Option.all_some, acquire_eq hg (hkept x.1.id)]
      refine congrArg (_ :: ·) (ih fun a => ?_)
      rw [limits_concat]
      by_cases ha : x.1.id = a
      · rw [← ha, Dict.get?_insert_self, limit?, if_pos rfl, hlimit]
        exact (keptFor_concat _ n).symm
      · rw [Dict.get?_insert_of_ne _ _ ha, hkept, limit?, if_neg ha]
        simp

end Governor

/-! ## The filter in front of others -/

/-- What is let pass. -/
def admitted {α : Type} (xs : List α) (pass : List Bool) : List α :=
  ((xs.zip pass).filter Prod.snd).map Prod.fst

@[simp] theorem admitted_cons_true {α : Type} (x : α) (xs : List α) (pass : List Bool) :
    admitted (x :: xs) (true :: pass) = x :: admitted xs pass := rfl

@[simp] theorem admitted_cons_false {α : Type} (x : α) (xs : List α) (pass : List Bool) :
    admitted (x :: xs) (false :: pass) = admitted xs pass := rfl

namespace PacketSwitch

variable {g : Governor} {reading : ℕ} {operator : Option Address} {now : Instant}
  {rest : List Filter} {own : Limiters} {behind : List Limiters} {x : Arrival}

/-- Sends packets through the filters, one after the other. -/
def enterAll (g : Governor) (reading : ℕ) (operator : Option Address) (now : Instant)
    (filters : List Filter) : List Arrival → List Limiters → List Entry
  | [], _ => []
  | x :: xs, limiters =>
    let e := enter g reading operator now x.1 x.2 filters limiters
    e :: enterAll g reading operator now filters xs e.limiters

/-- An entry without the limiters of the first filter. -/
def behindFirst (e : Entry) : Entry := { e with limiters := e.limiters.tail }

/-- The filter asks about a packet with a limit, and passes it on to the other filters or refuses
it. -/
theorem enter_rateLimit (n : UInt32) (hlimit : x.1.maxPacketsPerSecond = some n) :
    let asked := g.acquire reading own x.1.id n
    enter g reading operator now x.1 x.2 (.rateLimit :: rest) (own :: behind) =
      if asked.1 then
        let e := enter g reading operator now x.1 x.2 rest behind
        { e with limiters := asked.2 :: e.limiters }
      else ⟨[], some (Filter.tooMany operator), asked.2 :: behind, []⟩ := by
  intro asked
  cases h : (g.acquire reading own x.1.id n).1 <;>
    simp [enter, Filter.screen, hlimit, h, asked]

theorem enter_rateLimit_of_none (hlimit : x.1.maxPacketsPerSecond = none) :
    enter g reading operator now x.1 x.2 (.rateLimit :: rest) (own :: behind) =
      let e := enter g reading operator now x.1 x.2 rest behind
      { e with limiters := own :: e.limiters } := by
  simp [enter, Filter.screen, hlimit]

/-- The packets that pass reach the other filters, with nothing of the others between them, and the
others are refused. -/
structure Screened (g : Governor) (reading : ℕ) (operator : Option Address) (now : Instant)
    (rest : List Filter) (behind : List Limiters) (xs : List Arrival) (pass : List Bool)
    (entries : List Entry) : Prop where
  length : entries.length = xs.length ∧ pass.length = xs.length
  passed : (admitted entries pass).map behindFirst
    = enterAll g reading operator now rest (admitted xs pass) behind
  refused : ∀ e ∈ entries.zip pass, e.2 = false →
    e.1.refusal = some (Filter.tooMany operator) ∧ e.1.guards = [] ∧ e.1.probes = []

section Screened

variable {xs : List Arrival} {pass : List Bool} {entries : List Entry}

theorem Screened.cons_true (own : Limiters)
    (h : Screened g reading operator now rest
      (enter g reading operator now x.1 x.2 rest behind).limiters xs pass entries) :
    let e := enter g reading operator now x.1 x.2 rest behind
    Screened g reading operator now rest behind (x :: xs) (true :: pass)
      ({ e with limiters := own :: e.limiters } :: entries) where
  length := by simp [h.length]
  passed := by simp [h.passed, enterAll, behindFirst]
  refused := by simpa using h.refused

theorem Screened.cons_false (limiters : List Limiters)
    (h : Screened g reading operator now rest behind xs pass entries) :
    Screened g reading operator now rest behind (x :: xs) (false :: pass)
      (⟨[], some (Filter.tooMany operator), limiters, []⟩ :: entries) where
  length := by simp [h.length]
  passed := by simpa using h.passed
  refused := by simpa using h.refused

theorem screened_enterAll (xs : List Arrival) (own : Limiters) (behind : List Limiters) :
    Screened g reading operator now rest behind xs (g.passes reading own xs)
      (enterAll g reading operator now (.rateLimit :: rest) xs (own :: behind)) := by
  induction xs generalizing own behind with
  | nil => exact ⟨⟨rfl, rfl⟩, rfl, nofun⟩
  | cons x xs ih =>
    cases hlimit : x.1.maxPacketsPerSecond with
    | none =>
      simp only [Governor.passes, hlimit, enterAll, enter_rateLimit_of_none hlimit]
      exact (ih _ _).cons_true own
    | some n =>
      simp only [Governor.passes, hlimit, enterAll, enter_rateLimit n hlimit]
      cases (g.acquire reading own x.1.id n).1 with
      | true => exact (ih _ _).cons_true _
      | false => exact (ih _ _).cons_false _

end Screened

end PacketSwitch

/-! ## Packets of one account -/

namespace Arrival

variable {a : AccountId} {x : Arrival} {xs earlier : List Arrival}

/-- The limits of an account's packets, and which of the packets passed. -/
def trace (a : AccountId) (xs : List Arrival) (pass : List Bool) : List (UInt32 × Bool) :=
  (xs.zip pass).filterMap fun x => (limit? a x.1).map fun n => (n, x.2)

/-- Packets come under limits after others. -/
def marks : List UInt32 → List UInt32 → List (UInt32 × Bool)
  | _, [] => []
  | earlier, n :: ns => (n, decide (streak n earlier < n.toNat)) :: marks (earlier ++ [n]) ns

theorem trace_rulings (a : AccountId) (earlier xs : List Arrival) :
    trace a xs (rulings earlier xs) = marks (limits a earlier) (limits a xs) := by
  induction xs generalizing earlier with
  | nil => rfl
  | cons x xs ih =>
    have hrest := ih (earlier ++ [x])
    rw [limits_concat] at hrest
    unfold trace at hrest ⊢
    rw [rulings, List.zip_cons_cons, List.filterMap_cons, hrest, limits_cons]
    by_cases ha : x.1.id = a
    · cases hlimit : x.1.maxPacketsPerSecond <;> simp [limit?, mayPass, marks, ha, hlimit]
    · simp [limit?, ha]

theorem pass_of_no_limit (earlier xs : List Arrival) :
    ∀ x ∈ xs.zip (rulings earlier xs), x.1.1.maxPacketsPerSecond = none → x.2 = true := by
  induction xs generalizing earlier with
  | nil => simp
  | cons x xs ih =>
    rw [rulings, List.zip_cons_cons, List.forall_mem_cons]
    exact ⟨fun hnone => by rw [mayPass, hnone]; rfl, ih _⟩

theorem marks_append (earlier ns ms : List UInt32) :
    marks earlier (ns ++ ms) = marks earlier ns ++ marks (earlier ++ ns) ms := by
  induction ns generalizing earlier with
  | nil => simp [marks]
  | cons n ns ih => simp [marks, ih]

theorem map_fst_marks (earlier ns : List UInt32) : (marks earlier ns).map Prod.fst = ns := by
  induction ns generalizing earlier with
  | nil => rfl
  | cons n ns ih => simp [marks, ih]

theorem length_marks (earlier ns : List UInt32) : (marks earlier ns).length = ns.length := by
  rw [← List.length_map, map_fst_marks]

/-- Of packets under one limit the first ones pass, as many as are left of it. -/
theorem map_snd_marks_replicate (n : UInt32) (k : ℕ) (earlier : List UInt32) :
    (marks earlier (List.replicate k n)).map Prod.snd =
      List.replicate (min (n.toNat - streak n earlier) k) true
        ++ List.replicate (k - (n.toNat - streak n earlier)) false := by
  induction k generalizing earlier with
  | zero => simp [marks]
  | succ k ih =>
    rw [List.replicate_succ, marks, List.map_cons, ih, streak_concat, if_pos rfl]
    by_cases hlt : streak n earlier < n.toNat
    · obtain ⟨left, hleft⟩ : ∃ left, n.toNat - streak n earlier = left + 1 :=
        ⟨n.toNat - (streak n earlier + 1), by omega⟩
      have hnext : n.toNat - (streak n earlier + 1) = left := by omega
      rw [decide_eq_true hlt, hleft, hnext, Nat.add_min_add_right, List.replicate_succ,
        Nat.add_sub_add_right]
      rfl
    · have hleft : n.toNat - streak n earlier = 0 := by omega
      have hnext : n.toNat - (streak n earlier + 1) = 0 := by omega
      rw [decide_eq_false hlt, hleft, hnext]
      simp [List.replicate_succ]

/-- The decisions about an account's packets do not depend on those of others. -/
theorem filter_zip_rulings (a : AccountId) (earlier xs : List Arrival) :
    (xs.zip (rulings earlier xs)).filter (·.1.1.id = a)
      = (xs.filter (·.1.id = a)).zip
          (rulings (earlier.filter (·.1.id = a)) (xs.filter (·.1.id = a))) := by
  induction xs generalizing earlier with
  | nil => rfl
  | cons x xs ih =>
    have hrest := ih (earlier ++ [x])
    rw [List.filter_append] at hrest
    by_cases hx : x.1.id = a
    · have hsame : mayPass (earlier.filter (·.1.id = a)) x = mayPass earlier x := by
        unfold mayPass
        rw [hx, limits_filter]
      simp_all [rulings]
    · simp_all [rulings]

/-- Over a run of an account's packets under one limit, before which there was another one or none,
just the first packets pass, as many as the limit says. -/
theorem trace_run {xs : List Arrival} {a : AccountId} {n : UInt32}
    {before run after : List (UInt32 × Bool)}
    (htrace : trace a xs (rulings [] xs) = before ++ run ++ after) (hrun : ∀ x ∈ run, x.1 = n)
    (hbefore : (before.map Prod.fst).getLast? ≠ some n) :
    run.map Prod.snd = List.replicate (min n.toNat run.length) true
      ++ List.replicate (run.length - n.toNat) false := by
  rw [trace_rulings, show limits a [] = [] from rfl] at htrace
  have hlimits : limits a xs = before.map Prod.fst ++ run.map Prod.fst ++ after.map Prod.fst := by
    rw [← map_fst_marks [] (limits a xs), htrace, List.map_append, List.map_append]
  have hsame : run.map Prod.fst = List.replicate run.length n :=
    List.eq_replicate_iff.mpr ⟨List.length_map .., List.forall_mem_map.mpr hrun⟩
  rw [hlimits, marks_append, marks_append, hsame, List.nil_append] at htrace
  have hfront := (List.append_inj_left htrace (by simp [length_marks]))
  have hmarks : marks (before.map Prod.fst) (List.replicate run.length n) = run :=
    List.append_inj_right hfront (by simp [length_marks])
  -- no packet before the run counts under its limit
  have hruled := map_snd_marks_replicate n run.length (before.map Prod.fst)
  rwa [hmarks, streak_eq_zero hbefore, Nat.sub_zero] at hruled

end Arrival

namespace Governor

variable {g : Governor} {reading : ℕ}

/-- What becomes of packets that come one after the other while the clock stands still, from
whatever accounts and under whatever limits, with whatever filters behind and with any governor whose
limiters admit as many checks as their quota says.

Those that pass reach the other filters, which see nothing of the others; these are refused as too
many.  Over a run of packets of one account under one limit, just the first ones pass, as many as
the limit says, and another limit starts another run.  Packets without a limit pass, and are no part
of any run.  Whether a packet passes is the same if only its own account sends packets. -/
theorem passes_exactly (hg : g.Exact reading) (operator : Option Address) (now : Instant)
    (rest : List Filter) (behind : List Limiters) (xs : List Arrival) :
    let pass := g.passes reading ∅ xs
    PacketSwitch.Screened g reading operator now rest behind xs pass
      (PacketSwitch.enterAll g reading operator now (.rateLimit :: rest) xs (∅ :: behind)) ∧
    (∀ a n before run after, trace a xs pass = before ++ run ++ after → (∀ x ∈ run, x.1 = n) →
      (before.map Prod.fst).getLast? ≠ some n →
      run.map Prod.snd = List.replicate (min n.toNat run.length) true
        ++ List.replicate (run.length - n.toNat) false) ∧
    (∀ x ∈ xs.zip pass, x.1.1.maxPacketsPerSecond = none → x.2 = true) ∧
    ∀ a, (xs.zip pass).filter (·.1.1.id = a)
      = (xs.filter (·.1.id = a)).zip (g.passes reading ∅ (xs.filter (·.1.id = a))) := by
  intro pass
  have hpass : ∀ xs, g.passes reading ∅ xs = rulings [] xs :=
    fun xs => passes_eq_rulings hg xs fun _ => rfl
  refine ⟨PacketSwitch.screened_enterAll xs ∅ behind, ?_, ?_, fun a => ?_⟩
  · rw [show pass = rulings [] xs from hpass xs]
    exact fun a n before run after => trace_run
  · rw [show pass = rulings [] xs from hpass xs]
    exact pass_of_no_limit [] xs
  · rw [show pass = rulings [] xs from hpass xs, filter_zip_rulings, hpass]
    rfl

/-! ### Two accounts at once -/

/-- While the clock stands still, each check takes one packet from the bucket, up to the last. -/
theorem take_bucket (quota : UInt32) (k reading : ℕ) :
    Bucket.take quota reading ⟨(quota.toNat - k) * Bucket.billion, reading⟩ =
      (decide (k < quota.toNat), ⟨(quota.toNat - (k + 1)) * Bucket.billion, reading⟩) := by
  have hlevel : min (quota.toNat * Bucket.billion) ((quota.toNat - k) * Bucket.billion
      + quota.toNat * (reading - reading)) = (quota.toNat - k) * Bucket.billion := by
    rw [Nat.sub_self, Nat.mul_zero, Nat.add_zero]
    exact Nat.min_eq_right (Nat.mul_le_mul_right _ (Nat.sub_le _ _))
  unfold Bucket.take
  dsimp only
  rw [hlevel, ← Nat.sub_one_mul, Nat.sub_sub]
  by_cases hk : k < quota.toNat
  · rw [if_pos (Nat.le_mul_of_pos_left _ (Nat.sub_pos_of_lt hk)), decide_eq_true hk]
  · have hnone : quota.toNat - k = 0 := Nat.sub_eq_zero_of_le (Nat.le_of_not_lt hk)
    have hnone' : quota.toNat - (k + 1) = 0 := by omega
    rw [hnone, hnone', if_neg (by decide), decide_eq_false hk]

theorem asked_bucket (quota : UInt32) (reading k : ℕ) :
    (bucket.limiter quota reading).asked reading k = .ofState (Bucket.take quota)
      ⟨(quota.toNat - k) * Bucket.billion, reading⟩ := by
  induction k with
  | zero => rfl
  | succ k ih => rw [Limiter.asked, ih, Limiter.check_ofState, take_bucket]

theorem exact_bucket (reading : ℕ) : bucket.Exact reading := by
  intro n k _
  rw [asked_bucket, Limiter.check_ofState, take_bucket]

-- Of two packets a second, the third one at once is too many, but not one more after 600 ms.
example : (bucket.limiter 2 0).admits [0, 0] 0 = false := by decide
example : (bucket.limiter 2 0).admits [0, 0, 0] 600000000 = true := by decide

namespace Rush

def packet (id : AccountId) (limit : Option UInt32) : Arrival :=
  ({ AccountSettings.plain id .peer .loopback with maxPacketsPerSecond := limit },
    ⟨10, ⟨0⟩, Octets.replicate 32 1, ⟨"test.carol", by decide +kernel⟩, []⟩)

def heavy : AccountId := ⟨"heavy", by decide +kernel⟩

def light : AccountId := ⟨"light", by decide +kernel⟩

def packets : List Arrival :=
  [packet heavy (some 2), packet light (some 1), packet heavy (some 2), packet heavy none,
    packet light (some 0), packet heavy (some 2), packet heavy (some 1)]

end Rush

open Rush

/-- Of the first three packets of one account under the limit of two the last one is refused,
whatever comes from the other account, and a new limit lets the next one pass. -/
theorem passes_exactly_rush :
    let run : List (UInt32 × Bool) := [(2, true), (2, true), (2, false)]
    let pass := bucket.passes 5 ∅ packets
    bucket.Exact 5 ∧
      PacketSwitch.Screened bucket 5 none ⟨0⟩ [] [] packets pass
        (PacketSwitch.enterAll bucket 5 none ⟨0⟩ [.rateLimit] packets [∅]) ∧
      trace heavy packets pass = [] ++ run ++ [(1, true)] ∧
      run.map Prod.snd = List.replicate (min (2 : UInt32).toNat run.length) true
        ++ List.replicate (run.length - (2 : UInt32).toNat) false := by
  intro run pass
  obtain ⟨hscreened, hrun, -⟩ := passes_exactly (exact_bucket 5) none ⟨0⟩ [] [] packets
  have htrace : trace heavy packets pass = [] ++ run ++ [(1, true)] := by decide +kernel
  exact ⟨exact_bucket 5, hscreened, htrace,
    hrun heavy 2 [] run [(1, true)] htrace (by simp [run]) (by simp)⟩

end Governor

end IlpConnector
