import IlpConnector.Proofs.Provenance
import IlpConnector.Proofs.Reregistration
import IlpConnector.Proofs.TableHistory

/-!
# What a neighbour is told

The policy (`Sender.Allows`) is that a neighbour is told of routes to known children alone, never of
its own, and of nothing if it is a parent.  An update tells the last change of each prefix, and
follows the policy but for routes to accounts that are not known any more (`Sender.Overlooks`), which
are offered as well (`Sender.told_of_run`).
-/

namespace IlpConnector

namespace Sender

variable {s : Sender} {accounts : AccountStore} {r : Route} {p : AddressPrefix}
  {changes : List RouteChange} {t : ForwardingTable} {a : Announcement}

/-! ## The policy -/

structure Allows (s : Sender) (accounts : AccountStore) (r : Route) : Prop where
  other : r.nextHop ≠ s.peer
  noParent : ∀ p, accounts.get? s.peer = some p → p.relationship ≠ .parent
  child : ∃ c, accounts.get? r.nextHop = some c ∧ c.relationship = .child

/-- The policy would allow the route, if only its next hop were a known child. -/
structure Overlooks (s : Sender) (accounts : AccountStore) (r : Route) : Prop where
  other : r.nextHop ≠ s.peer
  noParent : ∀ p, accounts.get? s.peer = some p → p.relationship ≠ .parent
  unknown : accounts.get? r.nextHop = none

theorem Allows.not_overlooks (h : s.Allows accounts r) : ¬ s.Overlooks accounts r := by
  rintro ⟨-, -, hnone⟩
  obtain ⟨c, hc, -⟩ := h.child
  simp [hnone] at hc

theorem mayOffer_iff_allows :
    s.mayOffer accounts r = true ↔ s.Allows accounts r ∨ s.Overlooks accounts r := by
  rw [mayOffer_iff]
  constructor
  · rintro ⟨hother, hparent, hchild⟩
    cases hget : accounts.get? r.nextHop with
    | none => exact Or.inr ⟨hother, hparent, hget⟩
    | some c => exact Or.inl ⟨hother, hparent, c, hget, hchild c hget⟩
  · rintro (⟨hother, hparent, c, hget, hc⟩ | ⟨hother, hparent, hnone⟩)
    · refine ⟨hother, hparent, fun c' hc' => ?_⟩
      rw [hget, Option.some.injEq] at hc'
      exact hc' ▸ hc
    · exact ⟨hother, hparent, by simp [hnone]⟩

/-! ## Updates -/

theorem outcomes_eq_route_iff : (s.outcomes accounts changes).get? p = some (some r) ↔
    RouteChange.last? p changes = some (some r) ∧ s.mayOffer accounts r = true := by
  rw [get?_outcomes]
  simp only [Option.map_eq_some_iff, Option.filter_eq_some_iff]
  constructor
  · rintro ⟨_, hlast, rfl, hmay⟩
    exact ⟨hlast, hmay⟩
  · rintro ⟨hlast, hmay⟩
    exact ⟨_, hlast, rfl, hmay⟩

/-- What is offered is the last change of its prefix. -/
theorem mem_offers_iff (hlogs : ForwardingTable.Logs (fun _ => True) changes) :
    a ∈ offers (s.outcomes accounts changes) ↔
      ∃ r, RouteChange.last? a.target changes = some (some r) ∧ offerOf r = a ∧
        (s.Allows accounts r ∨ s.Overlooks accounts r) := by
  simp only [mem_offers_outcomes hlogs, outcomes_eq_route_iff, mayOffer_iff_allows, and_assoc]
  exact exists_congr fun r => and_congr_right fun _ => and_comm

/-- What has changed is offered or withdrawn. -/
theorem mem_withdrawals_iff (hlogs : ForwardingTable.Logs (fun _ => True) changes) :
    p ∈ withdrawals (s.outcomes accounts changes) ↔ (∃ c ∈ changes, c.target = p) ∧
      ∀ a ∈ offers (s.outcomes accounts changes), a.target ≠ p := by
  have hchanged : (∃ c ∈ changes, c.target = p) ↔
      ∃ o, (s.outcomes accounts changes).get? p = some o := by
    have hlast : (∃ c ∈ changes, c.target = p) ↔ RouteChange.last? p changes ≠ none := by
      rw [ne_eq, RouteChange.last?_eq_none_iff]
      simp
    rw [hlast, get?_outcomes, Option.ne_none_iff_exists']
    simp
  have hoffered : (∀ a ∈ offers (s.outcomes accounts changes), a.target ≠ p) ↔
      ∀ r, (s.outcomes accounts changes).get? p ≠ some (some r) := by
    simp only [mem_offers_outcomes hlogs]
    constructor
    · intro h r hr
      have htarget : r.target = p := (of_get?_outcomes hlogs hr).2.1
      exact h (offerOf r) ⟨r, by rwa [offerOf, htarget], rfl⟩ htarget
    · rintro h a ⟨r, hr, -⟩ rfl
      exact h r hr
  rw [mem_withdrawals, hchanged, hoffered]
  cases (s.outcomes accounts changes).get? p with
  | none => simp
  | some o => cases o <;> simp

/-- An update follows the policy, just if no last change is a route that is overlooked. -/
theorem allows_iff (hlogs : ForwardingTable.Logs (fun _ => True) changes) :
    (∀ a ∈ offers (s.outcomes accounts changes), ∃ r,
        RouteChange.last? a.target changes = some (some r) ∧ offerOf r = a ∧
          s.Allows accounts r) ↔
      ∀ p r, RouteChange.last? p changes = some (some r) → ¬ s.Overlooks accounts r := by
  simp only [mem_offers_iff hlogs]
  constructor
  · intro h p r hlast hover
    obtain ⟨c, hc, htarget, hroute⟩ := RouteChange.mem_of_last? hlast
    have hp : r.target = p := (hlogs c hc r hroute).1.trans htarget
    have hlast' : RouteChange.last? (offerOf r).target changes = some (some r) := by
      rwa [offerOf, hp]
    obtain ⟨r', hr', -, hallows⟩ := h (offerOf r) ⟨r, hlast', rfl, Or.inr hover⟩
    rw [hlast', Option.some.injEq, Option.some.injEq] at hr'
    exact (hr' ▸ hallows).not_overlooks hover
  · rintro h a ⟨r, hlast, ha, hallows | hover⟩
    · exact ⟨r, hlast, ha, hallows⟩
    · exact absurd hover (h _ r hlast)

end Sender

theorem ForwardingTable.Recorded.logs_changesFrom {t : ForwardingTable} (h : t.Recorded)
    (first max : UInt32) : Logs (fun _ => True) (t.changesFrom first max) :=
  fun c hc r hr => ⟨h.targets c (List.mem_of_mem_drop (List.mem_of_mem_take hc)) r hr, trivial⟩

/-- For every history of the table, all that is known of the accounts, and every neighbour: an
update offers the last change of each prefix if the policy allows it or the next hop is not known,
and withdraws every other prefix of the changes it tells.  So the policy is followed just if none of
them leads to an account that is not known. -/
theorem Sender.told_of_run (id : TableId) (os : List TableOperation) (s : Sender)
    (accounts : AccountStore) (settings : RoutingSettings) (operator : Option Address) :
    let t := TableOperation.run os (.fresh id)
    let u := (s.nextUpdate t accounts settings operator).1
    let changes := t.changesFrom u.fromEpoch settings.maxEpochs
    u.fromEpoch = s.nextEpoch ∧ u.toEpoch = u.fromEpoch + .ofNat changes.length ∧
      (∀ a, a ∈ u.announced ↔ ∃ r, RouteChange.last? a.target changes = some (some r) ∧
        offerOf r = a ∧ (s.Allows accounts r ∨ s.Overlooks accounts r)) ∧
      (∀ p, p ∈ u.withdrawn ↔
        (∃ c ∈ changes, c.target = p) ∧ ∀ a ∈ u.announced, a.target ≠ p) ∧
      ((∀ a ∈ u.announced, ∃ r, RouteChange.last? a.target changes = some (some r) ∧
          offerOf r = a ∧ s.Allows accounts r) ↔
        ∀ p r, RouteChange.last? p changes = some (some r) → ¬ s.Overlooks accounts r) := by
  intro t u changes
  have ht : t.Recorded := TableOperation.recorded_run (ForwardingTable.recorded_fresh id) os
  have hlogs := ht.logs_changesFrom u.fromEpoch settings.maxEpochs
  exact ⟨rfl, rfl, fun _ => mem_offers_iff hlogs, fun _ => mem_withdrawals_iff hlogs,
    allows_iff hlogs⟩

/-! ### A neighbour that was removed -/

namespace Removal

open Broadcaster.Comeback

/-- The neighbours that are known: of two, one has been removed. -/
def remaining : AccountStore := (AccountStore.ofAccounts [near, far]).erase far.id

/-- The way to a prefix over the neighbour that was removed. -/
def stale : Route := ⟨shared, far.id, Octets.replicate 32 0, []⟩

end Removal

open Removal Broadcaster.Comeback in
/-- The route over a peer that was removed from the accounts is offered to another peer. -/
theorem Sender.removed_peer_told :
    ∃ (id : TableId) (os : List TableOperation) (s : Sender) (accounts : AccountStore)
      (settings : RoutingSettings),
      let t := TableOperation.run os (.fresh id)
      let u := (s.nextUpdate t accounts settings none).1
      ∃ a ∈ u.announced, ¬ ∃ r, RouteChange.last? a.target
          (t.changesFrom u.fromEpoch settings.maxEpochs) = some (some r) ∧ offerOf r = a ∧
        r.nextHop ≠ s.peer ∧ (∃ c, accounts.get? r.nextHop = some c ∧ c.relationship = .child) ∧
        ∀ p, accounts.get? s.peer = some p → p.relationship ≠ .parent := by
  refine ⟨.plain 0, [.set stale], { peer := near.id, link := ⟨0⟩, serial := 0 }, remaining, {},
    offerOf stale, by decide +kernel, ?_⟩
  rintro ⟨r, hlast, -, -, ⟨c, hc, -⟩, -⟩
  have hstale : RouteChange.last? (offerOf stale).target
      ((TableOperation.run [.set stale] (.fresh (.plain 0))).changesFrom 0
        ({} : RoutingSettings).maxEpochs) = some (some stale) := by
    decide +kernel
  have hr : stale = r := by simpa using hstale.symm.trans hlast
  have hgone : remaining.get? stale.nextHop = none := Dict.get?_erase_self _ _
  rw [← hr, hgone] at hc
  cases hc

end IlpConnector
