import IlpConnector.Proofs.Delivery
import IlpConnector.Routing.ForwardingTable
import IlpConnector.Routing.StaticTable

/-!
# Packets without a route

The resolvers are asked in order, and only then is it seen whether the account that the first answer
names is the one that the packet came from.  So a packet is refused as unreachable if no resolver
names another account, and also if one does but an earlier one leads back (`Router.Hides`).

The refusal is given before any link has the packet.  Later on a packet is only unreachable if the
neighbour itself has answered so.
-/

namespace IlpConnector

namespace Router

variable {κ : Type} {r : Router κ} {connected : κ → Bool} {operator : Option Address}
  {source : AccountSettings} {p : Prepare} {destination : Address} {account next : AccountId}

/-- Some resolver names an account other than this one. -/
def Passes (r : Router κ) (destination : Address) (account : AccountId) : Prop :=
  ∃ resolver ∈ r.resolvers, ∃ next, resolver destination = some next ∧ next ≠ account

/-- The first resolver with an answer names this account, and a later one names another. -/
def Hides (r : Router κ) (destination : Address) (account : AccountId) : Prop :=
  ∃ before resolver after, r.resolvers = before ++ resolver :: after ∧
    (∀ earlier ∈ before, earlier destination = none) ∧ resolver destination = some account ∧
    ∃ later ∈ after, ∃ next, later destination = some next ∧ next ≠ account

theorem Leads.passes (h : r.Leads destination next) (hne : next ≠ account) :
    r.Passes destination account := by
  obtain ⟨before, resolver, after, hresolvers, -, hnext⟩ := h
  exact ⟨resolver, by simp [hresolvers], next, hnext, hne⟩

/-- Where some resolver has an answer, there is a first one that has. -/
theorem Passes.exists_leads (h : r.Passes destination account) :
    ∃ next, r.Leads destination next := by
  obtain ⟨resolver, hmem, next, hnext, -⟩ := h
  have hsome : (r.nextHop? destination).isSome = true :=
    List.findSome?_isSome_iff.mpr ⟨resolver, hmem, by simp [hnext]⟩
  obtain ⟨first, hfirst⟩ := Option.isSome_iff_exists.mp hsome
  exact ⟨first, nextHop?_eq_some_iff.mp hfirst⟩

theorem hides_iff :
    r.Hides destination account ↔ r.Leads destination account ∧ r.Passes destination account := by
  constructor
  · rintro ⟨before, resolver, after, hresolvers, hbefore, hback, later, hlater, hanother⟩
    exact ⟨⟨before, resolver, after, hresolvers, hbefore, hback⟩,
      later, by simp [hresolvers, hlater], hanother⟩
  · rintro ⟨⟨before, resolver, after, hresolvers, hbefore, hback⟩, later, hmem, next, hnext, hne⟩
    refine ⟨before, resolver, after, hresolvers, hbefore, hback, later, ?_, next, hnext, hne⟩
    rw [hresolvers, List.mem_append, List.mem_cons] at hmem
    rcases hmem with hearlier | rfl | hlater
    · rw [hbefore later hearlier] at hnext
      cases hnext
    · exact absurd (Option.some.inj (hnext.symm.trans hback)) hne
    · exact hlater

theorem forall_leads_iff : (∀ next, r.Leads destination next → next = account) ↔
    ¬ r.Passes destination account ∨ r.Hides destination account := by
  rw [hides_iff]
  constructor
  · intro h
    refine or_iff_not_imp_left.mpr fun hpasses => ?_
    obtain ⟨next, hleads⟩ := (not_not.mp hpasses).exists_leads
    exact ⟨h next hleads ▸ hleads, not_not.mp hpasses⟩
  · rintro (hnot | ⟨hback, -⟩) next hleads
    · exact by_contra fun hne => hnot (hleads.passes hne)
    · exact hleads.unique hback

theorem exists_choose_unreachable_iff :
    (∃ refusal, refusal.code = .unreachable ∧
      r.choose connected operator source p = .error refusal) ↔
      ∀ next, r.Leads p.destination next → next = source.id := by
  by_cases hdelivers : ∃ next link, r.Delivers connected source p next link
  · obtain ⟨next, link, h⟩ := hdelivers
    rw [choose_of_delivers h]
    exact iff_of_false nofun fun hback => h.notBack (hback next h.leads)
  · obtain ⟨refusal, hrefuses, hchoose⟩ : ∃ refusal, r.Refuses operator source p refusal ∧
        r.choose connected operator source p = .error refusal :=
      exists_choose_eq_error fun next link h => hdelivers ⟨next, link, h⟩
    have hcode : refusal.code = .unreachable ↔ ¬ refusal.code = .peerUnreachable := by
      rcases hrefuses.code with h | h <;> rw [h] <;> decide
    simp only [hchoose, Except.error.injEq, exists_eq_right', hcode, hrefuses.code_iff]
    simp only [not_exists, not_and, not_not]

end Router

namespace Scheduler

open Procedure (forwardBy afterSending afterChoice)

variable {program : Procedure → Task Outcome} {router : Network → Router LinkRef}
  {operator : Network → Option Address} {source : AccountSettings} {p : Prepare}
  {next : AccountId} {link : LinkRef} {id : ℕ} {code : ErrorCode} {task : Task Outcome}
  {s : Scheduler Network Procedure Outcome}

/-- The first thing that the task does is to refuse the packet with this code, and it changes
nothing. -/
def RefusesAtOnce (program : Procedure → Task Outcome) (s : Scheduler Network Procedure Outcome)
    (id : ℕ) (task : Task Outcome) (code : ErrorCode) : Prop :=
  ∃ refusal : Reject, refusal.code = code ∧
    s.move program id task = (s, some (.done (.replied (.rejected refusal))))

theorem move_forwardBy : s.move program id (forwardBy router operator source p)
    = (s, some (afterChoice operator p
      ((router s.state).choose s.state.isConnected (operator s.state) source p))) := by
  rw [Procedure.forwardBy_eq]
  rfl

theorem refusesAtOnce_forwardBy_iff :
    RefusesAtOnce program s id (forwardBy router operator source p) code ↔
      ∃ refusal, refusal.code = code ∧
        (router s.state).choose s.state.isConnected (operator s.state) source p
          = .error refusal := by
  unfold RefusesAtOnce
  rw [move_forwardBy]
  refine exists_congr fun refusal => and_congr_right fun _ => ?_
  rcases (router s.state).choose s.state.isConnected (operator s.state) source p with
    refusal' | ⟨next, link⟩ <;> simp [afterChoice]

theorem done_or_refusesAtOnce (o : Outcome) :
    afterSending operator next o = .done o ∨
      RefusesAtOnce program s id (afterSending operator next o) .peerUnreachable := by
  cases o with
  | linkFailed e => exact Or.inr ⟨_, rfl, rfl⟩
  | _ => exact Or.inl rfl

/-- When a packet is refused for want of a route, whatever the resolvers answer and whatever links
there are: if no resolver names another account than it came from, or the first one with an answer
leads back, although a later one names another.

A packet that is not refused so is refused as its neighbour cannot be reached, or it is handed to
the link; and then it is answered as the link answers it, or refused as the neighbour cannot be
reached. -/
theorem unreachable_iff (program : Procedure → Task Outcome) (router : Network → Router LinkRef)
    (operator : Network → Option Address) (source : AccountSettings) (p : Prepare) (id : ℕ)
    (s : Scheduler Network Procedure Outcome) :
    let r := router s.state
    let refused := RefusesAtOnce program s id (forwardBy router operator source p)
    (refused .unreachable ↔
      ¬ r.Passes p.destination source.id ∨ r.Hides p.destination source.id) ∧
    ((refused .unreachable → ¬ r.Passes p.destination source.id) ↔
      ¬ r.Hides p.destination source.id) ∧
    (¬ refused .unreachable → refused .peerUnreachable ∨
      ∃ next link, r.Delivers s.state.isConnected source p next link ∧
        s.move program id (forwardBy router operator source p)
          = (s, some (.call (.send link p) (afterSending operator next)))) ∧
    ∀ (next : AccountId) (o : Outcome) (t : Scheduler Network Procedure Outcome),
      afterSending operator next o = .done o ∨
        RefusesAtOnce program t id (afterSending operator next o) .peerUnreachable := by
  intro r refused
  have hiff : refused .unreachable ↔
      ¬ r.Passes p.destination source.id ∨ r.Hides p.destination source.id := by
    rw [← Router.forall_leads_iff, ← Router.exists_choose_unreachable_iff]
    exact refusesAtOnce_forwardBy_iff
  refine ⟨hiff, ?_, fun hnot => ?_, fun _ o _ => done_or_refusesAtOnce o⟩
  · have hpasses : r.Hides p.destination source.id → r.Passes p.destination source.id := fun h =>
      (Router.hides_iff.mp h).2
    rw [hiff]
    exact ⟨fun h hhides => h (Or.inr hhides) (hpasses hhides),
      fun hnot h => h.resolve_right hnot⟩
  · by_cases hdelivers : ∃ next link, r.Delivers s.state.isConnected source p next link
    · obtain ⟨next, link, h⟩ := hdelivers
      refine Or.inr ⟨next, link, h, ?_⟩
      rw [move_forwardBy, Router.choose_of_delivers h]
      rfl
    · obtain ⟨refusal, hrefuses, hchoose⟩ : ∃ refusal,
          r.Refuses (operator s.state) source p refusal ∧
            r.choose s.state.isConnected (operator s.state) source p = .error refusal :=
        Router.exists_choose_eq_error fun next link h => hdelivers ⟨next, link, h⟩
      have hcode : refusal.code ≠ .unreachable := fun hcode =>
        hnot (refusesAtOnce_forwardBy_iff.mpr ⟨refusal, hcode, hchoose⟩)
      exact Or.inl (refusesAtOnce_forwardBy_iff.mpr
        ⟨refusal, hrefuses.code.resolve_left hcode, hchoose⟩)

namespace Junction

def toErin : StaticTable := .ofRoutes [⟨⟨"test.dave", by decide +kernel⟩, erin.id⟩]

def learned : ForwardingTable :=
  ((ForwardingTable.fresh ⟨.replicate 16 0⟩).set
    ⟨⟨"test.dave", by decide +kernel⟩, dave.id, .replicate 32 1, []⟩).2

/-- The operator's routes come first. -/
def toErinFirst : Router LinkRef := { toDave with resolvers := [toErin.resolve, learned.resolve] }

end Junction

open Junction

/-- Erin's packet is refused, although there is a learned route to Dave and his link is
connected. -/
theorem route_hidden :
    ∃ (router : Network → Router LinkRef) (source : AccountSettings) (p : Prepare)
      (s : Scheduler Network Procedure Outcome),
      RefusesAtOnce Procedure.task s 0 (forwardBy router (fun _ => none) source p) .unreachable ∧
      ∃ resolver ∈ (router s.state).resolvers, ∃ next link,
        resolver p.destination = some next ∧ next ≠ source.id ∧
        (router s.state).links.get? next = some link ∧ s.state.isConnected link = true := by
  refine ⟨fun _ => toErinFirst, erin, packet, quiet true, ⟨_, ?_, rfl⟩, learned.resolve,
    by simp [toErinFirst], dave.id, ⟨0⟩, by decide +kernel, by decide, ?_, rfl⟩
  · decide +kernel
  · exact Dict.get?_insert_self _ _ _

end Scheduler

end IlpConnector
