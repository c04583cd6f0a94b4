import IlpConnector.Proofs.Prefix
import IlpConnector.Proofs.TableHistory
import IlpConnector.Routing.StaticTable

/-!
# Routing by the longest prefix

The forwarding table and the tables that operators set are kept in different ways, and both lead an
address to the account of the one route that matches it and whose prefix lies under all that match
(`LongestPrefix`).  For that no two routes may have one prefix, which every operation on either kind
of table keeps; of the routes that were added for a prefix, a table that operators set has the last
one (`StaticTable.Holds`).

So where an address leads depends on nothing but the account under each prefix: neither on the order
in which routes were added or are gone through, nor on the kind of the table
(`RoutingTable.longest_prefix_of_run`).
-/

namespace IlpConnector

/-! ## Lists of routes -/

section Routes

variable {α : Type} {target : α → AddressPrefix} {account : α → AccountId} {routes : List α}

/-- Of the routes, this one matches the address, and its prefix lies under all that match. -/
def IsLongest (target : α → AddressPrefix) (routes : List α) (a : Address) (e : α) : Prop :=
  e ∈ routes ∧ (target e).Matches a ∧
    ∀ e' ∈ routes, (target e').Matches a → (target e').Covers (target e)

/-- Addresses are led to the accounts of these routes: each to that of the one longest match,
however the routes are ordered, and to none if nothing matches. -/
structure LongestPrefix (target : α → AddressPrefix) (account : α → AccountId) (routes : List α)
    (resolve : Address → Option AccountId) : Prop where
  found : ∀ a, (∃ x, resolve a = some x) ↔ ∃ e ∈ routes, (target e).Matches a
  longest : ∀ a x, resolve a = some x →
    ∃ e, IsLongest target routes a e ∧ account e = x ∧ ∀ e', IsLongest target routes a e' → e' = e
  unordered : ∀ a (routes' : List α), routes'.Perm routes →
    (deepestMatch target a routes').map account = resolve a

/-- No two routes have one prefix. -/
def DistinctTargets (target : α → AddressPrefix) (routes : List α) : Prop :=
  ∀ e ∈ routes, ∀ e' ∈ routes, target e = target e' → e = e'

theorem DistinctTargets.deepestMatch_eq_some_iff (h : DistinctTargets target routes) {a : Address}
    {e : α} : deepestMatch target a routes = some e ↔ IsLongest target routes a e :=
  IlpConnector.deepestMatch_eq_some_iff h

/-- The longest match does not depend on the order of the routes. -/
theorem DistinctTargets.deepestMatch_perm (h : DistinctTargets target routes) (a : Address)
    {routes' : List α} (hperm : routes'.Perm routes) :
    deepestMatch target a routes' = deepestMatch target a routes := by
  have h' : DistinctTargets target routes' := fun e he e' he' =>
    h e (hperm.mem_iff.mp he) e' (hperm.mem_iff.mp he')
  refine Option.ext fun e => ?_
  rw [h.deepestMatch_eq_some_iff, h'.deepestMatch_eq_some_iff]
  simp only [IsLongest, hperm.mem_iff]

theorem DistinctTargets.longestPrefix (h : DistinctTargets target routes)
    (account : α → AccountId) :
    LongestPrefix target account routes fun a => (deepestMatch target a routes).map account where
  found a := by
    constructor
    · rintro ⟨x, hx⟩
      obtain ⟨e, he, -⟩ := Option.map_eq_some_iff.mp hx
      obtain ⟨hmem, hmatch, -⟩ := h.deepestMatch_eq_some_iff.mp he
      exact ⟨e, hmem, hmatch⟩
    · intro hsome
      obtain ⟨e, -, he, -⟩ := exists_deepestMatch hsome
      exact ⟨account e, by rw [he]; rfl⟩
  longest a x hx := by
    obtain ⟨e, he, rfl⟩ := Option.map_eq_some_iff.mp hx
    refine ⟨e, h.deepestMatch_eq_some_iff.mp he, rfl, fun e' he' => ?_⟩
    rw [← h.deepestMatch_eq_some_iff, he] at he'
    exact (Option.some.inj he').symm
  unordered a routes' hperm := by rw [h.deepestMatch_perm a hperm]

/-- An address leads to an account, if the prefixes have these accounts. -/
def LeadsTo (accountAt : AddressPrefix → Option AccountId) (a : Address) (x : AccountId) : Prop :=
  ∃ p, accountAt p = some x ∧ p.Matches a ∧
    ∀ q y, accountAt q = some y → q.Matches a → q.Covers p

/-- Where an address leads depends on the account of each prefix only. -/
theorem DistinctTargets.resolve_iff (h : DistinctTargets target routes)
    {accountAt : AddressPrefix → Option AccountId}
    (hat : ∀ p x, accountAt p = some x ↔ ∃ e ∈ routes, target e = p ∧ account e = x) {a : Address}
    {x : AccountId} :
    (deepestMatch target a routes).map account = some x ↔ LeadsTo accountAt a x := by
  simp only [Option.map_eq_some_iff, h.deepestMatch_eq_some_iff]
  constructor
  · rintro ⟨e, ⟨he, hmatch, hcovers⟩, rfl⟩
    refine ⟨target e, (hat _ _).mpr ⟨e, he, rfl, rfl⟩, hmatch, fun q y hq hqa => ?_⟩
    obtain ⟨e', he', rfl, -⟩ := (hat q y).mp hq
    exact hcovers e' he' hqa
  · rintro ⟨p, hp, hmatch, hcovers⟩
    obtain ⟨e, he, rfl, rfl⟩ := (hat p x).mp hp
    exact ⟨e, ⟨he, hmatch, fun e' he' hea =>
      hcovers _ _ ((hat _ _).mpr ⟨e', he', rfl, rfl⟩) hea⟩, rfl⟩

end Routes

/-! ## The forwarding table -/

namespace ForwardingTable

variable {t : ForwardingTable}

theorem distinctTargets (ht : t.Keyed) : DistinctTargets Route.target t.routes.values :=
  eq_of_target_eq ht

/-- The account to which a prefix leads. -/
def accountAt (t : ForwardingTable) (p : AddressPrefix) : Option AccountId :=
  (t.get? p).map Route.nextHop

theorem accountAt_eq_some_iff (ht : t.Keyed) {p : AddressPrefix} {x : AccountId} :
    t.accountAt p = some x ↔ ∃ e ∈ t.routes.values, e.target = p ∧ e.nextHop = x := by
  simp only [accountAt, Option.map_eq_some_iff, mem_values_routes ht]
  constructor
  · rintro ⟨e, he, rfl⟩
    obtain rfl := ht p e he
    exact ⟨e, he, rfl, rfl⟩
  · rintro ⟨e, he, rfl, rfl⟩
    exact ⟨e, he, rfl⟩

end ForwardingTable

/-! ## Tables that operators set -/

/-- An operation on a table that an operator sets. -/
inductive StaticOperation where
  | add (r : StaticRoute)
  | remove (target : AddressPrefix)

namespace StaticOperation

def apply (t : StaticTable) : StaticOperation → StaticTable
  | add r => t.add r
  | remove p => (t.remove p).2

/-- An empty table after operations, one after the other. -/
def run (os : List StaticOperation) : StaticTable :=
  os.foldl apply {}

/-- What an operation does to the route that stands for a prefix. -/
def restate (p : AddressPrefix) (standing : Option StaticRoute) :
    StaticOperation → Option StaticRoute
  | add r => if r.target = p then some r else standing
  | remove q => if q = p then none else standing

/-- The route that was added last for a prefix, unless it was removed since. -/
def standing (os : List StaticOperation) (p : AddressPrefix) : Option StaticRoute :=
  os.foldl (restate p) none

end StaticOperation

namespace StaticTable

variable {t : StaticTable} {stands : AddressPrefix → Option StaticRoute}

/-- The table has the routes that stand for their prefixes, each one once. -/
structure Holds (t : StaticTable) (stands : AddressPrefix → Option StaticRoute) : Prop where
  nodup : (t.routes.map StaticRoute.target).Nodup
  mem_iff : ∀ r, r ∈ t.routes ↔ stands r.target = some r

theorem Holds.distinctTargets (h : t.Holds stands) :
    DistinctTargets StaticRoute.target t.routes :=
  fun _ he _ he' => List.inj_on_of_nodup_map h.nodup he he'

theorem Holds.add (h : t.Holds stands) (r : StaticRoute) :
    (t.add r).Holds fun p => (StaticOperation.add r).restate p (stands p) where
  nodup := by
    have hold : ((t.routes.filter (·.target ≠ r.target)).map StaticRoute.target).Nodup :=
      h.nodup.sublist (List.filter_sublist.map _)
    rw [StaticTable.add, List.map_append, List.nodup_append]
    refine ⟨hold, List.nodup_singleton _, fun p hp q hq => ?_⟩
    obtain ⟨e, he, rfl⟩ := List.mem_map.mp hp
    rw [List.map_singleton, List.mem_singleton] at hq
    rw [hq]
    simpa using (List.mem_filter.mp he).2
  mem_iff e := by
    simp only [StaticTable.add, List.mem_append, List.mem_filter, List.mem_singleton, h.mem_iff,
      StaticOperation.restate, decide_eq_true_eq]
    by_cases he : r.target = e.target
    · rw [if_pos he, Option.some.injEq, eq_comm (a := r)]
      exact ⟨fun hmem => hmem.resolve_left fun hold => hold.2 he.symm, Or.inr⟩
    · rw [if_neg he]
      exact ⟨fun hmem => (hmem.resolve_right fun heq => he (heq ▸ rfl)).1,
        fun hstands => Or.inl ⟨hstands, Ne.symm he⟩⟩

/-- The first route for a prefix is the only one, so that taking it away leaves none. -/
theorem Holds.remove (h : t.Holds stands) (q : AddressPrefix) :
    (t.remove q).2.Holds fun p => (StaticOperation.remove q).restate p (stands p) where
  nodup := h.nodup.sublist (List.eraseP_sublist.map _)
  mem_iff e := by
    simp only [StaticTable.remove, StaticOperation.restate]
    by_cases he : q = e.target
    · rw [if_pos he]
      refine iff_of_false (fun hmem => ?_) (Option.some_ne_none e).symm
      have hfirst : t.routes.Pairwise fun x y => x.target ≠ y.target :=
        List.pairwise_map.mp h.nodup
      have hfor : decide (e.target = q) = true := decide_eq_true he.symm
      obtain ⟨x, before, after, hbefore, hx, hsplit, hrest⟩ :=
        List.exists_of_eraseP (p := fun r => decide (r.target = q)) (List.mem_of_mem_eraseP hmem)
          hfor
      rw [hrest] at hmem
      rw [decide_eq_true_eq] at hx
      rw [hsplit, List.pairwise_append, List.pairwise_cons] at hfirst
      rcases List.mem_append.mp hmem with hmem | hmem
      · exact hbefore e hmem (by simp [he])
      · exact hfirst.2.1.1 e hmem (hx.trans he)
    · rw [if_neg he, ← h.mem_iff]
      exact List.mem_eraseP_of_neg (by simpa using Ne.symm he)

/-- The account to which a prefix leads. -/
def accountAt (t : StaticTable) (p : AddressPrefix) : Option AccountId :=
  (t.routes.find? (·.target = p)).map StaticRoute.account

theorem Holds.accountAt_eq_some_iff (h : t.Holds stands) {p : AddressPrefix} {x : AccountId} :
    t.accountAt p = some x ↔ ∃ e ∈ t.routes, e.target = p ∧ e.account = x := by
  rw [accountAt, Option.map_eq_some_iff]
  constructor
  · rintro ⟨e, he, rfl⟩
    exact ⟨e, List.mem_of_find?_eq_some he, by simpa using List.find?_some he, rfl⟩
  · rintro ⟨e, he, rfl, rfl⟩
    cases hfind : t.routes.find? (·.target = e.target) with
    | none => exact absurd (List.find?_eq_none.mp hfind e he) (by simp)
    | some e' =>
      have htarget : e'.target = e.target := by simpa using List.find?_some hfind
      exact ⟨e', rfl, by
        rw [h.distinctTargets e' (List.mem_of_find?_eq_some hfind) e he htarget]⟩

end StaticTable

theorem StaticOperation.holds_run (os : List StaticOperation) : (run os).Holds (standing os) := by
  have hfold : ∀ (t : StaticTable) (stands : AddressPrefix → Option StaticRoute), t.Holds stands →
      (os.foldl apply t).Holds fun p => os.foldl (restate p) (stands p) := by
    induction os with
    | nil => exact fun t stands h => h
    | cons o os ih =>
      intro t stands h
      have hstep : (apply t o).Holds fun p => o.restate p (stands p) := by
        cases o with
        | add r => exact h.add r
        | remove q => exact h.remove q
      exact ih _ _ hstep
  exact hfold {} (fun _ => none) ⟨List.nodup_nil, by simp⟩

/-! ## Tables of either kind -/

/-- A table that resolves addresses. -/
inductive RoutingTable where
  | forwarding (t : ForwardingTable)
  | fixed (t : StaticTable)

namespace RoutingTable

def resolve : RoutingTable → Address → Option AccountId
  | forwarding t => t.resolve
  | fixed t => t.resolve

/-- The account to which a prefix leads. -/
def accountAt : RoutingTable → AddressPrefix → Option AccountId
  | forwarding t => t.accountAt
  | fixed t => t.accountAt

/-- What a table that began empty may have become. -/
inductive Reached : RoutingTable → Prop where
  | forwarding (id : TableId) (os : List TableOperation) :
      Reached (.forwarding (TableOperation.run os (.fresh id)))
  | fixed (os : List StaticOperation) : Reached (.fixed (StaticOperation.run os))

theorem keyed_run (id : TableId) (os : List TableOperation) :
    (TableOperation.run os (.fresh id)).Keyed :=
  (TableOperation.recorded_run (ForwardingTable.recorded_fresh id) os).keyed

theorem Reached.resolve_iff {t : RoutingTable} (h : t.Reached) {a : Address} {x : AccountId} :
    t.resolve a = some x ↔ LeadsTo t.accountAt a x := by
  cases h with
  | forwarding id os =>
    have hkeyed := keyed_run id os
    exact (ForwardingTable.distinctTargets hkeyed).resolve_iff fun _ _ =>
      ForwardingTable.accountAt_eq_some_iff hkeyed
  | fixed os =>
    have hholds := StaticOperation.holds_run os
    exact hholds.distinctTargets.resolve_iff fun _ _ => hholds.accountAt_eq_some_iff

/-- After any operations, tables of both kinds lead each address to the account of its one longest
match, in whichever order their routes are gone through.  A table that an operator sets has one
route at most for each prefix, the one that was added last and not removed since.  Tables of either
kind with the same account under each prefix lead every address to the same account. -/
theorem longest_prefix_of_run :
    (∀ (id : TableId) (os : List TableOperation),
      let t := TableOperation.run os (.fresh id)
      LongestPrefix Route.target Route.nextHop t.routes.values t.resolve) ∧
    (∀ os : List StaticOperation,
      let t := StaticOperation.run os
      LongestPrefix StaticRoute.target StaticRoute.account t.routes t.resolve ∧
      (t.routes.map StaticRoute.target).Nodup ∧
      ∀ r, r ∈ t.routes ↔ StaticOperation.standing os r.target = some r) ∧
    ∀ t t' : RoutingTable, t.Reached → t'.Reached → (∀ p, t.accountAt p = t'.accountAt p) →
      ∀ a, t.resolve a = t'.resolve a := by
  refine ⟨fun id os => ?_, fun os => ?_, fun t t' ht ht' hsame a => ?_⟩
  · exact (ForwardingTable.distinctTargets (keyed_run id os)).longestPrefix Route.nextHop
  · have hholds := StaticOperation.holds_run os
    exact ⟨hholds.distinctTargets.longestPrefix StaticRoute.account, hholds.nodup, hholds.mem_iff⟩
  · refine Option.ext fun x => ?_
    rw [ht.resolve_iff, ht'.resolve_iff, show t.accountAt = t'.accountAt from funext hsame]

/-- One table of each kind has a route for a prefix and another one for a prefix under it, which the
operator has replaced: an address under both leads to the same account, that of the deeper one. -/
theorem longest_prefix_of_run_kinds :
    ∃ (t t' : RoutingTable) (a : Address) (x : AccountId), t.Reached ∧ t'.Reached ∧
      (∀ p, t.accountAt p = t'.accountAt p) ∧ t.resolve a = t'.resolve a ∧
      t.resolve a = some x := by
  let near : AddressPrefix := ⟨"example", by decide +kernel⟩
  let far : AddressPrefix := ⟨"example.a", by decide +kernel⟩
  let alice : AccountId := ⟨"alice", by decide +kernel⟩
  let bob : AccountId := ⟨"bob", by decide +kernel⟩
  let carol : AccountId := ⟨"carol", by decide +kernel⟩
  let os : List TableOperation := [.set (.own near alice []), .set (.own far carol [])]
  let ss : List StaticOperation := [.add ⟨far, bob⟩, .add ⟨near, alice⟩, .add ⟨far, carol⟩]
  let id : TableId := ⟨Octets.replicate 16 0⟩
  have hsame : ∀ p, (forwarding (TableOperation.run os (.fresh id))).accountAt p
      = (fixed (StaticOperation.run ss)).accountAt p := by
    intro p
    have hroutes : (StaticOperation.run ss).routes = [⟨near, alice⟩, ⟨far, carol⟩] := by
      decide +kernel
    have hne : near ≠ far := by decide +kernel
    have hget : (TableOperation.run os (.fresh id)).get? p
        = if far = p then some (.own far carol [])
          else if near = p then some (.own near alice []) else none := by
      rw [show TableOperation.run os (.fresh id)
        = ((((ForwardingTable.fresh id).set (.own near alice [])).2).set (.own far carol [])).2
        from rfl, ForwardingTable.get?_set, ForwardingTable.get?_set]
      rfl
    simp only [accountAt, ForwardingTable.accountAt, StaticTable.accountAt, hget, hroutes,
      List.find?_cons, List.find?_nil]
    by_cases hfar : far = p
    · subst hfar
      simp [hne, Route.own]
    · by_cases hnear : near = p <;> simp [hfar, hnear, Route.own]
  have hforwarding : Reached (forwarding (TableOperation.run os (.fresh id))) := .forwarding id os
  have hfixed : Reached (fixed (StaticOperation.run ss)) := .fixed ss
  obtain ⟨-, -, hresolve⟩ := longest_prefix_of_run
  exact ⟨_, _, ⟨"example.a.x", by decide +kernel⟩, carol, hforwarding, hfixed, hsame,
    hresolve _ _ hforwarding hfixed hsame _, by decide +kernel⟩

end RoutingTable

end IlpConnector
