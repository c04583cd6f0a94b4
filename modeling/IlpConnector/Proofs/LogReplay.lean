import IlpConnector.Ccp.Sender
import IlpConnector.Proofs.Learning

/-!
# Replaying the log of a forwarding table

Replayed from the start, the log of a table gives its routes (`ForwardingTable.Faithful`).  A batch
of changes that is told as one update has, on what a neighbour offers, the effect of its changes one
at a time (`Learning.receiver_told`), also when the neighbour knows the first of them already
(`RouteChange.replay_overlap`).
-/

namespace IlpConnector

namespace RouteChange

variable {f : Route → Option Route} {p : AddressPrefix}

/-- The route that a prefix got at its last change, if it was changed at all. -/
def last? (p : AddressPrefix) : List RouteChange → Option (Option Route)
  | [] => none
  | c :: cs => (last? p cs).or (if c.target = p then some c.route else none)

/-- The routes after one more change.  A route counts as `f` gives it, and as withdrawn if `f` does
not give it. -/
def follow (f : Route → Option Route) (d : Dict AddressPrefix Route) (c : RouteChange) :
    Dict AddressPrefix Route :=
  match c.route.bind f with
  | some r => d.insert c.target r
  | none => d.erase c.target

/-- The routes after changes, one at a time. -/
def replay (f : Route → Option Route) (d : Dict AddressPrefix Route) (changes : List RouteChange) :
    Dict AddressPrefix Route :=
  changes.foldl (follow f) d

theorem last?_append (xs ys : List RouteChange) :
    last? p (xs ++ ys) = (last? p ys).or (last? p xs) := by
  induction xs with
  | nil => simp [last?]
  | cons c xs ih => rw [List.cons_append, last?, ih, last?, Option.or_assoc]

theorem last?_eq_none_iff {changes : List RouteChange} :
    last? p changes = none ↔ ∀ c ∈ changes, c.target ≠ p := by
  induction changes with
  | nil => simp [last?]
  | cons c cs ih =>
    rw [last?, Option.or_eq_none_iff, ih, List.forall_mem_cons, and_comm]
    simp

theorem mem_of_last? {changes : List RouteChange} {o : Option Route}
    (h : last? p changes = some o) : ∃ c ∈ changes, c.target = p ∧ c.route = o := by
  induction changes with
  | nil => cases h
  | cons c cs ih =>
    rw [last?, Option.or_eq_some_iff] at h
    rcases h with h | ⟨-, h⟩
    · obtain ⟨c', hc', h'⟩ := ih h
      exact ⟨c', List.mem_cons_of_mem c hc', h'⟩
    · split_ifs at h with hc
      exact ⟨c, List.mem_cons_self, hc, Option.some.inj h⟩

theorem get?_follow (d : Dict AddressPrefix Route) (c : RouteChange) :
    (follow f d c).get? p = if c.target = p then c.route.bind f else d.get? p := by
  unfold follow
  split_ifs with hc
  · subst hc
    split
    · rename_i r hr
      rw [hr, Dict.get?_insert_self]
    · rename_i hr
      rw [hr, Dict.get?_erase_self]
  · split
    · exact Dict.get?_insert_of_ne _ _ hc
    · exact Dict.get?_erase_of_ne _ hc

/-- After a replay a prefix is as its last change left it. -/
theorem get?_replay (d : Dict AddressPrefix Route) (changes : List RouteChange) :
    (replay f d changes).get? p
      = ((last? p changes).map fun o => o.bind f).getD (d.get? p) := by
  unfold replay
  induction changes generalizing d with
  | nil => rfl
  | cons c cs ih =>
    rw [List.foldl_cons, ih, get?_follow, last?]
    cases last? p cs with
    | some o => rfl
    | none =>
      split_ifs <;> rfl

/-- A batch may start before what was replayed already ends. -/
theorem replay_overlap {log : List RouteChange} {first known n : ℕ} (hfirst : first ≤ known)
    (hknown : known ≤ first + n) :
    replay f (replay f ∅ (log.take known)) ((log.drop first).take n)
      = replay f ∅ (log.take (first + n)) := by
  refine Dict.ext_get? fun p => ?_
  have hsplit : log.take (first + n) = log.take first ++ (log.drop first).take n :=
    List.take_add ..
  have hsplit' : log.take known
      = log.take first ++ ((log.drop first).take n).take (known - first) := by
    rw [List.take_take, Nat.min_eq_left (by omega), ← List.take_add, Nat.add_sub_cancel' hfirst]
  rw [get?_replay, get?_replay, get?_replay, hsplit, hsplit', last?_append, last?_append]
  cases hlast : last? p ((log.drop first).take n) with
  | some o => rfl
  | none =>
    have hnone : last? p (((log.drop first).take n).take (known - first)) = none := by
      rw [last?_eq_none_iff] at hlast ⊢
      exact fun c hc => hlast c (List.mem_of_mem_take hc)
    rw [hnone]
    simp

end RouteChange

namespace ForwardingTable

variable {t t' : ForwardingTable} {P : Route → Prop}

/-! ## The log of a table -/

/-- The routes of a table are what its log says. -/
def Faithful (t : ForwardingTable) : Prop :=
  ∀ p, t.get? p = (RouteChange.last? p t.log).join

/-- Changes that are logged for the prefixes of their routes, which have a property. -/
def Logs (P : Route → Prop) (changes : List RouteChange) : Prop :=
  ∀ c ∈ changes, ∀ r, c.route = some r → r.target = c.target ∧ P r

/-- A table after further changes, whose routes have a property. -/
structure Grows (P : Route → Prop) (t t' : ForwardingTable) : Prop where
  id : t'.id = t.id
  log : ∃ more, t'.log = t.log ++ more ∧ Logs P more
  faithful : t.Faithful → t'.Faithful

theorem Grows.refl (P : Route → Prop) (t : ForwardingTable) : Grows P t t where
  id := rfl
  log := ⟨[], by simp, by simp [Logs]⟩
  faithful ht := ht

theorem Grows.trans {t'' : ForwardingTable} (h : Grows P t t') (h' : Grows P t' t'') :
    Grows P t t'' where
  id := h'.id.trans h.id
  log := by
    obtain ⟨xs, hxs, hP⟩ := h.log
    obtain ⟨ys, hys, hP'⟩ := h'.log
    refine ⟨xs ++ ys, by rw [hys, hxs, List.append_assoc], fun c hc => ?_⟩
    rcases List.mem_append.mp hc with hc | hc
    · exact hP c hc
    · exact hP' c hc
  faithful ht := h'.faithful (h.faithful ht)

/-- What the log of a table replays to is its routes, each as `f` gives it. -/
theorem Faithful.get?_replay {f : Route → Option Route} (h : t.Faithful) (p : AddressPrefix) :
    (RouteChange.replay f ∅ t.log).get? p = (t.get? p).bind f := by
  rw [RouteChange.get?_replay, h p]
  cases RouteChange.last? p t.log <;> rfl

theorem faithful_fresh (id : TableId) : (fresh id).Faithful := fun _ => rfl

theorem grows_set (t : ForwardingTable) {r : Route} (hr : P r) : Grows P t (t.set r).2 := by
  have hget := t.get?_set r
  unfold set at hget ⊢
  split_ifs at hget ⊢
  · exact Grows.refl P t
  · refine ⟨rfl, ⟨_, rfl, ?_⟩, fun ht p => ?_⟩
    · intro c hc r' hr'
      rw [List.mem_singleton] at hc
      subst hc
      rw [Option.some.injEq] at hr'
      exact hr' ▸ ⟨rfl, hr⟩
    · rw [hget, ht p, logged, RouteChange.last?_append]
      simp only [RouteChange.last?, Option.none_or]
      split_ifs <;> rfl

theorem grows_withdraw (t : ForwardingTable) (q : AddressPrefix) :
    Grows P t (t.withdraw q).2 := by
  have hget := t.get?_withdraw q
  unfold withdraw at hget ⊢
  split
  · exact Grows.refl P t
  · rename_i r hr
    rw [hr] at hget
    refine ⟨rfl, ⟨_, rfl, ?_⟩, fun ht p => ?_⟩
    · intro c hc r' hr'
      rw [List.mem_singleton] at hc
      subst hc
      cases hr'
    · rw [hget, ht p, logged, RouteChange.last?_append]
      simp only [RouteChange.last?, Option.none_or]
      split_ifs <;> rfl

theorem grows_withdrawAll (t : ForwardingTable) (qs : List AddressPrefix) :
    Grows P t (t.withdrawAll qs) := by
  unfold withdrawAll
  induction qs generalizing t with
  | nil => exact Grows.refl P t
  | cons q qs ih => exact (grows_withdraw t q).trans (ih _)

theorem grows_withdrawVia (t : ForwardingTable) (a : AccountId) :
    Grows P t (t.withdrawVia a).2 := grows_withdrawAll t _

end ForwardingTable

/-! ## Batches of changes -/

namespace Sender

variable {s : Sender} {accounts : AccountStore} {p : AddressPrefix} {changes : List RouteChange}
  {P : Route → Prop}

theorem registration_start (s : Sender) (number : ℕ) :
    (s.start number).toRegistration = s.toRegistration := by
  unfold start
  split <;> rfl

theorem registration_obey (s : Sender) (id : TableId) (number : ℕ) (q : RouteControl) :
    (s.obey id number q).toRegistration = s.toRegistration := by
  unfold obey
  split
  · exact registration_start _ _
  · rfl

theorem peer_obey (s : Sender) (id : TableId) (number : ℕ) (q : RouteControl) :
    (s.obey id number q).peer = s.peer :=
  congrArg Registration.peer (s.registration_obey id number q)

/-- The route that a neighbour's receiver keeps under this account when it is told about a route, if
it may be told. -/
def handed (s : Sender) (accounts : AccountStore) (own : Option Address) (via : AccountId)
    (r : Route) : Option Route :=
  if s.mayOffer accounts r then
    some { r with nextHop := via, auth := Route.rehash r.auth, path := own.toList ++ r.path }
  else none

/-- What is offered of a route. -/
def offerOf (r : Route) : Announcement := ⟨r.target, r.path, r.auth, []⟩

/-- What a route counts as that is offered, as `take` takes it; one that may not be offered counts
as none. -/
def offered (s : Sender) (accounts : AccountStore) (take : Announcement → Route) (r : Route) :
    Option Route :=
  if s.mayOffer accounts r then some (take (offerOf r)) else none

/-- A route that the neighbour may be told about has not come through its node, of this address. -/
def LoopFree (s : Sender) (accounts : AccountStore) (own : Option Address) (r : Route) : Prop :=
  s.mayOffer accounts r = true → Learning.loops own (offerOf r) = false

theorem get?_outcomes (s : Sender) (accounts : AccountStore) (changes : List RouteChange)
    (p : AddressPrefix) : (s.outcomes accounts changes).get? p
    = (RouteChange.last? p changes).map (·.filter (s.mayOffer accounts)) := by
  have hfold : ∀ (changes : List RouteChange) (d : Dict AddressPrefix (Option Route)),
      (changes.foldl (fun d c => d.insert c.target (c.route.filter (s.mayOffer accounts))) d).get? p
        = ((RouteChange.last? p changes).map (·.filter (s.mayOffer accounts))).or (d.get? p) := by
    intro changes
    induction changes with
    | nil => exact fun d => rfl
    | cons c cs ih =>
      intro d
      rw [List.foldl_cons, ih, RouteChange.last?]
      cases RouteChange.last? p cs with
      | some o => rfl
      | none =>
        by_cases hc : c.target = p
        · subst hc
          simp
        · rw [Dict.get?_insert_of_ne _ _ hc, if_neg hc]
          rfl
  rw [outcomes, hfold, Dict.get?_emptyCollection, Option.or_none]

theorem mem_offers {d : Dict AddressPrefix (Option Route)} {a : Announcement} :
    a ∈ offers d ↔ ∃ p r, d.get? p = some (some r) ∧ offerOf r = a := by
  simp only [offers, List.mem_filterMap, Dict.mem_values, Option.map_eq_some_iff, offerOf]
  constructor
  · rintro ⟨o, ⟨p, hp⟩, r, rfl, rfl⟩
    exact ⟨p, r, hp, rfl⟩
  · rintro ⟨p, r, hp, rfl⟩
    exact ⟨some r, ⟨p, hp⟩, r, rfl, rfl⟩

theorem mem_withdrawals {d : Dict AddressPrefix (Option Route)} :
    p ∈ withdrawals d ↔ d.get? p = some none := by
  simp [withdrawals, Dict.mem_keys, Dict.get?_filter, Option.filter_eq_some_iff]

/-- An update about changes says something. -/
theorem offers_or_withdrawals (s : Sender) (accounts : AccountStore) (h : changes ≠ []) :
    offers (s.outcomes accounts changes) ≠ [] ∨ withdrawals (s.outcomes accounts changes) ≠ [] := by
  obtain ⟨c, cs, rfl⟩ := List.exists_cons_of_ne_nil h
  have hlast : RouteChange.last? c.target (c :: cs) ≠ none := by
    rw [ne_eq, RouteChange.last?_eq_none_iff]
    exact fun h => h c List.mem_cons_self rfl
  obtain ⟨o, ho⟩ := Option.ne_none_iff_exists'.mp hlast
  have hget := s.get?_outcomes accounts (c :: cs) c.target
  rw [ho, Option.map_some] at hget
  cases hout : o.filter (s.mayOffer accounts) with
  | none => exact Or.inr (List.ne_nil_of_mem (mem_withdrawals.mpr (hget.trans (by rw [hout]))))
  | some r =>
    exact Or.inl (List.ne_nil_of_mem (mem_offers.mpr ⟨_, r, hget.trans (by rw [hout]), rfl⟩))

/-- An outcome that is a route is the last change of its prefix, and may be offered. -/
theorem of_get?_outcomes (hlogs : ForwardingTable.Logs P changes) {r : Route}
    (h : (s.outcomes accounts changes).get? p = some (some r)) :
    RouteChange.last? p changes = some (some r) ∧ r.target = p ∧ s.mayOffer accounts r = true ∧
      P r := by
  rw [get?_outcomes, Option.map_eq_some_iff] at h
  obtain ⟨o, ho, hfilter⟩ := h
  rw [Option.filter_eq_some_iff] at hfilter
  obtain ⟨rfl, hmay⟩ := hfilter
  obtain ⟨c, hc, htarget, hcr⟩ := RouteChange.mem_of_last? ho
  obtain ⟨htarget', hP⟩ := hlogs c hc r hcr
  exact ⟨ho, htarget'.trans htarget, hmay, hP⟩

theorem mem_offers_outcomes (hlogs : ForwardingTable.Logs P changes) {a : Announcement} :
    a ∈ offers (s.outcomes accounts changes) ↔
      ∃ r, (s.outcomes accounts changes).get? a.target = some (some r) ∧ offerOf r = a := by
  rw [mem_offers]
  constructor
  · rintro ⟨p, r, hr, rfl⟩
    obtain ⟨-, rfl, -⟩ := of_get?_outcomes hlogs hr
    exact ⟨r, hr, rfl⟩
  · rintro ⟨r, hr, ha⟩
    exact ⟨_, r, hr, ha⟩

/-- What is told of a prefix in an update about changes: its last change, if it may be told. -/
theorem get?_told (hlogs : ForwardingTable.Logs P changes) (take : Announcement → Route)
    (d : Dict AddressPrefix Route) :
    ((offers (s.outcomes accounts changes)).foldl (fun d a => d.insert a.target (take a))
        ((withdrawals (s.outcomes accounts changes)).foldl Dict.erase d)).get? p
      = ((RouteChange.last? p changes).map fun o => o.bind (s.offered accounts take)).getD
          (d.get? p) := by
  by_cases hoffer : ∃ r, (s.outcomes accounts changes).get? p = some (some r)
  · obtain ⟨r, hr⟩ := hoffer
    obtain ⟨hlast, htarget, hmay, -⟩ := of_get?_outcomes hlogs hr
    rw [hlast, Dict.get?_foldl_insert_of_mem (a := offerOf r) (v := take (offerOf r))]
    · simp [offered, hmay]
    · intro a ha hap
      obtain ⟨r', hr', rfl⟩ := (mem_offers_outcomes hlogs).mp ha
      rw [hap, hr, Option.some.injEq, Option.some.injEq] at hr'
      rw [hr']
    · exact mem_offers.mpr ⟨p, r, hr, rfl⟩
    · exact htarget
  · rw [Dict.get?_foldl_insert_of_ne, Dict.get?_foldl_erase]
    · simp only [mem_withdrawals, s.get?_outcomes]
      cases hlast : RouteChange.last? p changes with
      | none => simp
      | some o =>
        have hfilter : o.filter (s.mayOffer accounts) = none := by
          rw [Option.eq_none_iff_forall_ne_some]
          intro r hr
          exact hoffer ⟨r, by rw [s.get?_outcomes, hlast, Option.map_some, hr]⟩
        rw [Option.map_some, hfilter, if_pos rfl]
        cases o with
        | none => rfl
        | some r =>
          have hmay : s.mayOffer accounts r = false := by
            simpa [Option.filter_eq_none_iff] using hfilter
          simp [offered, hmay]
    · intro a ha hap
      obtain ⟨r, hr, -⟩ := (mem_offers_outcomes hlogs).mp ha
      exact hoffer ⟨r, hap ▸ hr⟩

/-- To withdraw and to enter what an update about changes tells has the effect of the changes one at
a time. -/
theorem foldl_told (hlogs : ForwardingTable.Logs P changes) (take : Announcement → Route)
    (d : Dict AddressPrefix Route) :
    (offers (s.outcomes accounts changes)).foldl (fun d a => d.insert a.target (take a))
        ((withdrawals (s.outcomes accounts changes)).foldl Dict.erase d)
      = RouteChange.replay (s.offered accounts take) d changes :=
  Dict.ext_get? fun _ => by rw [get?_told hlogs, RouteChange.get?_replay]

end Sender

namespace Learning

variable {own : Option Address} {s : Sender} {accounts : AccountStore}
  {changes : List RouteChange}

theorem receiver_foldl_withdraw (qs : List AddressPrefix) (l : Learning) :
    (qs.foldl withdraw l).receiver = { l.receiver with
      learned := qs.foldl Dict.erase l.receiver.learned } := by
  induction qs generalizing l with
  | nil => rfl
  | cons q qs ih =>
    rw [List.foldl_cons, ih, receiver_withdraw]
    rfl

theorem receiver_foldl_learn {as : List Announcement} (has : ∀ a ∈ as, loops own a = false)
    (l : Learning) : (as.foldl (learn own) l).receiver = { l.receiver with
      learned := as.foldl (fun d a => d.insert a.target (routeOf l.receiver.peer own a))
        l.receiver.learned } := by
  induction as generalizing l with
  | nil => rfl
  | cons a as ih =>
    rw [List.forall_mem_cons] at has
    rw [List.foldl_cons, ih has.2, receiver_learn, if_neg (by simp [has.1])]
    rfl

/-- An update about changes has the effect of the changes one at a time, if no route that is offered
has come through the node. -/
theorem receiver_told (hlogs : ForwardingTable.Logs (s.LoopFree accounts own) changes)
    (l : Learning) :
    ((Sender.offers (s.outcomes accounts changes)).foldl (learn own)
        ((Sender.withdrawals (s.outcomes accounts changes)).foldl withdraw l)).receiver
      = { l.receiver with
          learned := RouteChange.replay (s.handed accounts own l.receiver.peer)
            l.receiver.learned changes } := by
  rw [receiver_foldl_learn, receiver_foldl_withdraw]
  · dsimp only
    congr 1
    exact Sender.foldl_told hlogs (routeOf l.receiver.peer own) l.receiver.learned
  · intro a ha
    obtain ⟨r, hr, rfl⟩ := (Sender.mem_offers_outcomes hlogs).mp ha
    obtain ⟨-, -, hmay, hloop⟩ := Sender.of_get?_outcomes hlogs hr
    exact hloop hmay

end Learning

end IlpConnector
