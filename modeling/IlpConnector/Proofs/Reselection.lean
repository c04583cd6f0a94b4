import IlpConnector.Proofs.Reregistration

/-!
# Choosing anew is stable

Of the routes that are learned for a prefix the one of the least rank is chosen, and no two of them
have the same rank.  So what is chosen (`Broadcaster.choice`) depends on the routes alone, and not
on the order in which they are found (`Broadcaster.selectFound_eq`).  It stays the same when it
comes into use (`Broadcaster.choice_selectOne`), although being in use is part of the rank: of the
shortest routes the one in use is chosen.  Choosing for several prefixes gives each of them its
choice, in whatever order they come (`Broadcaster.get?_select`), and leaves nothing to do for a
second time (`Broadcaster.select_stable`).
-/

namespace IlpConnector

namespace Broadcaster

variable {b : Broadcaster} {p q : AddressPrefix} {current : Option AccountId} {r x y : Route}

/-! ## One choice among the learned routes -/

/-- An account has learned one route for a prefix at most. -/
theorem eq_of_nextHop_eq (hb : b.Sound) (hx : x ∈ b.learnedRoutes p) (hy : y ∈ b.learnedRoutes p)
    (h : x.nextHop = y.nextHop) : x = y := by
  obtain ⟨a, ha⟩ := mem_learnedRoutes.mp hx
  obtain ⟨a', ha'⟩ := mem_learnedRoutes.mp hy
  obtain rfl : a = a' := by rw [← (ha.sound hb).2, ← (ha'.sound hb).2, h]
  obtain ⟨r, hr, hrx⟩ := ha
  obtain ⟨r', hr', hry⟩ := ha'
  rw [hr, Option.some.injEq] at hr'
  subst hr'
  rw [hrx, Option.some.injEq] at hry
  exact hry

theorem nextHop_eq_of_rank_eq (h : rank current x = rank current y) : x.nextHop = y.nextHop := by
  simp only [rank, EmbeddingLike.apply_eq_iff_eq, Prod.mk.injEq] at h
  exact TextKey.keyText_inj h.2.2

/-- What is chosen does not depend on the order in which the routes are found. -/
theorem bestRoute_eq_some_iff (hb : b.Sound) {routes : List Route}
    (hroutes : ∀ x, x ∈ routes ↔ x ∈ b.learnedRoutes p) :
    bestRoute current routes = some r ↔
      r ∈ b.learnedRoutes p ∧ ∀ x ∈ b.learnedRoutes p, rank current r ≤ rank current x := by
  constructor
  · intro h
    exact ⟨(hroutes r).mp (mem_of_bestRoute h),
      fun x hx => rank_le_of_bestRoute h ((hroutes x).mpr hx)⟩
  · rintro ⟨hr, hle⟩
    obtain ⟨r', hr', -⟩ := bestRoute_le current ((hroutes r).mpr hr)
    have hmem : r' ∈ b.learnedRoutes p := (hroutes r').mp (mem_of_bestRoute hr')
    have hrank : rank current r = rank current r' :=
      le_antisymm (hle r' hmem) (rank_le_of_bestRoute hr' ((hroutes r).mpr hr))
    rw [hr', eq_of_nextHop_eq hb hr hmem (nextHop_eq_of_rank_eq hrank)]

theorem bestRoute_congr (hb : b.Sound) {routes : List Route}
    (hroutes : ∀ x, x ∈ routes ↔ x ∈ b.learnedRoutes p) :
    bestRoute current routes = bestRoute current (b.learnedRoutes p) :=
  Option.ext fun _ =>
    (bestRoute_eq_some_iff hb hroutes).trans (bestRoute_eq_some_iff hb fun _ => Iff.rfl).symm

/-- Of the shortest routes the one in use is chosen. -/
theorem bestRoute_eq_of_current (hb : b.Sound) (hx : x ∈ b.learnedRoutes p)
    (hcurrent : some x.nextHop = current)
    (hshort : ∀ y ∈ b.learnedRoutes p, x.path.length ≤ y.path.length) :
    bestRoute current (b.learnedRoutes p) = some x := by
  refine (bestRoute_eq_some_iff hb fun _ => Iff.rfl).mpr ⟨hx, fun y hy => ?_⟩
  simp only [rank, Prod.Lex.toLex_le_toLex, if_pos hcurrent]
  rcases (hshort y hy).lt_or_eq with hlt | heq
  · exact Or.inl hlt
  · refine Or.inr ⟨heq, ?_⟩
    by_cases hy' : some y.nextHop = current
    · have hxy : x = y := eq_of_nextHop_eq hb hx hy (Option.some.inj (hcurrent.trans hy'.symm))
      simp [hxy, hy']
    · simp [hy']

/-! ## Choosing for one prefix -/

/-- The route that a prefix has once it has been chosen anew. -/
def choice (b : Broadcaster) (p : AddressPrefix) : Option Route :=
  if b.isOwn p then b.table.get? p else bestRoute (b.owner? p) (b.learnedRoutes p)

theorem learnedRoutes_congr {b' : Broadcaster} (hr : b'.receivers = b.receivers) :
    b'.learnedRoutes p = b.learnedRoutes p := by
  simp only [learnedRoutes, hr]

theorem choice_congr {b' : Broadcaster} (ht : b'.table.get? p = b.table.get? p)
    (hr : b'.receivers = b.receivers) : b'.choice p = b.choice p := by
  rw [choice, choice, isOwn_congr ht hr, learnedRoutes_congr hr, owner?, owner?, ht]

theorem choice_of_isOwn (h : b.isOwn p = true) : b.choice p = b.table.get? p := if_pos h

theorem choice_of_not_isOwn (h : b.isOwn p = false) :
    b.choice p = bestRoute (b.owner? p) (b.learnedRoutes p) :=
  if_neg (by simp [h])

theorem target_of_bestRoute (hb : b.Sound) (h : bestRoute current (b.learnedRoutes p) = some r) :
    r.target = p := by
  obtain ⟨a, ha⟩ := mem_learnedRoutes.mp (mem_of_bestRoute h)
  exact (ha.sound hb).1

theorem get?_selectOne_eq (hb : b.Sound) (q : AddressPrefix) :
    (b.selectOne q).2.table.get? p = if q = p then b.choice q else b.table.get? p := by
  rw [get?_selectOne hb]
  by_cases hq : q = p
  · subst hq
    cases hown : b.isOwn q <;> simp [choice, hown]
  · simp [hq]

/-- What is in use is chosen again. -/
theorem choice_selectOne (hb : b.Sound) (q : AddressPrefix) :
    (b.selectOne q).2.choice p = b.choice p := by
  have hrec := receivers_selectOne b q
  by_cases hq : q = p
  · subst hq
    have hget : (b.selectOne q).2.table.get? q = b.choice q := by
      rw [get?_selectOne_eq hb, if_pos rfl]
    cases hown : b.isOwn q with
    | true => exact choice_congr (by rw [hget, choice_of_isOwn hown]) hrec
    | false =>
      rw [choice_of_not_isOwn hown] at hget ⊢
      have hown' : (b.selectOne q).2.isOwn q = false := (chosen_selectOne hb hown).not_isOwn
      rw [choice_of_not_isOwn hown', owner?, hget, learnedRoutes_congr hrec]
      cases hbest : bestRoute (b.owner? q) (b.learnedRoutes q) with
      | none =>
        rw [bestRoute_eq_argmin, List.argmin_eq_none] at hbest
        rw [hbest]
        rfl
      | some r =>
        refine bestRoute_eq_of_current hb (mem_of_bestRoute hbest) rfl fun y hy => ?_
        exact length_le_of_rank_le (rank_le_of_bestRoute hbest hy)
  · refine choice_congr ?_ hrec
    rw [get?_selectOne_eq hb, if_neg hq]

/-- Choosing for a prefix tells whether the choice is another route than the one before, and logs
it then. -/
theorem selectOne_cases (hb : b.Sound) (q : AddressPrefix) :
    (b.choice q = b.table.get? q ∧ b.selectOne q = (false, b)) ∨
      (b.choice q ≠ b.table.get? q ∧ (b.selectOne q).1 = true ∧
        (b.selectOne q).2.table.log = b.table.logged q (b.choice q)) := by
  unfold selectOne
  cases hown : b.isOwn q with
  | true => exact Or.inl ⟨choice_of_isOwn hown, rfl⟩
  | false =>
    rw [choice_of_not_isOwn hown]
    cases hbest : bestRoute (b.owner? q) (b.learnedRoutes q) with
    | some r =>
      obtain rfl := target_of_bestRoute hb hbest
      by_cases hsame : b.table.get? r.target = some r
      · simp [ForwardingTable.set, hsame]
      · simp [ForwardingTable.set, hsame, Ne.symm hsame]
    | none =>
      cases hget : b.table.get? q <;> simp [ForwardingTable.withdraw, hget]

/-! ## Choosing for several prefixes -/

/-- Each prefix that is to be chosen anew gets its choice, and all others stay. -/
theorem get?_select (hb : b.Sound) (qs : List AddressPrefix) :
    (b.select qs).2.table.get? p = if p ∈ qs then b.choice p else b.table.get? p := by
  induction qs generalizing b with
  | nil => rfl
  | cons q qs ih =>
    rw [select_cons, ih (sound_selectOne hb q), choice_selectOne hb, get?_selectOne_eq hb]
    by_cases hp : p ∈ qs
    · simp [hp]
    · by_cases hq : q = p
      · simp [hq]
      · simp [hp, hq, Ne.symm hq]

theorem choice_select (hb : b.Sound) (qs : List AddressPrefix) :
    (b.select qs).2.choice p = b.choice p := by
  induction qs generalizing b with
  | nil => rfl
  | cons q qs ih => rw [select_cons, ih (sound_selectOne hb q), choice_selectOne hb]

/-- What is told are the prefixes whose choice is another route than the one before. -/
theorem mem_select_fst (hb : b.Sound) (qs : List AddressPrefix) :
    p ∈ (b.select qs).1 ↔ p ∈ qs ∧ b.choice p ≠ b.table.get? p := by
  induction qs generalizing b with
  | nil => simp [select]
  | cons q qs ih =>
    rcases selectOne_cases hb q with ⟨hsame, hstep⟩ | ⟨hne, hstep, -⟩
    · have hfst : (b.select (q :: qs)).1 = (b.select qs).1 := by simp [select, hstep]
      rw [hfst, ih hb]
      by_cases hq : p = q
      · simp [hq, hsame]
      · simp [hq]
    · have hfst : (b.select (q :: qs)).1 = q :: ((b.selectOne q).2.select qs).1 := by
        simp [select, hstep]
      rw [hfst, List.mem_cons, ih (sound_selectOne hb q), choice_selectOne hb,
        get?_selectOne_eq hb]
      by_cases hq : p = q
      · simp [hq, hne]
      · simp [hq, Ne.symm hq]

/-- Each prefix that is told takes one entry of the log, and no other one takes any. -/
theorem log_select (hb : b.Sound) (qs : List AddressPrefix) :
    (b.select qs).1.Nodup ∧ ∃ added, (b.select qs).2.table.log = b.table.log ++ added ∧
      added.map (fun c => (c.target, c.route)) = (b.select qs).1.map fun p => (p, b.choice p) := by
  induction qs generalizing b with
  | nil => exact ⟨List.nodup_nil, [], by simp [select], rfl⟩
  | cons q qs ih =>
    rcases selectOne_cases hb q with ⟨-, hstep⟩ | ⟨-, hstep, hlog⟩
    · have heq : b.select (q :: qs) = b.select qs := by simp [select, hstep]
      rw [heq]
      exact ih hb
    · have hb' := sound_selectOne hb q
      obtain ⟨hnodup, added, hadded, htold⟩ := ih hb'
      have hfst : (b.select (q :: qs)).1 = q :: ((b.selectOne q).2.select qs).1 := by
        simp [select, hstep]
      rw [hfst, select_cons]
      refine ⟨List.nodup_cons.mpr ⟨?_, hnodup⟩, ⟨b.table.epoch, q, b.choice q⟩ :: added, ?_, ?_⟩
      · -- the prefix has its choice already
        rw [mem_select_fst hb', choice_selectOne hb, get?_selectOne_eq hb, if_pos rfl]
        simp
      · rw [hadded, hlog, ForwardingTable.logged, List.append_assoc]
        rfl
      · simp only [choice_selectOne hb] at htold
        simp [htold]

/-- There is nothing to choose for prefixes that have their choices. -/
theorem select_of_choice (hb : b.Sound) {qs : List AddressPrefix}
    (h : ∀ q ∈ qs, b.choice q = b.table.get? q) : b.select qs = ([], b) := by
  induction qs with
  | nil => rfl
  | cons q qs ih =>
    rw [List.forall_mem_cons] at h
    rcases selectOne_cases hb q with ⟨-, hstep⟩ | ⟨hne, -⟩
    · simp [select, hstep, ih h.2]
    · exact absurd h.1 hne

/-! ## Looking at the receivers in some order -/

/-- Chooses the route for one prefix anew, with the receivers looked at in this order. -/
def selectOneFound (b : Broadcaster) (found : List Receiver) (target : AddressPrefix) :
    Bool × Broadcaster :=
  if b.isOwn target then (false, b)
  else
    match bestRoute (b.owner? target) (found.filterMap fun r => r.learned.get? target) with
    | some r =>
      let (changed, table) := b.table.set r
      (changed, { b with table })
    | none =>
      let (removed, table) := b.table.withdraw target
      (removed.isSome, { b with table })

/-- Chooses the routes for prefixes anew, with the receivers looked at in an order of its own for
each of them. -/
def selectFound (b : Broadcaster) :
    List (AddressPrefix × List Receiver) → List AddressPrefix × Broadcaster
  | [] => ([], b)
  | (target, found) :: rest =>
    let (changed, b) := b.selectOneFound found target
    let (others, b) := b.selectFound rest
    (if changed then target :: others else others, b)

theorem selectOneFound_eq (hb : b.Sound) {found : List Receiver}
    (h : found.Perm b.receivers.values) (q : AddressPrefix) :
    b.selectOneFound found q = b.selectOne q := by
  have hbest : bestRoute (b.owner? q) (found.filterMap fun r => r.learned.get? q)
      = bestRoute (b.owner? q) (b.learnedRoutes q) :=
    bestRoute_congr hb fun x => (h.filterMap _).mem_iff
  rw [selectOneFound, hbest]
  rfl

/-- The order in which the receivers are looked at makes no difference. -/
theorem selectFound_eq (hb : b.Sound) {found : List (AddressPrefix × List Receiver)}
    (h : ∀ x ∈ found, x.2.Perm b.receivers.values) :
    b.selectFound found = b.select (found.map Prod.fst) := by
  induction found generalizing b with
  | nil => rfl
  | cons x found ih =>
    obtain ⟨q, rs⟩ := x
    rw [List.forall_mem_cons] at h
    have hrest := ih (sound_selectOne hb q) fun x hx => by
      rw [receivers_selectOne]
      exact h.2 x hx
    simp only [selectFound, List.map_cons, select, selectOneFound_eq hb h.1, hrest]

/-! ## The selection as a whole -/

/-- Choosing anew for some prefixes has one outcome, however often and in whatever order they come,
and in whatever order the receivers are looked at for each of them.  It changes no other prefix and
none that leads to an account without a receiver.  What is told are the prefixes whose routes have
changed, once each, and each of them takes one entry of the log.  A route to an account that offers
one of the shortest stays with that account.  Choosing for the same prefixes once more does
nothing. -/
theorem select_stable (hb : b.Sound) (qs : List AddressPrefix) :
    let told := (b.select qs).1
    let b' := (b.select qs).2
    (∀ found : List (AddressPrefix × List Receiver),
      (∀ p, p ∈ found.map Prod.fst ↔ p ∈ qs) → (∀ x ∈ found, x.2.Perm b.receivers.values) →
      (b.selectFound found).2.table.routes = b'.table.routes ∧
        ∀ p, p ∈ (b.selectFound found).1 ↔ p ∈ told) ∧
    (∀ p, b'.table.get? p ≠ b.table.get? p → p ∈ qs ∧
      ∀ e, b.table.get? p = some e → ∃ r, b.receivers.get? e.nextHop = some r) ∧
    (∀ p, p ∈ told ↔ b'.table.get? p ≠ b.table.get? p) ∧
    told.Nodup ∧
    (∃ added, b'.table.log = b.table.log ++ added ∧
      added.map (fun c => (c.target, c.route)) = told.map fun p => (p, b'.table.get? p)) ∧
    (∀ p e x, b.table.get? p = some e → b.Learned e.nextHop p x →
      (∀ a y, b.Learned a p y → x.path.length ≤ y.path.length) →
      ∃ e', b'.table.get? p = some e' ∧ e'.nextHop = e.nextHop) ∧
    b'.select qs = ([], b') := by
  intro told b'
  have hget : ∀ p, b'.table.get? p = if p ∈ qs then b.choice p else b.table.get? p :=
    fun p => get?_select hb qs
  have htold : ∀ p, p ∈ told ↔ p ∈ qs ∧ b.choice p ≠ b.table.get? p := fun p => mem_select_fst hb qs
  refine ⟨fun found hqs hfound => ?_, fun p hp => ?_, fun p => ?_, (log_select hb qs).1, ?_,
    fun p e x he hx hshort => ?_, select_of_choice (sound_select hb qs) fun p hp => ?_⟩
  · rw [selectFound_eq hb hfound]
    refine ⟨Dict.ext_get? fun p => ?_, fun p => ?_⟩
    · have hget' := get?_select (p := p) hb (found.map Prod.fst)
      simp only [hqs] at hget'
      exact hget'.trans (hget p).symm
    · rw [mem_select_fst hb, hqs, htold]
  · rw [hget] at hp
    split_ifs at hp with hmem
    · refine ⟨hmem, fun e he => Option.ne_none_iff_exists'.mp fun hnone => ?_⟩
      exact hp (choice_of_isOwn (isOwn_iff.mpr ⟨e, he, hnone⟩))
    · exact absurd rfl hp
  · rw [htold, hget]
    by_cases hmem : p ∈ qs <;> simp [hmem]
  · obtain ⟨-, added, hadded, hmap⟩ := log_select hb qs
    refine ⟨added, hadded, hmap.trans (List.map_congr_left fun p hp => ?_)⟩
    rw [hget, if_pos ((htold p).mp hp).1]
  · rw [hget]
    split_ifs with hmem
    · have hown : b.isOwn p = false := by
        rw [Bool.eq_false_iff, ne_eq, isOwn_iff]
        rintro ⟨e', he', hnone⟩
        obtain rfl := Option.some.inj (he.symm.trans he')
        obtain ⟨r, hr, -⟩ := hx
        rw [hnone] at hr
        cases hr
      have hcurrent : some x.nextHop = b.owner? p := by
        rw [(hx.sound hb).2, owner?, he, Option.map_some]
      refine ⟨x, ?_, (hx.sound hb).2⟩
      rw [choice_of_not_isOwn hown]
      refine bestRoute_eq_of_current hb (mem_learnedRoutes.mpr ⟨_, hx⟩) hcurrent fun y hy => ?_
      obtain ⟨a, ha⟩ := mem_learnedRoutes.mp hy
      exact hshort a y ha
    · exact ⟨e, he, rfl⟩
  · rw [choice_select hb, hget, if_pos hp]

open Comeback

/-- Two neighbours offer a prefix that has lost its route: the shorter way comes into use, and stays
so. -/
theorem select_stable_lost :
    let b : Broadcaster := { bothOffered with table := .fresh (.plain 9) }
    b.Sound ∧ b.table.get? shared = none ∧ (b.select [shared, shared]).1 = [shared] ∧
      (∃ c, (b.select [shared, shared]).2.table.log = [c] ∧ c.target = shared) ∧
      (b.select [shared, shared]).2.select [shared, shared]
        = ([], (b.select [shared, shared]).2) := by
  intro b
  have hoffered : bothOffered.Sound := sound_run rfl run_bothOffered
  have hb : b.Sound := hoffered.congr (by dsimp only [b])
  have htold : (b.select [shared, shared]).1 = [shared] := by decide +kernel
  obtain ⟨-, -, -, -, ⟨added, hlog, hadded⟩, -, hagain⟩ := select_stable hb [shared, shared]
  refine ⟨hb, rfl, htold, ?_, hagain⟩
  rw [htold] at hadded
  obtain ⟨c, rfl, hc⟩ := List.map_eq_singleton_iff.mp hadded
  exact ⟨c, hlog, congrArg Prod.fst hc⟩

end Broadcaster

end IlpConnector
