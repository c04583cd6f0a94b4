import IlpConnector.Ccp.Broadcaster
import IlpConnector.Proofs.Learning
import Mathlib.Data.List.MinMax
import Mathlib.Data.Prod.Lex
import Mathlib.Data.String.Basic

/-!
# Choosing the best route

The route chosen for a prefix is the one of the least rank that some receiver has learned
(`Broadcaster.bestRoute_eq_argmin`), so none is shorter (`Broadcaster.bestRoute_le`).  After
`Broadcaster.select` every prefix that was to be chosen anew has its best route
(`Broadcaster.chosen_select`), unless it is the node's own, and all else is as before.
-/

namespace IlpConnector

namespace Broadcaster

variable {b : Broadcaster} {p : AddressPrefix}

/-! ## The best of several routes -/

/-- What decides between routes: how long they are, whether they are in use, and at last their
accounts. -/
def rank (current : Option AccountId) (r : Route) : ℕ ×ₗ ℕ ×ₗ String :=
  toLex (r.path.length, toLex (if some r.nextHop = current then 0 else 1, r.nextHop.text))

theorem precedes_iff_rank_lt {current : Option AccountId} {x y : Route} :
    precedes current x y = true ↔ rank current x < rank current y := by
  unfold precedes rank
  simp only [Prod.Lex.toLex_lt_toLex]
  split_ifs <;> simp_all

theorem bestRoute_eq_argmin (current : Option AccountId) (routes : List Route) :
    bestRoute current routes = routes.argmin (rank current) := by
  unfold bestRoute List.argmin
  congr 1
  funext best r
  cases best with
  | none => rfl
  | some b => simp only [List.argAux, precedes_iff_rank_lt]

theorem mem_of_bestRoute {current : Option AccountId} {routes : List Route} {r : Route}
    (h : bestRoute current routes = some r) : r ∈ routes :=
  List.argmin_mem (bestRoute_eq_argmin current routes ▸ h)

theorem rank_le_of_bestRoute {current : Option AccountId} {routes : List Route} {r x : Route}
    (h : bestRoute current routes = some r) (hx : x ∈ routes) : rank current r ≤ rank current x :=
  List.le_of_mem_argmin hx (bestRoute_eq_argmin current routes ▸ h)

theorem length_le_of_rank_le {current : Option AccountId} {x y : Route}
    (h : rank current x ≤ rank current y) : x.path.length ≤ y.path.length := by
  rcases Prod.Lex.toLex_le_toLex.mp h with hlt | ⟨heq, -⟩
  · exact hlt.le
  · exact heq.le

/-- No route is shorter than the best one, which there is if there is any. -/
theorem bestRoute_le (current : Option AccountId) {routes : List Route} {x : Route}
    (h : x ∈ routes) :
    ∃ r, bestRoute current routes = some r ∧ r.path.length ≤ x.path.length := by
  obtain ⟨r, hr⟩ := Option.ne_none_iff_exists'.mp fun hnone : bestRoute current routes = none =>
    List.ne_nil_of_mem h (List.argmin_eq_none.mp (bestRoute_eq_argmin current routes ▸ hnone))
  exact ⟨r, hr, length_le_of_rank_le (rank_le_of_bestRoute hr h)⟩

/-! ## Choosing for one prefix -/

/-- Every receiver is kept under its neighbour's account, and what it has learned is in order. -/
def Sound (b : Broadcaster) : Prop :=
  ∀ a r, b.receivers.get? a = some r → r.peer = a ∧ r.Sound

/-- A receiver of the account has learned the route for the prefix. -/
def Learned (b : Broadcaster) (a : AccountId) (p : AddressPrefix) (x : Route) : Prop :=
  ∃ r, b.receivers.get? a = some r ∧ r.learned.get? p = some x

/-- The route of a prefix is the one that the receiver of its next hop has learned, and no receiver
has learned a shorter one. -/
structure Chosen (b : Broadcaster) (p : AddressPrefix) : Prop where
  backed : ∀ e, b.table.get? p = some e → b.Learned e.nextHop p e
  best : ∀ a x, b.Learned a p x → ∃ e, b.table.get? p = some e ∧ e.path.length ≤ x.path.length

theorem Sound.congr {b' : Broadcaster} (hb : b.Sound) (hr : b'.receivers = b.receivers) :
    b'.Sound :=
  fun a r h => hb a r (hr ▸ h)

theorem Learned.sound (hb : b.Sound) {a : AccountId} {x : Route} (h : b.Learned a p x) :
    x.target = p ∧ x.nextHop = a := by
  obtain ⟨r, hr, hx⟩ := h
  obtain ⟨hpeer, hsound⟩ := hb a r hr
  rw [← hpeer]
  exact hsound p x hx

theorem mem_learnedRoutes {x : Route} : x ∈ b.learnedRoutes p ↔ ∃ a, b.Learned a p x := by
  simp only [learnedRoutes, List.mem_filterMap, Dict.mem_values, Learned]
  constructor
  · rintro ⟨r, ⟨a, hr⟩, hx⟩
    exact ⟨a, r, hr, hx⟩
  · rintro ⟨a, r, hr, hx⟩
    exact ⟨r, ⟨a, hr⟩, hx⟩

/-- The node's own routes are those that lead to accounts without a receiver. -/
theorem isOwn_iff : b.isOwn p = true ↔
    ∃ e, b.table.get? p = some e ∧ b.receivers.get? e.nextHop = none := by
  simp only [isOwn, owner?, Option.any_map, Option.any_eq_true, Dict.contains,
    Bool.not_eq_true', Option.isSome_eq_false_iff, Option.isNone_iff_eq_none]

theorem Chosen.not_isOwn (h : b.Chosen p) : b.isOwn p = false := by
  rw [Bool.eq_false_iff, ne_eq, isOwn_iff]
  rintro ⟨e, he, hnone⟩
  obtain ⟨r, hr, -⟩ := h.backed e he
  rw [hnone] at hr
  cases hr

/-- Whether a route is chosen depends on the prefix's entry and on the receivers only. -/
theorem Chosen.congr {b' : Broadcaster} (h : b.Chosen p) (ht : b'.table.get? p = b.table.get? p)
    (hr : b'.receivers = b.receivers) : b'.Chosen p := by
  constructor
  · intro e he
    obtain ⟨r, hrec, hx⟩ := h.backed e (ht ▸ he)
    exact ⟨r, hr ▸ hrec, hx⟩
  · intro a x hx
    obtain ⟨r, hrec, hlearned⟩ := hx
    rw [ht]
    exact h.best a x ⟨r, hr ▸ hrec, hlearned⟩

theorem isOwn_congr {b' : Broadcaster} (ht : b'.table.get? p = b.table.get? p)
    (hr : b'.receivers = b.receivers) : b'.isOwn p = b.isOwn p := by
  rw [Bool.eq_iff_iff, isOwn_iff, isOwn_iff, ht, hr]

/-- Choosing for a prefix changes nothing but the table. -/
theorem selectOne_snd (b : Broadcaster) (q : AddressPrefix) :
    (b.selectOne q).2 = { b with table := (b.selectOne q).2.table } := by
  unfold selectOne
  split_ifs
  · rfl
  · split <;> rfl

theorem receivers_selectOne (b : Broadcaster) (q : AddressPrefix) :
    (b.selectOne q).2.receivers = b.receivers := by
  rw [selectOne_snd]

/-- Choosing for a prefix gives it the best route, unless it is the node's own, and leaves every
other prefix alone. -/
theorem get?_selectOne (hb : b.Sound) (q : AddressPrefix) :
    (b.selectOne q).2.table.get? p = if q = p ∧ b.isOwn q = false then
      bestRoute (b.owner? q) (b.learnedRoutes q) else b.table.get? p := by
  unfold selectOne
  split_ifs with hown hq hq
  · simp [hown] at hq
  · rfl
  · obtain ⟨rfl, -⟩ := hq
    split
    · rename_i r hbest
      obtain ⟨a, ha⟩ := mem_learnedRoutes.mp (mem_of_bestRoute hbest)
      rw [hbest]
      dsimp only
      rw [ForwardingTable.get?_set, if_pos (ha.sound hb).1]
    · rename_i hbest
      rw [hbest]
      dsimp only
      rw [ForwardingTable.get?_withdraw, if_pos rfl]
  · have hne : q ≠ p := fun h => hq ⟨h, by simpa using hown⟩
    split
    · rename_i r hbest
      obtain ⟨a, ha⟩ := mem_learnedRoutes.mp (mem_of_bestRoute hbest)
      dsimp only
      rw [ForwardingTable.get?_set, (ha.sound hb).1, if_neg hne]
    · dsimp only
      rw [ForwardingTable.get?_withdraw, if_neg hne]

theorem sound_selectOne (hb : b.Sound) (q : AddressPrefix) : (b.selectOne q).2.Sound :=
  hb.congr (receivers_selectOne b q)

theorem chosen_selectOne (hb : b.Sound) (hown : b.isOwn p = false) :
    (b.selectOne p).2.Chosen p := by
  have hget := get?_selectOne (p := p) hb p
  rw [if_pos ⟨rfl, hown⟩] at hget
  have hrec := receivers_selectOne b p
  constructor
  · intro e he
    rw [hget] at he
    obtain ⟨a, ha⟩ := mem_learnedRoutes.mp (mem_of_bestRoute he)
    rw [(ha.sound hb).2]
    unfold Learned
    rw [hrec]
    exact ha
  · intro a x hx
    unfold Learned at hx
    rw [hrec] at hx
    rw [hget]
    exact bestRoute_le _ (mem_learnedRoutes.mpr ⟨a, hx⟩)

/-! ## Choosing for several prefixes -/

theorem select_cons (b : Broadcaster) (q : AddressPrefix) (qs : List AddressPrefix) :
    (b.select (q :: qs)).2 = ((b.selectOne q).2.select qs).2 := rfl

/-- Choosing anew changes nothing but the table. -/
theorem select_snd (b : Broadcaster) (qs : List AddressPrefix) :
    (b.select qs).2 = { b with table := (b.select qs).2.table } := by
  induction qs generalizing b with
  | nil => rfl
  | cons q qs ih => rw [select_cons, ih, selectOne_snd]

theorem receivers_select (b : Broadcaster) (qs : List AddressPrefix) :
    (b.select qs).2.receivers = b.receivers := by
  rw [select_snd]

theorem settings_select (b : Broadcaster) (qs : List AddressPrefix) :
    (b.select qs).2.settings = b.settings := by
  rw [select_snd]

theorem senders_select (b : Broadcaster) (qs : List AddressPrefix) :
    (b.select qs).2.senders = b.senders := by
  rw [select_snd]

theorem nextBroadcast_select (b : Broadcaster) (qs : List AddressPrefix) :
    (b.select qs).2.nextBroadcast = b.nextBroadcast := by
  rw [select_snd]

theorem sound_select (hb : b.Sound) (qs : List AddressPrefix) : (b.select qs).2.Sound :=
  hb.congr (receivers_select b qs)

/-- What is not to be chosen anew stays. -/
theorem get?_select_of_notMem (hb : b.Sound) {qs : List AddressPrefix} (hp : p ∉ qs) :
    (b.select qs).2.table.get? p = b.table.get? p := by
  induction qs generalizing b with
  | nil => rfl
  | cons q qs ih =>
    rw [List.mem_cons, not_or] at hp
    rw [select_cons, ih (sound_selectOne hb q) hp.2, get?_selectOne hb,
      if_neg fun h => hp.1 h.1.symm]

/-- The node's own routes stay. -/
theorem get?_select_of_isOwn (hb : b.Sound) (qs : List AddressPrefix) (hown : b.isOwn p = true) :
    (b.select qs).2.table.get? p = b.table.get? p := by
  induction qs generalizing b with
  | nil => rfl
  | cons q qs ih =>
    have hstep : (b.selectOne q).2.table.get? p = b.table.get? p := by
      rw [get?_selectOne hb, if_neg]
      rintro ⟨rfl, h⟩
      rw [hown] at h
      cases h
    have hown' : (b.selectOne q).2.isOwn p = true := by
      rw [isOwn_congr hstep (receivers_selectOne b q)]
      exact hown
    rw [select_cons, ih (sound_selectOne hb q) hown', hstep]

/-- A route that was not there before is one that a receiver has learned. -/
theorem learned_of_get?_select (hb : b.Sound) (qs : List AddressPrefix) {e : Route}
    (he : (b.select qs).2.table.get? p = some e) :
    b.table.get? p = some e ∨ b.Learned e.nextHop p e := by
  induction qs generalizing b with
  | nil => exact Or.inl he
  | cons q qs ih =>
    have hrec := receivers_selectOne b q
    rcases ih (sound_selectOne hb q) he with hstep | ⟨r, hr, hx⟩
    · rw [get?_selectOne hb] at hstep
      split_ifs at hstep with hq
      · obtain ⟨rfl, -⟩ := hq
        obtain ⟨a, ha⟩ := mem_learnedRoutes.mp (mem_of_bestRoute hstep)
        exact Or.inr ((ha.sound hb).2 ▸ ha)
      · exact Or.inl hstep
    · exact Or.inr ⟨r, hrec ▸ hr, hx⟩

/-- Of the prefixes that are not the node's own, those that are chosen anew have their best routes
afterwards, like those that had them before. -/
theorem chosen_select (hb : b.Sound) {qs : List AddressPrefix} (hown : b.isOwn p = false)
    (h : p ∈ qs ∨ b.Chosen p) : (b.select qs).2.Chosen p := by
  induction qs generalizing b with
  | nil =>
    rcases h with h | h
    · cases h
    · exact h
  | cons q qs ih =>
    have hrec := receivers_selectOne b q
    rw [select_cons]
    by_cases hq : q = p
    · subst hq
      have hchosen := chosen_selectOne hb hown
      exact ih (sound_selectOne hb q) hchosen.not_isOwn (Or.inr hchosen)
    · have hstep : (b.selectOne q).2.table.get? p = b.table.get? p := by
        rw [get?_selectOne hb, if_neg fun h => hq h.1]
      refine ih (sound_selectOne hb q) (by rw [isOwn_congr hstep hrec]; exact hown) ?_
      rcases h with h | h
      · rcases List.mem_cons.mp h with rfl | h
        · exact absurd rfl hq
        · exact Or.inl h
      · exact Or.inr (h.congr hstep hrec)

theorem mem_ordered {qs : List AddressPrefix} : p ∈ ordered qs ↔ p ∈ qs := by
  rw [ordered, Dict.mem_keys_ofList, List.map_map]
  simp

end Broadcaster

end IlpConnector
