import IlpConnector.Proofs.Looping

/-!
# What an update makes of one prefix

The first offer of a prefix that takes the place of its entry lets all later ones take it too, as
they are of the same neighbour (`Learning.get?_foldl_learn`).  So if an update reports a prefix at
all, its last offer is both what the neighbour has to offer and what is in the table when the
receiver is done (`Receiver.get?_apply_of_changed`, `Receiver.learned_apply_of_changed`).
-/

namespace IlpConnector

namespace Learning

variable {l : Learning} {own : Option Address} {a : Announcement} {p q : AddressPrefix} {o : Route}

/-! ## The entry of a prefix on the way -/

/-- The routes that announcements offer for a prefix, without those that have come through the
node. -/
def offers (peer : AccountId) (own : Option Address) (p : AddressPrefix)
    (as : List Announcement) : List Route :=
  (as.filter fun a => a.target = p ∧ loops own a = false).map (routeOf peer own)

theorem offers_concat (peer : AccountId) (own : Option Address) (p : AddressPrefix)
    (as : List Announcement) (a : Announcement) : offers peer own p (as ++ [a]) =
      if a.target = p ∧ loops own a = false then offers peer own p as ++ [routeOf peer own a]
      else offers peer own p as := by
  unfold offers
  rw [List.filter_append, List.map_append]
  split_ifs with ha <;> simp [ha]

theorem of_mem_offers {peer : AccountId} {as : List Announcement} (h : o ∈ offers peer own p as) :
    o.target = p ∧ o.nextHop = peer := by
  obtain ⟨a, ha, rfl⟩ := List.mem_map.mp h
  have htarget := (List.mem_filter.mp ha).2
  simp only [decide_eq_true_eq] at htarget
  exact ⟨htarget.1, rfl⟩

theorem prefers_congr {l' : Learning} (htable : l'.table.get? o.target = l.table.get? o.target)
    (hpeer : l'.receiver.peer = l.receiver.peer) : l'.prefers o = l.prefers o := by
  rw [prefers, prefers, htable, hpeer]

theorem get?_learn (hloop : loops own a = false) :
    (learn own l a).table.get? a.target =
      if l.prefers (routeOf l.receiver.peer own a) then some (routeOf l.receiver.peer own a)
      else l.table.get? a.target := by
  rcases learn_cases (l := l) hloop with ⟨htable, -, hpref⟩ | ⟨htable, -, hsame | hpref⟩
  · rw [htable, ForwardingTable.get?_set, if_pos hpref]
    exact if_pos rfl
  · rw [htable, hsame, ite_self]
  · rw [htable, hpref]
    rfl

/-- An offer is reported if it takes the place of another entry. -/
theorem mem_changed_learn (hloop : loops own a = false) :
    p ∈ (learn own l a).changed ↔ p ∈ l.changed ∨ a.target = p ∧
      l.prefers (routeOf l.receiver.peer own a) = true ∧
      l.table.get? p ≠ some (routeOf l.receiver.peer own a) := by
  have hset := l.table.set_fst_iff (routeOf l.receiver.peer own a)
  unfold learn
  rw [if_neg (by simp [hloop])]
  dsimp only
  split_ifs with hpref
  · split
    · rename_i table heq
      rw [heq] at hset
      simp only [List.mem_append, List.mem_singleton]
      refine or_congr_right ⟨?_, fun h => h.1.symm⟩
      rintro rfl
      exact ⟨rfl, hpref, hset.mp rfl⟩
    · rename_i table heq
      rw [heq] at hset
      refine ⟨Or.inl, fun h => h.resolve_right ?_⟩
      rintro ⟨rfl, -, hne⟩
      cases hset.mpr hne
  · simp [hpref]

/-- What the neighbour offers takes the place of what it has offered before. -/
theorem prefers_of_nextHop {e : Route} (he : l.table.get? o.target = some e)
    (hhop : e.nextHop = l.receiver.peer) : l.prefers o = true := by
  simp [prefers, he, hhop]

/-- An announcement that offers nothing for a prefix leaves its entry alone. -/
theorem table_learn_of_not (h : ¬ (a.target = p ∧ loops own a = false)) :
    (learn own l a).table.get? p = l.table.get? p := by
  by_cases hp : a.target = p
  · have hloop : loops own a = true := by simpa [hp] using h
    rw [learn_of_loops hloop]
  · exact table_learn_of_ne hp

theorem changed_learn_of_not (h : ¬ (a.target = p ∧ loops own a = false)) :
    p ∈ (learn own l a).changed ↔ p ∈ l.changed := by
  cases hloop : loops own a with
  | true => rw [learn_of_loops hloop]
  | false =>
    rw [mem_changed_learn hloop, or_iff_left]
    exact fun hp => h ⟨hp.1, hloop⟩

/-- Once an offer has taken its place all later ones do, as they are of the same neighbour. -/
theorem get?_foldl_learn (as : List Announcement) (l : Learning) :
    (as.foldl (learn own) l).table.get? p =
      if ∃ o ∈ offers l.receiver.peer own p as, l.prefers o = true then
        (offers l.receiver.peer own p as).getLast?
      else l.table.get? p := by
  -- from the end on, as the last announcement finds the entry that the others have made
  induction as using List.reverseRecOn with
  | nil => simp [offers]
  | append_singleton as a ih =>
    rw [List.foldl_concat, offers_concat]
    have hpeer := peer_foldl (peer_learn own) as l
    have hmem : ∀ x ∈ offers l.receiver.peer own p as, x.nextHop = l.receiver.peer := fun x hx =>
      (of_mem_offers hx).2
    generalize offers l.receiver.peer own p as = os at ih hmem ⊢
    generalize as.foldl (learn own) l = l' at ih hpeer ⊢
    by_cases ha : a.target = p ∧ loops own a = false
    · rw [if_pos ha]
      obtain ⟨rfl, hloop⟩ := ha
      rw [get?_learn hloop, hpeer, List.getLast?_concat]
      by_cases hex : ∃ o ∈ os, l.prefers o = true
      · have hne : os ≠ [] := by
          obtain ⟨o, ho, -⟩ := hex
          exact List.ne_nil_of_mem ho
        rw [if_pos hex, List.getLast?_eq_some_getLast hne] at ih
        have hpref : l'.prefers (routeOf l.receiver.peer own a) = true :=
          prefers_of_nextHop ih ((hmem _ (List.getLast_mem hne)).trans hpeer.symm)
        rw [if_pos hpref, if_pos]
        obtain ⟨o, ho, hpref'⟩ := hex
        exact ⟨o, List.mem_append_left _ ho, hpref'⟩
      · rw [if_neg hex] at ih
        rw [prefers_congr ih hpeer, ih]
        simp only [List.mem_append, List.mem_singleton, or_and_right, exists_or, hex, false_or,
          exists_eq_left]
    · rw [if_neg ha, table_learn_of_not ha, ih]

theorem mem_changed_foldl_learn (as : List Announcement) (l : Learning) :
    p ∈ (as.foldl (learn own) l).changed ↔ p ∈ l.changed ∨
      ∃ o ∈ offers l.receiver.peer own p as, l.prefers o = true ∧ l.table.get? p ≠ some o := by
  induction as using List.reverseRecOn with
  | nil => simp [offers]
  | append_singleton as a ih =>
    rw [List.foldl_concat, offers_concat]
    have hpeer := peer_foldl (peer_learn own) as l
    have hentry : (as.foldl (learn own) l).table.get? p = _ := get?_foldl_learn as l
    have hmem : ∀ x ∈ offers l.receiver.peer own p as, x.target = p ∧ x.nextHop = l.receiver.peer :=
      fun x hx => of_mem_offers hx
    generalize offers l.receiver.peer own p as = os at ih hmem hentry ⊢
    generalize as.foldl (learn own) l = l' at ih hpeer hentry ⊢
    by_cases ha : a.target = p ∧ loops own a = false
    · rw [if_pos ha, mem_changed_learn ha.2, ih]
      obtain ⟨rfl, hloop⟩ := ha
      by_cases hex : ∃ o ∈ os, l.prefers o = true ∧ l.table.get? a.target ≠ some o
      · obtain ⟨o, ho, hchange⟩ := hex
        exact iff_of_true (Or.inl (Or.inr ⟨o, ho, hchange⟩))
          (Or.inr ⟨o, List.mem_append_left _ ho, hchange⟩)
      · have hall : ∀ o ∈ os, l.prefers o = true → l.table.get? a.target = some o :=
          fun o ho hpref => by_contra fun hne => hex ⟨o, ho, hpref, hne⟩
        have hsame : l'.table.get? a.target = l.table.get? a.target := by
          rw [hentry]
          split_ifs with hpref
          · -- the entry is one of the offers, so the last offer is preferred, too, and no other
            obtain ⟨o, ho, hpref⟩ := hpref
            have hlast := List.getLast_mem (List.ne_nil_of_mem ho)
            rw [List.getLast?_eq_some_getLast (List.ne_nil_of_mem ho), hall _ hlast]
            refine prefers_of_nextHop ?_ (hmem o ho).2
            rw [(hmem _ hlast).1]
            exact hall o ho hpref
          · rfl
        rw [prefers_congr hsame hpeer, hsame, hpeer]
        simp only [List.mem_append, List.mem_singleton, or_and_right, exists_or, hex, or_false,
          false_or, exists_eq_left, true_and]
    · rw [if_neg ha, changed_learn_of_not ha, ih]

theorem withdraw_self (hback : l.leadsToPeer p = true → l.receiver.learned.get? p ≠ none) :
    (l.withdraw p).table.get? p = (if l.leadsToPeer p = true then none else l.table.get? p) ∧
      (p ∈ (l.withdraw p).changed ↔ p ∈ l.changed ∨ l.leadsToPeer p = true) := by
  cases hleads : l.leadsToPeer p with
  | true =>
    have hsome : (l.receiver.learned.get? p).isSome = true :=
      Option.isSome_iff_ne_none.mpr (hback hleads)
    simp [withdraw, hsome, hleads, ForwardingTable.get?_withdraw]
  | false =>
    unfold withdraw
    split_ifs <;> simp_all

/-- What leads to the neighbour loses its entry when it is withdrawn, and is reported. -/
theorem foldl_withdraw (hback : l.leadsToPeer p = true → l.receiver.learned.get? p ≠ none)
    (ws : List AddressPrefix) :
    (ws.foldl withdraw l).table.get? p =
        (if p ∈ ws ∧ l.leadsToPeer p = true then none else l.table.get? p) ∧
      (p ∈ (ws.foldl withdraw l).changed ↔ p ∈ l.changed ∨ p ∈ ws ∧ l.leadsToPeer p = true) := by
  induction ws generalizing l with
  | nil => simp
  | cons q ws ih =>
    rw [List.foldl_cons]
    by_cases hq : q = p
    · subst hq
      obtain ⟨hentry, hchanged⟩ := withdraw_self hback
      have hleads : (l.withdraw q).leadsToPeer q = false := by
        rw [leadsToPeer, hentry, peer_withdraw]
        split_ifs with h
        · rfl
        · simpa [leadsToPeer] using h
      obtain ⟨hentry', hchanged'⟩ := ih (l := l.withdraw q) (by simp [hleads])
      rw [hentry', hchanged', hleads, hentry, hchanged]
      simp
    · have hleads := leadsToPeer_congr (table_withdraw_of_ne hq) (peer_withdraw l q)
      have hchanged : p ∈ (l.withdraw q).changed ↔ p ∈ l.changed := by
        unfold withdraw
        split_ifs <;> simp [Ne.symm hq]
      obtain ⟨hentry', hchanged'⟩ := ih (l := l.withdraw q) (by
        rwa [hleads, learned_withdraw_of_ne hq])
      rw [hentry', hchanged', hleads, table_withdraw_of_ne hq, hchanged]
      simp [Ne.symm hq]

end Learning

namespace Receiver

open Learning

variable {r : Receiver} {table : ForwardingTable} {own : Option Address} {u : RouteUpdate}
  {p : AddressPrefix} {ps : List AddressPrefix}

/-- What an update has to say: nothing, if it is known already. -/
def news (r : Receiver) (u : RouteUpdate) : RouteUpdate :=
  if r.expects u < u.toEpoch then u else { u with announced := [], withdrawn := [] }

def offers (r : Receiver) (own : Option Address) (u : RouteUpdate) (p : AddressPrefix) :
    List Route :=
  Learning.offers r.peer own p (r.news u).announced

theorem apply_of_ok (hok : (r.apply table own u).2 = .ok ps) : ∃ epoch,
    (r.apply table own u).1 = ((r.news u).announced.foldl (learn own)
      ((r.news u).withdrawn.foldl withdraw (r.opened table u))).reach epoch := by
  have hepoch := r.epoch_opened table u
  unfold news
  rcases r.apply_cases table own u with ⟨-, h⟩ | ⟨-, hto, h⟩ | ⟨-, hto, hb, h⟩ | ⟨-, hto, -, h⟩
  · rw [h] at hok
    cases hok
  · rw [hepoch] at hto
    rw [h, if_neg (UInt32.not_lt.mpr hto)]
    exact ⟨_, rfl⟩
  · rw [hepoch] at hto
    obtain ⟨hnone, hnone'⟩ : u.announced = [] ∧ u.withdrawn = [] := by
      simpa [RouteUpdate.isHeartbeat] using hb
    rw [h, if_pos hto, hnone, hnone']
    exact ⟨_, rfl⟩
  · rw [hepoch] at hto
    rw [h, if_pos hto]
    exact ⟨_, rfl⟩

section

variable (hok : (r.apply table own u).2 = .ok ps)
  (hback : (r.opened table u).leadsToPeer p = true →
    (r.opened table u).receiver.learned.get? p ≠ none)

include hok hback

/-- An update reports a prefix if it withdraws its route or has an offer to take its place. -/
theorem mem_changed_apply_iff : p ∈ (r.apply table own u).1.changed ↔
    (p ∈ (r.news u).withdrawn ∧ (r.opened table u).leadsToPeer p = true) ∨
      ∃ o ∈ r.offers own u p, (r.opened table u).prefers o = true ∧
        (r.opened table u).table.get? p ≠ some o := by
  obtain ⟨epoch, happly⟩ := apply_of_ok hok
  obtain ⟨hentry, hchanged⟩ := foldl_withdraw hback (r.news u).withdrawn
  have hpeer := peer_foldl peer_withdraw (r.news u).withdrawn (r.opened table u)
  rw [happly, changed_reach, mem_changed_foldl_learn, hchanged, changed_opened, hpeer, peer_opened]
  simp only [List.not_mem_nil, false_or]
  by_cases hw : p ∈ (r.news u).withdrawn ∧ (r.opened table u).leadsToPeer p = true
  · simp [hw]
  · rw [if_neg hw] at hentry
    simp only [hw, false_or, hentry]
    refine exists_congr fun o => and_congr_right fun ho => ?_
    rw [prefers_congr _ hpeer]
    rw [(of_mem_offers ho).1, hentry]

/-- A prefix that is reported has the last offer for its route. -/
theorem get?_apply_of_changed (h : p ∈ (r.apply table own u).1.changed) :
    (r.apply table own u).1.table.get? p = (r.offers own u p).getLast? := by
  obtain ⟨epoch, happly⟩ := apply_of_ok hok
  obtain ⟨hentry, -⟩ := foldl_withdraw hback (r.news u).withdrawn
  have hpeer := peer_foldl peer_withdraw (r.news u).withdrawn (r.opened table u)
  rw [mem_changed_apply_iff hok hback] at h
  rw [happly, table_reach, get?_foldl_learn, hpeer, peer_opened, ← offers]
  have hmem : ∀ o ∈ r.offers own u p, o.target = p := fun o ho => (of_mem_offers ho).1
  generalize (r.news u).withdrawn.foldl withdraw (r.opened table u) = l at hentry hpeer ⊢
  split_ifs with hpref
  · rfl
  · by_cases hw : p ∈ (r.news u).withdrawn ∧ (r.opened table u).leadsToPeer p = true
    · rw [if_pos hw] at hentry
      have hnil : r.offers own u p = [] := List.eq_nil_iff_forall_not_mem.mpr fun o ho =>
        hpref ⟨o, ho, by rw [prefers, hmem o ho, hentry]⟩
      rw [hentry, hnil]
      rfl
    · rw [if_neg hw] at hentry
      obtain ⟨o, ho, hpref', -⟩ := h.resolve_left hw
      refine absurd ⟨o, ho, ?_⟩ hpref
      rw [prefers_congr _ hpeer, hpref']
      rw [hmem o ho, hentry]

theorem learned_apply_of_changed (h : p ∈ (r.apply table own u).1.changed) :
    (r.apply table own u).1.receiver.learned.get? p = (r.offers own u p).getLast? := by
  obtain ⟨epoch, happly⟩ := apply_of_ok hok
  rw [mem_changed_apply_iff hok hback] at h
  have hpeer := peer_foldl peer_withdraw (r.news u).withdrawn (r.opened table u)
  rw [happly, learned_reach, learned_foldl_learn, ← List.getLast?_map, hpeer, peer_opened]
  change (r.offers own u p).getLast?.or _ = _
  cases hlast : (r.offers own u p).getLast? with
  | some o => rfl
  | none =>
    rw [List.getLast?_eq_none_iff] at hlast
    rw [hlast] at h
    obtain ⟨hw, -⟩ | ⟨o, ho, -⟩ := h
    · simp [receiver_foldl_withdraw, Dict.get?_foldl_erase, hw]
    · cases ho

end

end Receiver

end IlpConnector
