import IlpConnector.Proofs.Offers
import IlpConnector.Proofs.Reselection

/-!
# What an update reports

An update tells the prefixes whose entries the receiver has changed on the way, and those whose
entries change when routes are chosen anew after that (`Broadcaster.mem_told_iff`).  These are not
always the prefixes whose entries are other ones in the end.  What the receiver takes away when the
neighbour turns to another table it does not report, so the loss is only told if another route takes
the place; and what it reports may have been put back before the update is done.  Apart from these
cases (`Broadcaster.Misreports`) an update tells just what has changed
(`Broadcaster.told_iff_of_update`).
-/

namespace IlpConnector

namespace Broadcaster

variable {b : Broadcaster} {r : Receiver} {own : Option Address} {u : RouteUpdate}
  {p : AddressPrefix} {a : AccountId} {current : Option AccountId} {e x y : Route}
  {told : List AddressPrefix}

/-- The best of what the receivers have learned is in use for every prefix that is not the node's
own. -/
structure KeepsBest (b : Broadcaster) : Prop where
  sound : b.Sound
  best : ∀ p, b.isOwn p = true ∨ b.Chosen p

/-- An update tells the wrong about a prefix: it does not tell that it has gone, or tells that it
has changed although it is as before. -/
inductive Misreports (b : Broadcaster) (r : Receiver) (own : Option Address) (u : RouteUpdate)
    (p : AddressPrefix) : Prop where
  /-- The route goes with the neighbour's table, and nobody has another one. -/
  | missed {e : Route} (hid : r.tableId ≠ u.tableId) (he : b.table.get? p = some e)
      (hhop : e.nextHop = r.peer) (hnone : r.offers own u p = [])
      (hothers : ∀ a x, a ≠ r.peer → ¬ b.Learned a p x)
  /-- The neighbour's route is taken away or replaced, and is back in the end. -/
  | restored {e : Route} (he : b.table.get? p = some e) (hhop : e.nextHop = r.peer)
      (hlast : (r.offers own u p).getLast? = some e)
      (hway : r.tableId ≠ u.tableId ∨ p ∈ (r.news u).withdrawn ∨ ∃ o ∈ r.offers own u p, o ≠ e)
  /-- Another neighbour's route gives way to a shorter offer, but the last offer is longer again. -/
  | overtaken {e o : Route} (he : b.table.get? p = some e) (hhop : e.nextHop ≠ r.peer)
      (hrec : ∃ r', b.receivers.get? e.nextHop = some r')
      (hshort : ∃ o ∈ r.offers own u p, o.path.length < e.path.length)
      (hlast : (r.offers own u p).getLast? = some o) (hlong : e.path.length < o.path.length)
      (hfirst : ∀ a x, a ≠ r.peer → b.Learned a p x → x.path.length = e.path.length →
        e.nextHop.text ≤ a.text)

theorem misreports_iff_of_peer (he : b.table.get? p = some e) (hhop : e.nextHop = r.peer) :
    b.Misreports r own u p ↔
      (r.tableId ≠ u.tableId ∧ r.offers own u p = [] ∧
        ∀ a x, a ≠ r.peer → ¬ b.Learned a p x) ∨
      ((r.offers own u p).getLast? = some e ∧
        (r.tableId ≠ u.tableId ∨ p ∈ (r.news u).withdrawn ∨ ∃ o ∈ r.offers own u p, o ≠ e)) := by
  constructor
  · intro h
    cases h with
    | missed hid _ _ hnone hothers => exact Or.inl ⟨hid, hnone, hothers⟩
    | restored he' _ hlast hway =>
      rw [he, Option.some.injEq] at he'
      subst he'
      exact Or.inr ⟨hlast, hway⟩
    | overtaken he' hhop' =>
      rw [he, Option.some.injEq] at he'
      exact absurd (he' ▸ hhop) hhop'
  · rintro (⟨hid, hnone, hothers⟩ | ⟨hlast, hway⟩)
    · exact .missed hid he hhop hnone hothers
    · exact .restored he hhop hlast hway

theorem misreports_iff_of_other (he : b.table.get? p = some e) (hhop : e.nextHop ≠ r.peer) :
    b.Misreports r own u p ↔ (∃ r', b.receivers.get? e.nextHop = some r') ∧
      (∃ o ∈ r.offers own u p, o.path.length < e.path.length) ∧
      ∃ o, (r.offers own u p).getLast? = some o ∧ e.path.length < o.path.length ∧
        ∀ a x, a ≠ r.peer → b.Learned a p x → x.path.length = e.path.length →
          e.nextHop.text ≤ a.text := by
  constructor
  · intro h
    cases h with
    | missed _ he' hhop' | restored he' hhop' =>
      rw [he, Option.some.injEq] at he'
      exact absurd (he' ▸ hhop') hhop
    | overtaken he' _ hrec hshort hlast hlong hfirst =>
      rw [he, Option.some.injEq] at he'
      subst he'
      exact ⟨hrec, hshort, _, hlast, hlong, hfirst⟩
  · rintro ⟨hrec, hshort, o, hlast, hlong, hfirst⟩
    exact .overtaken he hhop hrec hshort hlast hlong hfirst

theorem not_misreports_of_none (hnone : b.table.get? p = none) : ¬ b.Misreports r own u p := by
  rintro (⟨-, he⟩ | he | he) <;> simp [hnone] at he

theorem pairwise_ordered (qs : List AddressPrefix) :
    (ordered qs).Pairwise fun p q => p.text < q.text :=
  List.pairwise_map.mpr (Dict.sorted _)

/-- In an exchange of routes that began with own routes only, the best routes are always in use. -/
theorem KeepsBest.of_inv {start : ForwardingTable} {accounts : List AccountId}
    (h : RouteExchange.Inv start ⟨b, accounts⟩) : b.KeepsBest where
  sound := h.sound
  best p := by
    cases hp : start.get? p with
    | none => exact Or.inr (h.chosen p hp)
    | some e => exact Or.inl (isOwn_iff.mpr ⟨e, h.own p e hp, h.noReceiver p e hp⟩)

/-! ## What is told -/

theorem learn_ok_of_update (hok : (b.update r own u).1 = .ok told) :
    ∃ changed, (b.learn r own u).1 = .ok changed := by
  cases h : (b.learn r own u).1 with
  | ok changed => exact ⟨changed, rfl⟩
  | error g =>
    rw [update_of_learn_error h] at hok
    cases hok

theorem get?_update (hb : b.Sound) (hr : b.receivers.get? a = some r) :
    (b.update r own u).2.table.get? p =
      if p ∈ dropped r u ∨ p ∈ (r.apply b.table own u).1.changed then
        (b.learn r own u).2.choice p
      else (r.apply b.table own u).1.table.get? p := by
  simp only [update_snd, get?_select (sound_learn hb hr), mem_ordered, List.mem_append, table_learn]

/-- The receiver's own report and that of the choice are put together. -/
theorem mem_told_iff (hb : b.Sound) (hr : b.receivers.get? a = some r)
    (hok : (b.update r own u).1 = .ok told) :
    p ∈ told ↔ p ∈ (r.apply b.table own u).1.changed ∨
      (b.update r own u).2.table.get? p ≠ (r.apply b.table own u).1.table.get? p := by
  obtain ⟨changed, hlearn⟩ := learn_ok_of_update hok
  have hchanged : (r.apply b.table own u).1.changed = changed :=
    Receiver.changed_of_apply_ok hlearn
  rw [update_of_learn_ok hlearn, Except.ok.injEq] at hok
  rw [← hok, mem_ordered, List.mem_append, mem_select_fst (sound_learn hb hr), mem_ordered,
    List.mem_append, get?_update hb hr, table_learn, hchanged]
  split_ifs with hmem
  · simp [hmem]
  · simp [hmem]

theorem pairwise_told (hok : (b.update r own u).1 = .ok told) :
    told.Pairwise fun p q => p.text < q.text := by
  obtain ⟨changed, hlearn⟩ := learn_ok_of_update hok
  rw [update_of_learn_ok hlearn, Except.ok.injEq] at hok
  exact hok ▸ pairwise_ordered _

/-! ## A prefix that the update finds with its best route -/

theorem get?_receivers_of_nextHop (hb : b.Sound) (hr : b.receivers.get? a = some r)
    (hhop : e.nextHop = r.peer) : b.receivers.get? e.nextHop = some r := by
  rw [hhop, (hb a r hr).1, hr]

theorem KeepsBest.chosen (hb : b.KeepsBest) (he : b.table.get? p = some e)
    (hrec : ∃ r, b.receivers.get? e.nextHop = some r) : b.Chosen p := by
  refine (hb.best p).resolve_left fun hown => ?_
  obtain ⟨e', he', hnone⟩ := isOwn_iff.mp hown
  obtain ⟨r, hr⟩ := hrec
  rw [he, Option.some.injEq] at he'
  rw [← he', hr] at hnone
  cases hnone

theorem get?_opened_eq : (r.opened b.table u).table.get? p =
    if r.tableId ≠ u.tableId ∧ ∃ e, b.table.get? p = some e ∧ e.nextHop = r.peer then none
    else b.table.get? p := by
  unfold Receiver.opened
  split_ifs with hid h h
  · exact absurd hid h.1
  · rfl
  · obtain ⟨-, e, he, hhop⟩ := h
    refine Option.eq_none_iff_forall_ne_some.mpr fun e' he' => ?_
    obtain ⟨he', hne⟩ := Learning.get?_adopt.mp he'
    rw [show b.table.get? p = some e' from he', Option.some.injEq] at he
    exact hne (he ▸ hhop)
  · refine Option.ext fun e => ?_
    rw [Learning.get?_adopt]
    exact and_iff_left_of_imp fun he hhop => h ⟨hid, e, he, hhop⟩

theorem KeepsBest.backed (hb : b.KeepsBest) (hr : b.receivers.get? a = some r)
    (h : (r.opened b.table u).leadsToPeer p = true) :
    (r.opened b.table u).receiver.learned.get? p ≠ none := by
  obtain ⟨e, he, hhop⟩ := Learning.leadsToPeer_iff.mp h
  rw [Receiver.peer_opened] at hhop
  have hchosen : b.Chosen p :=
    hb.chosen (get?_of_opened he) ⟨r, get?_receivers_of_nextHop hb.sound hr hhop⟩
  rw [(matched_opened hb.sound hr hchosen).backed e he (hhop.trans Receiver.peer_opened.symm)]
  simp

theorem learned_learn : (b.learn r own u).2.Learned a p x ↔
    if a = r.peer then (r.apply b.table own u).1.receiver.learned.get? p = some x
    else b.Learned a p x := by
  split_ifs with ha
  · rw [ha, learned_learn_self]
  · exact learned_learn_of_ne ha

theorem rank_le_iff_of_ne (hx : some x.nextHop ≠ current) (hy : some y.nextHop ≠ current) :
    rank current x ≤ rank current y ↔ x.path.length < y.path.length ∨
      x.path.length = y.path.length ∧ x.nextHop.text ≤ y.nextHop.text := by
  simp only [rank, Prod.Lex.toLex_le_toLex, if_neg hx, if_neg hy, lt_irrefl, false_or, true_and]

theorem rank_le_iff_of_current (hx : some x.nextHop ≠ current) (hy : some y.nextHop = current) :
    rank current x ≤ rank current y ↔ x.path.length < y.path.length := by
  simp [rank, Prod.Lex.toLex_le_toLex, if_neg hx, if_pos hy]

/-- A route that goes with the neighbour's table, and is not offered anew, gives way to the best of
the other neighbours. -/
theorem get?_update_of_dropped (hb : b.KeepsBest) (hr : b.receivers.get? a = some r)
    (hp : p ∉ (r.apply b.table own u).1.changed)
    (hid : r.tableId ≠ u.tableId) (he : b.table.get? p = some e) (hhop : e.nextHop = r.peer) :
    (b.update r own u).2.table.get? p ≠ some e ∧
      ((b.update r own u).2.table.get? p = none ↔ ∀ a x, a ≠ r.peer → ¬ b.Learned a p x) := by
  have hsound : (b.learn r own u).2.Sound := sound_learn hb.sound hr
  have hrec : b.receivers.get? e.nextHop = some r := get?_receivers_of_nextHop hb.sound hr hhop
  have hchosen : b.Chosen p := hb.chosen he ⟨r, hrec⟩
  have hdropped : p ∈ dropped r u := by
    obtain ⟨r', hr', hx⟩ := hchosen.backed e he
    rw [hrec, Option.some.injEq] at hr'
    rw [dropped, if_neg hid]
    exact Dict.mem_keys.mpr ⟨e, hr' ▸ hx⟩
  have hlearned : ∀ a x, (b.learn r own u).2.Learned a p x ↔ a ≠ r.peer ∧ b.Learned a p x := by
    intro a' x
    rw [learned_learn]
    split_ifs with hpeer
    · -- what the neighbour has learned would be in use
      refine iff_of_false (fun hx => ?_) fun h => h.1 hpeer
      have htracks := r.tracks_apply b.table own u p
      obtain ⟨e', he', -⟩ := (htracks.matched hp (matched_opened hb.sound hr hchosen)).best x hx
      rw [htracks.entry hp, get?_opened_eq, if_pos ⟨hid, e, he, hhop⟩] at he'
      cases he'
    · simp [hpeer]
  rw [get?_update hb.sound hr, if_pos (Or.inl hdropped),
    choice_of_not_isOwn (isOwn_learn hb.sound hr hchosen)]
  refine ⟨fun hbest => ?_, ?_⟩
  · obtain ⟨a', ha'⟩ := mem_learnedRoutes.mp (mem_of_bestRoute hbest)
    exact ((hlearned a' e).mp ha').1 ((ha'.sound hsound).2.symm.trans hhop)
  · rw [bestRoute_eq_argmin, List.argmin_eq_none, List.eq_nil_iff_forall_not_mem]
    simp only [mem_learnedRoutes, hlearned, not_exists, not_and]
    exact forall_comm

section

variable (hb : b.KeepsBest) (hr : b.receivers.get? a = some r)
  (hok : (b.update r own u).1 = .ok told)

include hb hr hok

theorem mem_changed_iff : p ∈ (r.apply b.table own u).1.changed ↔
    (p ∈ (r.news u).withdrawn ∧ (r.opened b.table u).leadsToPeer p = true) ∨
      ∃ o ∈ r.offers own u p, (r.opened b.table u).prefers o = true ∧
        (r.opened b.table u).table.get? p ≠ some o := by
  obtain ⟨changed, hlearn⟩ := learn_ok_of_update hok
  exact Receiver.mem_changed_apply_iff hlearn (hb.backed hr)

/-- The receiver reports another neighbour's route that an offer is shorter than. -/
theorem mem_changed_iff_of_other (he : b.table.get? p = some e) (hhop : e.nextHop ≠ r.peer) :
    p ∈ (r.apply b.table own u).1.changed ↔
      ∃ o ∈ r.offers own u p, o.path.length < e.path.length := by
  have hopened : (r.opened b.table u).table.get? p = some e := by
    rw [get?_opened_eq, if_neg, he]
    rintro ⟨-, e', he', hhop'⟩
    rw [he, Option.some.injEq] at he'
    exact hhop (he' ▸ hhop')
  have hleads : (r.opened b.table u).leadsToPeer p = false := by
    simp [Learning.leadsToPeer, hopened, Receiver.peer_opened, hhop]
  rw [mem_changed_iff hb hr hok, hleads, hopened]
  simp only [Bool.false_eq_true, and_false, false_or]
  refine exists_congr fun o => and_congr_right fun ho => ?_
  obtain ⟨htarget, hpeer⟩ := Learning.of_mem_offers ho
  rw [Learning.prefers, htarget, hopened]
  simp only [Receiver.peer_opened, hhop, decide_false, Bool.false_or, decide_eq_true_eq,
    and_iff_left_iff_imp]
  rintro - heq
  exact hhop (Option.some.inj heq ▸ hpeer)

/-- The receiver reports a prefix that has no entry when the update is looked at, if there is an
offer. -/
theorem mem_changed_iff_of_none (hnone : (r.opened b.table u).table.get? p = none) :
    p ∈ (r.apply b.table own u).1.changed ↔ r.offers own u p ≠ [] := by
  have hleads : (r.opened b.table u).leadsToPeer p = false := by
    simp [Learning.leadsToPeer, hnone]
  rw [mem_changed_iff hb hr hok, hleads, hnone]
  simp only [Bool.false_eq_true, and_false, false_or]
  constructor
  · rintro ⟨o, ho, -⟩
    exact List.ne_nil_of_mem ho
  · intro hne
    obtain ⟨o, ho⟩ := List.exists_mem_of_ne_nil _ hne
    refine ⟨o, ho, ?_, (Option.some_ne_none o).symm⟩
    rw [Learning.prefers, (Learning.of_mem_offers ho).1, hnone]

theorem mem_changed_iff_of_peer (hid : r.tableId = u.tableId) (he : b.table.get? p = some e)
    (hhop : e.nextHop = r.peer) : p ∈ (r.apply b.table own u).1.changed ↔
      p ∈ (r.news u).withdrawn ∨ ∃ o ∈ r.offers own u p, o ≠ e := by
  have hopened : (r.opened b.table u).table.get? p = some e := by
    rw [get?_opened_eq, if_neg fun h => h.1 hid, he]
  have hpeer : e.nextHop = (r.opened b.table u).receiver.peer :=
    hhop.trans Receiver.peer_opened.symm
  rw [mem_changed_iff hb hr hok, Learning.leadsToPeer_iff.mpr ⟨e, hopened, hpeer⟩, hopened]
  simp only [and_true]
  refine or_congr_right (exists_congr fun o => and_congr_right fun ho => ?_)
  have hpref : (r.opened b.table u).prefers o = true :=
    Learning.prefers_of_nextHop ((Learning.of_mem_offers ho).1 ▸ hopened) hpeer
  simp [hpref, eq_comm]

/-- What has been reported by the receiver is chosen anew between the last offer, which is in use,
and the other neighbours' routes. -/
theorem get?_update_of_changed (hp : p ∈ (r.apply b.table own u).1.changed) :
    (b.update r own u).2.table.get? p =
        bestRoute ((r.offers own u p).getLast?.map fun _ => r.peer)
          ((b.learn r own u).2.learnedRoutes p) ∧
      ∀ a x, (b.learn r own u).2.Learned a p x ↔
        if a = r.peer then (r.offers own u p).getLast? = some x else b.Learned a p x := by
  obtain ⟨changed, hlearn⟩ := learn_ok_of_update hok
  have hentry := Receiver.get?_apply_of_changed hlearn (hb.backed hr) hp
  have hlearned := Receiver.learned_apply_of_changed hlearn (hb.backed hr) hp
  have howner : (b.learn r own u).2.owner? p
      = (r.offers own u p).getLast?.map fun _ => r.peer := by
    rw [owner?, table_learn, hentry]
    cases hlast : (r.offers own u p).getLast? with
    | none => rfl
    | some o => exact congrArg some (Learning.of_mem_offers (List.mem_of_getLast? hlast)).2
  have hown : (b.learn r own u).2.isOwn p = false := by
    rw [isOwn, howner, receivers_learn]
    cases (r.offers own u p).getLast? <;> simp [Dict.contains_insert_self]
  refine ⟨?_, fun a x => ?_⟩
  · rw [get?_update hb.sound hr, if_pos (Or.inr hp), choice_of_not_isOwn hown, howner]
  · rw [learned_learn, hlearned]

/-- The neighbour's route is back if it is the last offer. -/
theorem get?_update_eq_iff_of_peer (hp : p ∈ (r.apply b.table own u).1.changed)
    (he : b.table.get? p = some e) (hhop : e.nextHop = r.peer) :
    (b.update r own u).2.table.get? p = some e ↔ (r.offers own u p).getLast? = some e := by
  obtain ⟨hget, hlearned⟩ := get?_update_of_changed hb hr hok hp
  have hsound : (b.learn r own u).2.Sound := sound_learn hb.sound hr
  rw [hget]
  constructor
  · intro h
    obtain ⟨a', ha'⟩ := mem_learnedRoutes.mp (mem_of_bestRoute h)
    obtain rfl : r.peer = a' := hhop.symm.trans (ha'.sound hsound).2
    simpa using (hlearned r.peer e).mp ha'
  · intro hlast
    have hmem : (b.learn r own u).2.Learned r.peer p e :=
      (hlearned r.peer e).mpr (by rw [if_pos rfl, hlast])
    have hchosen : b.Chosen p := hb.chosen he ⟨r, get?_receivers_of_nextHop hb.sound hr hhop⟩
    refine bestRoute_eq_of_current hsound (mem_learnedRoutes.mpr ⟨_, hmem⟩) (by simp [hlast, hhop])
      fun y hy => ?_
    obtain ⟨a', ha'⟩ := mem_learnedRoutes.mp hy
    rw [hlearned] at ha'
    split_ifs at ha' with hpeer
    · rw [hlast, Option.some.injEq] at ha'
      rw [ha']
    · obtain ⟨e', he', hle⟩ := hchosen.best a' y ha'
      rw [he, Option.some.injEq] at he'
      exact he' ▸ hle

/-- Another neighbour's route is back if the last offer is longer, and the neighbour comes first of
those with a route as long. -/
theorem get?_update_eq_iff_of_other (hp : p ∈ (r.apply b.table own u).1.changed)
    (he : b.table.get? p = some e) (hhop : e.nextHop ≠ r.peer) :
    (b.update r own u).2.table.get? p = some e ↔
      (∃ r', b.receivers.get? e.nextHop = some r') ∧
      ∃ o, (r.offers own u p).getLast? = some o ∧ e.path.length < o.path.length ∧
        ∀ a x, a ≠ r.peer → b.Learned a p x → x.path.length = e.path.length →
          e.nextHop.text ≤ a.text := by
  obtain ⟨hget, hlearned⟩ := get?_update_of_changed hb hr hok hp
  have hsound : (b.learn r own u).2.Sound := sound_learn hb.sound hr
  have hne : r.offers own u p ≠ [] := by
    obtain ⟨o, ho, -⟩ := (mem_changed_iff_of_other hb hr hok he hhop).mp hp
    exact List.ne_nil_of_mem ho
  obtain ⟨o, hlast⟩ : ∃ o, (r.offers own u p).getLast? = some o :=
    ⟨_, List.getLast?_eq_some_getLast hne⟩
  have hlast' := (Learning.of_mem_offers (List.mem_of_getLast? hlast)).2
  rw [hget, hlast, Option.map_some, bestRoute_eq_some_iff hsound fun _ => Iff.rfl]
  simp only [Option.some.injEq, exists_eq_left']
  have hcurrent : some e.nextHop ≠ some r.peer := fun h => hhop (Option.some.inj h)
  simp only [mem_learnedRoutes, hlearned, forall_exists_index]
  constructor
  -- the last offer is in use, so of routes as long it would be chosen
  · rintro ⟨⟨a', ha'⟩, hbest⟩
    have hpeer : a' ≠ r.peer := by
      rintro rfl
      rw [if_pos rfl, hlast, Option.some.injEq] at ha'
      exact hhop (ha' ▸ hlast')
    rw [if_neg hpeer] at ha'
    obtain rfl : e.nextHop = a' := (ha'.sound hb.sound).2
    obtain ⟨r', hr', -⟩ := ha'
    refine ⟨⟨r', hr'⟩, ?_, fun a x ha hx hlen => ?_⟩
    · exact (rank_le_iff_of_current hcurrent (congrArg some hlast')).mp
        (hbest o r.peer (by rw [if_pos rfl, hlast]))
    · have hx' : x.nextHop = a := (hx.sound hb.sound).2
      have hrank := hbest x a (by rwa [if_neg ha])
      rw [rank_le_iff_of_ne hcurrent fun h => ha (hx' ▸ Option.some.inj h), hlen, hx'] at hrank
      exact (hrank.resolve_left (lt_irrefl _)).2
  · rintro ⟨hrec, hlong, hfirst⟩
    have hchosen := hb.chosen he hrec
    refine ⟨⟨e.nextHop, by rw [if_neg hhop]; exact hchosen.backed e he⟩, fun x a' hx => ?_⟩
    split_ifs at hx with hpeer
    · rw [hlast, Option.some.injEq] at hx
      subst hx
      exact (rank_le_iff_of_current hcurrent (congrArg some hlast')).mpr hlong
    · have hx' := (hx.sound hb.sound).2
      refine (rank_le_iff_of_ne hcurrent fun h => hpeer ?_).mpr ?_
      · rw [← hx', Option.some.inj h]
      · obtain ⟨e', he', hle⟩ := hchosen.best a' x hx
        rw [he, Option.some.injEq] at he'
        subst he'
        exact hle.lt_or_eq.imp_right fun heq => ⟨heq, hx' ▸ hfirst a' x hpeer hx heq.symm⟩

/-- A prefix that the receiver has reported is misreported if it has its route again in the end. -/
theorem get?_update_eq_iff_of_changed (hp : p ∈ (r.apply b.table own u).1.changed) :
    (b.update r own u).2.table.get? p = b.table.get? p ↔ b.Misreports r own u p := by
  cases hentry : b.table.get? p with
  | none =>
    refine iff_of_false (fun hget => ?_) (not_misreports_of_none hentry)
    have hopened : (r.opened b.table u).table.get? p = none := by
      rw [get?_opened_eq, hentry, ite_self]
    have hne := (mem_changed_iff_of_none hb hr hok hopened).mp hp
    obtain ⟨hbest, hlearned⟩ := get?_update_of_changed hb hr hok hp
    have hlast : (b.learn r own u).2.Learned r.peer p ((r.offers own u p).getLast hne) :=
      (hlearned _ _).mpr (by rw [if_pos rfl, List.getLast?_eq_some_getLast])
    obtain ⟨x, hx, -⟩ := bestRoute_le _ (mem_learnedRoutes.mpr ⟨_, hlast⟩)
    rw [← hbest, hget] at hx
    cases hx
  | some e =>
    by_cases hhop : e.nextHop = r.peer
    · rw [get?_update_eq_iff_of_peer hb hr hok hp hentry hhop, misreports_iff_of_peer hentry hhop]
      constructor
      · intro hlast
        refine Or.inr ⟨hlast, or_iff_not_imp_left.mpr fun hid => ?_⟩
        exact (mem_changed_iff_of_peer hb hr hok (not_not.mp hid) hentry hhop).mp hp
      · rintro (⟨hid, hnil, -⟩ | ⟨hlast, -⟩)
        · have hopened : (r.opened b.table u).table.get? p = none := by
            rw [get?_opened_eq, if_pos ⟨hid, e, hentry, hhop⟩]
          exact absurd hnil ((mem_changed_iff_of_none hb hr hok hopened).mp hp)
        · exact hlast
    · rw [get?_update_eq_iff_of_other hb hr hok hp hentry hhop,
        misreports_iff_of_other hentry hhop,
        and_iff_right ((mem_changed_iff_of_other hb hr hok hentry hhop).mp hp)]

/-- A prefix that the receiver has not reported is misreported if its route has gone with the
neighbour's table. -/
theorem told_iff_of_not_changed (hp : p ∉ (r.apply b.table own u).1.changed) :
    (p ∈ told ↔ (b.update r own u).2.table.get? p ≠ b.table.get? p) ↔
      ¬ b.Misreports r own u p := by
  rw [mem_told_iff hb.sound hr hok, or_iff_right hp, (r.tracks_apply b.table own u p).entry hp]
  by_cases hdrops : r.tableId ≠ u.tableId ∧ ∃ e, b.table.get? p = some e ∧ e.nextHop = r.peer
  · obtain ⟨hid, e, he, hhop⟩ := id hdrops
    have hopened : (r.opened b.table u).table.get? p = none := by
      rw [get?_opened_eq, if_pos hdrops]
    have hnil : r.offers own u p = [] :=
      not_not.mp ((mem_changed_iff_of_none hb hr hok hopened).not.mp hp)
    obtain ⟨hne, hnone⟩ := get?_update_of_dropped hb hr hp hid he hhop
    rw [hopened, he, misreports_iff_of_peer he hhop, ← hnone, hnil]
    simp [hne, hid]
  · rw [get?_opened_eq, if_neg hdrops]
    refine iff_of_true Iff.rfl fun h => hp ?_
    cases h with
    | missed hid he hhop => exact absurd ⟨hid, _, he, hhop⟩ hdrops
    | restored he hhop _ hway =>
      by_cases hid : r.tableId = u.tableId
      · exact (mem_changed_iff_of_peer hb hr hok hid he hhop).mpr
          (hway.resolve_left (not_not.mpr hid))
      · exact absurd ⟨hid, _, he, hhop⟩ hdrops
    | overtaken he hhop _ hshort =>
      exact (mem_changed_iff_of_other hb hr hok he hhop).mpr hshort

end

/-- An update that is not refused tells prefixes in order, each one once.  Of a prefix it tells just
whether its entry has changed, unless the route has gone with the neighbour's table and nobody has
another one, or the route has been taken away or overtaken on the way and is back in the end. -/
theorem told_iff_of_update (hb : b.KeepsBest) (hr : b.receivers.get? a = some r)
    (hok : (b.update r own u).1 = .ok told) :
    told.Pairwise (fun p q => p.text < q.text) ∧
      ∀ p, (p ∈ told ↔ (b.update r own u).2.table.get? p ≠ b.table.get? p) ↔
        ¬ b.Misreports r own u p := by
  refine ⟨pairwise_told hok, fun p => ?_⟩
  by_cases hp : p ∈ (r.apply b.table own u).1.changed
  · have htold : p ∈ told := (mem_told_iff hb.sound hr hok).mpr (Or.inl hp)
    simp only [htold, true_iff, ne_eq, get?_update_eq_iff_of_changed hb hr hok hp]
  · exact told_iff_of_not_changed hb hr hok hp

/-! ### A neighbour that turns to another table -/

namespace Turnover

open Comeback

/-- An offer of the prefix over so many nodes. -/
def through (nodes : ℕ) : Announcement := .plain shared (List.replicate nodes .unsetOperator)

/-- What the near neighbour has told: the prefix is one node away from it. -/
def firstTold : RouteUpdate := .first (.plain 3) [through 1]

def receiver : Receiver :=
  (nearFirst.apply both.table none firstTold).1.receiver

/-- The far neighbour has told nothing yet. -/
def state : Broadcaster := (both.update nearFirst none firstTold).2

theorem receivers_state : state.receivers.get? near.id = some receiver := by
  rw [state, receivers_update]
  exact Dict.get?_insert_self _ _ _

theorem keepsBest_state : state.KeepsBest := by
  have hnone : ∀ p e, nobody.table.get? p ≠ some e := nofun
  have hbegins : RouteExchange.Begins nobody := ⟨rfl, fun p e he => absurd he (hnone p e)⟩
  have hnear : RouteExchange.Step nobody.table ⟨nobody, []⟩
      ⟨(nobody.register near ⟨0⟩ (.plain 1)).2, [near.id]⟩ :=
    .register near ⟨0⟩ (.plain 1) List.not_mem_nil fun p e he => absurd he (hnone p e)
  have hboth : RouteExchange.Step nobody.table ⟨(nobody.register near ⟨0⟩ (.plain 1)).2, [near.id]⟩
      ⟨both, [far.id, near.id]⟩ :=
    .register far ⟨1⟩ (.plain 2) (by decide) fun p e he => absurd he (hnone p e)
  have hrec : both.receivers.get? near.id = some nearFirst := by
    rw [get?_receivers_both, if_neg (by decide), if_pos rfl]
  have hstate : RouteExchange.Step nobody.table ⟨both, [far.id, near.id]⟩
      ⟨state, [far.id, near.id]⟩ := .update none firstTold hrec
  have hrun := ((Relation.ReflTransGen.single hnear).tail hboth).tail hstate
  exact .of_inv (RouteExchange.inv_run hbegins hrun)

end Turnover

open Turnover Comeback

/-- The near neighbour takes its offer back, and this is told. -/
theorem told_iff_of_update_withdrawn :
    let u := { RouteUpdate.first (.plain 3) [] with
      currentEpoch := 2, fromEpoch := 1, toEpoch := 2, withdrawn := [shared] }
    state.KeepsBest ∧ state.receivers.get? near.id = some receiver ∧
      (state.update receiver none u).1 = .ok [shared] ∧
      ¬ state.Misreports receiver none u shared := by
  intro u
  have hok : (state.update receiver none u).1 = .ok [shared] := by decide +kernel
  have hchanged : (state.update receiver none u).2.table.get? shared
      ≠ state.table.get? shared := by decide +kernel
  obtain ⟨-, hiff⟩ := told_iff_of_update keepsBest_state receivers_state hok
  exact ⟨keepsBest_state, receivers_state, hok,
    (hiff shared).mp (iff_of_true (by simp) hchanged)⟩

/-- The near neighbour starts another table, and the prefix is lost without a word.  If it offers
the prefix again at once, a change is told although there is none. -/
theorem told_wrong :
    state.KeepsBest ∧ state.receivers.get? near.id = some receiver ∧
      (let lost := state.update receiver none (.first (.plain 4) [])
       lost.1 = .ok [] ∧ lost.2.table.get? shared ≠ state.table.get? shared) ∧
      (let again := state.update receiver none (.first (.plain 4) [through 1])
       again.1 = .ok [shared] ∧ again.2.table.get? shared = state.table.get? shared) := by
  refine ⟨keepsBest_state, receivers_state, ⟨by decide +kernel, by decide +kernel⟩,
    by decide +kernel, ?_⟩
  have hbefore : state.table.get? shared = some (Learning.routeOf near.id none (through 1)) := by
    decide +kernel
  rw [hbefore]
  decide +kernel

end Broadcaster

end IlpConnector
