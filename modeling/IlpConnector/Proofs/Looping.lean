import IlpConnector.Proofs.LogReplay
import IlpConnector.Proofs.Reregistration

/-!
# Offers that have come through this node

An offer whose path leads through the node itself is skipped.  What the neighbour has offered before
is not forgotten for it: after an update nothing of the neighbour is in use for a prefix
(`Learning.Without`) just if the update has no other offer of the prefix, and nothing was in use
before, the update is about another table, or it withdraws what was learned
(`Receiver.without_apply_iff_of_loops`).
-/

namespace IlpConnector

namespace Learning

variable {l : Learning} {own : Option Address} {a : Announcement} {p q : AddressPrefix}

/-- Nothing of the neighbour is in use for a prefix. -/
def Without (l : Learning) (p : AddressPrefix) : Prop :=
  l.receiver.learned.get? p = none ∧ l.leadsToPeer p = false

instance (l : Learning) (p : AddressPrefix) : Decidable (l.Without p) :=
  inferInstanceAs (Decidable (_ ∧ _))

theorem leadsToPeer_congr {l' : Learning} (htable : l'.table.get? p = l.table.get? p)
    (hpeer : l'.receiver.peer = l.receiver.peer) : l'.leadsToPeer p = l.leadsToPeer p := by
  rw [leadsToPeer, leadsToPeer, htable, hpeer]

/-! ## Withdrawals -/

theorem table_withdraw_of_ne (h : q ≠ p) : (l.withdraw q).table.get? p = l.table.get? p := by
  unfold withdraw
  split_ifs <;> simp [ForwardingTable.get?_withdraw, h]

theorem without_withdraw_self (h : l.receiver.learned.get? p ≠ none) : (l.withdraw p).Without p := by
  have hsome : (l.receiver.learned.get? p).isSome = true := Option.isSome_iff_ne_none.mpr h
  unfold withdraw
  rw [if_pos hsome]
  dsimp only
  split_ifs with hleads
  · simp [Without, leadsToPeer, ForwardingTable.get?_withdraw]
  · refine ⟨by simp, ?_⟩
    simpa [leadsToPeer] using hleads

theorem learned_withdraw_of_ne (h : q ≠ p) :
    (l.withdraw q).receiver.learned.get? p = l.receiver.learned.get? p := by
  rw [receiver_withdraw]
  exact Dict.get?_erase_of_ne _ h

/-- Only what was learned is withdrawn. -/
theorem without_withdraw :
    (l.withdraw q).Without p ↔ l.Without p ∨ q = p ∧ l.receiver.learned.get? p ≠ none := by
  by_cases hq : q = p
  · subst hq
    by_cases hnone : l.receiver.learned.get? q = none
    · have hsame : l.withdraw q = l := by simp [withdraw, hnone]
      simp [hsame, hnone]
    · simp [without_withdraw_self hnone, hnone]
  · have hleads := leadsToPeer_congr (table_withdraw_of_ne hq) (peer_withdraw l q)
    simp [Without, hleads, learned_withdraw_of_ne hq, hq]

theorem table_foldl_withdraw {qs : List AddressPrefix} (h : p ∉ qs) (l : Learning) :
    (qs.foldl withdraw l).table.get? p = l.table.get? p := by
  induction qs generalizing l with
  | nil => rfl
  | cons q qs ih =>
    rw [List.mem_cons, not_or] at h
    rw [List.foldl_cons, ih h.2, table_withdraw_of_ne (Ne.symm h.1)]

theorem without_foldl_withdraw (qs : List AddressPrefix) (l : Learning) :
    (qs.foldl withdraw l).Without p ↔
      l.Without p ∨ p ∈ qs ∧ l.receiver.learned.get? p ≠ none := by
  induction qs generalizing l with
  | nil => simp
  | cons q qs ih =>
    rw [List.foldl_cons, ih, without_withdraw]
    by_cases hq : q = p
    · subst hq
      simp [receiver_withdraw]
    · simp [learned_withdraw_of_ne hq, hq, Ne.symm hq]

/-! ## Offers -/

theorem learn_of_loops (h : loops own a = true) : learn own l a = l := by
  rw [learn, if_pos h]

theorem table_learn_of_ne (h : a.target ≠ p) : (learn own l a).table.get? p = l.table.get? p := by
  cases hloop : loops own a with
  | true => rw [learn_of_loops hloop]
  | false =>
    rcases learn_cases (l := l) hloop with ⟨htable, -, -⟩ | ⟨htable, -, -⟩
    · rw [htable, ForwardingTable.get?_set]
      exact if_neg h
    · rw [htable]

theorem learned_learn (own : Option Address) (l : Learning) (a : Announcement) :
    (learn own l a).receiver.learned.get? p =
      if a.target = p ∧ loops own a = false then some (routeOf l.receiver.peer own a)
      else l.receiver.learned.get? p := by
  rw [receiver_learn]
  by_cases hp : a.target = p
  · subst hp
    cases loops own a <;> simp
  · cases loops own a <;> simp [hp, Dict.get?_insert_of_ne]

/-- An offer that has come through the node makes no difference. -/
theorem without_learn :
    (learn own l a).Without p ↔ l.Without p ∧ (a.target = p → loops own a = true) := by
  cases hloop : loops own a with
  | true => simp [learn_of_loops hloop]
  | false =>
    by_cases hp : a.target = p
    · simp [Without, learned_learn, hp, hloop]
    · have hleads := leadsToPeer_congr (table_learn_of_ne hp) (peer_learn own l a)
      simp [Without, learned_learn, hleads, hp]

theorem without_foldl_learn (as : List Announcement) (l : Learning) :
    (as.foldl (learn own) l).Without p ↔
      l.Without p ∧ ∀ a ∈ as, a.target = p → loops own a = true := by
  induction as generalizing l with
  | nil => simp
  | cons a as ih => rw [List.foldl_cons, ih, without_learn, List.forall_mem_cons, and_assoc]

theorem table_foldl_learn {as : List Announcement}
    (h : ∀ a ∈ as, a.target = p → loops own a = true) (l : Learning) :
    (as.foldl (learn own) l).table.get? p = l.table.get? p := by
  induction as generalizing l with
  | nil => rfl
  | cons a as ih =>
    rw [List.forall_mem_cons] at h
    rw [List.foldl_cons, ih h.2]
    by_cases hp : a.target = p
    · rw [learn_of_loops (h.1 hp)]
    · exact table_learn_of_ne hp

/-- What is learned of a prefix is its last offer that has not come through the node. -/
theorem learned_foldl_learn (as : List Announcement) (l : Learning) :
    (as.foldl (learn own) l).receiver.learned.get? p =
      ((as.filter fun a => a.target = p ∧ loops own a = false).getLast?.map
        (routeOf l.receiver.peer own)).or (l.receiver.learned.get? p) := by
  induction as generalizing l with
  | nil => rfl
  | cons a as ih =>
    simp only [List.foldl_cons, ih, learned_learn, peer_learn, List.filter_cons, decide_eq_true_eq]
    split_ifs with ha
    · rw [List.getLast?_cons]
      cases (as.filter fun a => a.target = p ∧ loops own a = false).getLast? <;> rfl
    · rfl

end Learning

namespace Receiver

open Learning

variable {r : Receiver} {table : ForwardingTable} {own : Option Address} {u : RouteUpdate}
  {p : AddressPrefix}

theorem without_opened : (r.opened table u).Without p ↔
    r.tableId ≠ u.tableId ∨ { receiver := r, table : Learning }.Without p := by
  unfold opened
  split_ifs with hid
  · simp [hid]
  · have hleads : ({ receiver := r, table : Learning }.adopt u.tableId).leadsToPeer p = false := by
      rw [Bool.eq_false_iff, ne_eq, leadsToPeer_iff]
      rintro ⟨e, he, hhop⟩
      exact (get?_adopt.mp he).2 hhop
    simp [Without, hleads, hid]
    rfl

/-- What is left of an update that is applied, and is not a heartbeat. -/
theorem apply_fst_of_ok {ps : List AddressPrefix} (hok : (r.apply table own u).2 = .ok ps)
    (hto : r.expects u < u.toEpoch) (hbeat : u.isHeartbeat = false) :
    (r.apply table own u).1 = (u.announced.foldl (learn own)
      (u.withdrawn.foldl withdraw (r.opened table u))).reach u.toEpoch := by
  rw [← r.epoch_opened table] at hto
  rcases r.apply_cases table own u with ⟨-, h⟩ | ⟨-, hle, -⟩ | ⟨-, -, hb, -⟩ | ⟨-, -, -, h⟩
  · rw [h] at hok
    cases hok
  · exact absurd hto (UInt32.not_lt.mpr hle)
  · simp [hbeat] at hb
  · rw [h]

/-- An update that is applied leaves nothing of the neighbour in use for a prefix just if all that it
offers of the prefix has come through the node, and nothing was in use before, or what was is dropped
with the neighbour's table or withdrawn. -/
theorem without_apply_iff {ps : List AddressPrefix} (hok : (r.apply table own u).2 = .ok ps)
    (hto : r.expects u < u.toEpoch) (hbeat : u.isHeartbeat = false) :
    (r.apply table own u).1.Without p ↔
      (∀ a ∈ u.announced, a.target = p → loops own a = true) ∧
        (r.tableId ≠ u.tableId ∨ { receiver := r, table : Learning }.Without p ∨
          p ∈ u.withdrawn ∧ r.learned.get? p ≠ none) := by
  have hreach : ∀ l : Learning, (l.reach u.toEpoch).Without p ↔ l.Without p := fun l => Iff.rfl
  rw [apply_fst_of_ok hok hto hbeat, hreach, without_foldl_learn, without_foldl_withdraw,
    without_opened, and_comm, or_assoc]
  refine and_congr_right fun _ => or_congr_right' fun hid => or_congr_right ?_
  rw [opened, if_pos (not_not.mp hid)]

theorem learned_opened : (r.opened table u).receiver.learned.get? p =
    if r.tableId = u.tableId then r.learned.get? p else none := by
  unfold opened
  split_ifs <;> rfl

/-- What is learned of a prefix by an update that is applied. -/
theorem learned_apply {ps : List AddressPrefix} (hok : (r.apply table own u).2 = .ok ps)
    (hto : r.expects u < u.toEpoch) (hbeat : u.isHeartbeat = false) :
    (r.apply table own u).1.receiver.learned.get? p =
      ((u.announced.filter fun a => a.target = p ∧ loops own a = false).getLast?.map
        (routeOf r.peer own)).or
        (if r.tableId = u.tableId ∧ p ∉ u.withdrawn then r.learned.get? p else none) := by
  rw [apply_fst_of_ok hok hto hbeat, learned_reach, learned_foldl_learn, receiver_foldl_withdraw]
  simp only [peer_opened, Dict.get?_foldl_erase, learned_opened]
  congr 1
  split_ifs <;> simp_all

/-- What the neighbour has offered of a prefix before stays in use although its last offer has come
through this node, unless the same update has another offer, is about another table, or withdraws
what was learned. -/
theorem without_apply_iff_of_loops {home : Address} {ps : List AddressPrefix}
    {earlier : List Announcement} {a : Announcement}
    (hok : (r.apply table (some home) u).2 = .ok ps) (hto : r.expects u < u.toEpoch)
    (hlast : u.announced.filter (·.target = p) = earlier ++ [a]) (hloop : home ∈ a.path) :
    let l := (r.apply table (some home) u).1
    (l.Without p ↔ (∀ b ∈ earlier, home ∈ b.path) ∧
      (r.tableId ≠ u.tableId ∨ { receiver := r, table : Learning }.Without p ∨
        p ∈ u.withdrawn ∧ r.learned.get? p ≠ none)) ∧
    l.receiver.learned.get? p =
      ((earlier.filter (home ∉ ·.path)).getLast?.map (routeOf r.peer (some home))).or
        (if r.tableId = u.tableId ∧ p ∉ u.withdrawn then r.learned.get? p else none) ∧
    ((∀ b ∈ earlier, home ∈ b.path) → r.tableId = u.tableId → p ∉ u.withdrawn →
      l.table.get? p = table.get? p) := by
  have hmem : a ∈ u.announced := by
    have ha : a ∈ u.announced.filter (·.target = p) := by simp [hlast]
    exact (List.mem_filter.mp ha).1
  have hbeat : u.isHeartbeat = false := by
    rw [RouteUpdate.isHeartbeat, Bool.and_eq_false_iff]
    exact Or.inl (List.isEmpty_eq_false_iff.mpr (List.ne_nil_of_mem hmem))
  have hall : (∀ b ∈ u.announced, b.target = p → loops (some home) b = true) ↔
      ∀ b ∈ earlier, home ∈ b.path := by
    have hfilter : (∀ b ∈ u.announced, b.target = p → loops (some home) b = true) ↔
        ∀ b ∈ u.announced.filter (·.target = p), home ∈ b.path := by
      simp [loops, List.mem_filter]
    rw [hfilter, hlast]
    simp only [List.mem_append, List.mem_singleton, or_imp, forall_and, forall_eq, hloop, and_true]
  refine ⟨by rw [without_apply_iff hok hto hbeat, hall], ?_, fun hearlier hid hp => ?_⟩
  · have hoffers : (u.announced.filter fun b => b.target = p ∧ loops (some home) b = false)
        = earlier.filter (home ∉ ·.path) := by
      have hsplit : (u.announced.filter fun b => b.target = p ∧ loops (some home) b = false)
          = (u.announced.filter (·.target = p)).filter (home ∉ ·.path) := by
        rw [List.filter_filter]
        congr 1
        funext b
        simp [loops, Bool.and_comm]
      rw [hsplit, hlast, List.filter_append]
      simp [hloop]
    rw [learned_apply hok hto hbeat, hoffers]
  · have hreach : ∀ l : Learning, (l.reach u.toEpoch).table = l.table := fun l => rfl
    rw [apply_fst_of_ok hok hto hbeat, hreach, table_foldl_learn (hall.mpr hearlier),
      table_foldl_withdraw hp, opened, if_pos hid]

/-! ### A neighbour that goes over to a way through this node -/

namespace Detour

open Broadcaster.Comeback (near shared)

def here : Address := ⟨"example.connector", by decide +kernel⟩

def elsewhere : Address := ⟨"example.detour", by decide +kernel⟩

/-- The neighbour has offered the prefix on a way of its own. -/
def offered : Learning :=
  ((fresh near.id ⟨0⟩ 0 (.plain 1)).apply (.fresh (.plain 0)) (some here)
    (.first (.plain 2) [.plain shared [elsewhere]])).1

/-- Now it offers the prefix on a way through this node. -/
def around : RouteUpdate :=
  { RouteUpdate.first (.plain 2) [.plain shared [elsewhere, here]] with
    currentEpoch := 2, fromEpoch := 1, toEpoch := 2 }

end Detour

open Detour Broadcaster.Comeback

/-- The neighbour also withdraws the prefix. -/
theorem without_apply_iff_of_loops_withdrawn :
    let u := { around with withdrawn := [shared] }
    (∃ ps, (offered.receiver.apply offered.table (some here) u).2 = .ok ps) ∧
      offered.receiver.expects u < u.toEpoch ∧
      u.announced.filter (·.target = shared) = [] ++ [.plain shared [elsewhere, here]] ∧
      (offered.receiver.apply offered.table (some here) u).1.Without shared := by
  intro u
  have hok : (offered.receiver.apply offered.table (some here) u).2 = .ok [shared] := by
    decide +kernel
  have hto : offered.receiver.expects u < u.toEpoch := by decide +kernel
  have hlast : u.announced.filter (·.target = shared)
      = [] ++ [.plain shared [elsewhere, here]] := by decide
  refine ⟨⟨_, hok⟩, hto, hlast,
    (without_apply_iff_of_loops hok hto hlast (by simp [Announcement.plain])).1.mpr
      ⟨by simp, Or.inr (Or.inr ⟨?_, ?_⟩)⟩⟩
  · exact List.mem_singleton_self shared
  · decide +kernel

/-- The way that the neighbour has given up stays in use. -/
theorem detour_keeps_route :
    ∃ (r : Receiver) (table : ForwardingTable) (home : Address) (u : RouteUpdate)
      (p : AddressPrefix) (a : Announcement),
      (∃ ps, (r.apply table (some home) u).2 = .ok ps) ∧ r.epoch < u.toEpoch ∧
      (u.announced.filter (·.target = p)).getLast? = some a ∧ home ∈ a.path ∧
      let l := (r.apply table (some home) u).1
      (∃ x, l.receiver.learned.get? p = some x) ∧
        ∃ e, l.table.get? p = some e ∧ e.nextHop = l.receiver.peer := by
  refine ⟨offered.receiver, offered.table, here, around, shared,
    .plain shared [elsewhere, here], ⟨[], by decide +kernel⟩, by decide +kernel, by decide,
    by simp [Announcement.plain], ?_⟩
  intro l
  refine ⟨Option.isSome_iff_exists.mp ?_, leadsToPeer_iff.mp ?_⟩ <;> decide +kernel

end Receiver

end IlpConnector
