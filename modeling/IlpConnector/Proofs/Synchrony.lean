import IlpConnector.Proofs.LogReplay
import Mathlib.Data.List.Pairwise
import Mathlib.Logic.Relation

/-!
# What a neighbour knows about a table

A receiver that hears a sender over a network that loses, delays, repeats and reorders messages
always knows exactly a first part of the log of one incarnation of the sender's table, or nothing
(`Conversation.follows_of_run`).

The invariant holds of both parties and of every message ever sent: each update that is under way
tells a stretch of the log of some incarnation (`Sender.Tells`), which later changes to that table
do not touch.  What the sender believes about the receiver does not matter, so neither do requests
that are late.
-/

namespace IlpConnector

/-! ## Updates that tell a log -/

namespace Sender

variable {s s' : Sender} {accounts : AccountStore} {log : List RouteChange} {u : RouteUpdate}

/-- An update tells a log: so many changes from its first epoch on, as many as it advances, if it
advances at all. -/
def Tells (s : Sender) (accounts : AccountStore) (log : List RouteChange) (u : RouteUpdate) :
    Prop :=
  ∃ n, (n ≠ 0 → u.fromEpoch.toNat + n ≤ log.length) ∧
    u.announced = offers (s.outcomes accounts ((log.drop u.fromEpoch.toNat).take n)) ∧
    u.withdrawn = withdrawals (s.outcomes accounts ((log.drop u.fromEpoch.toNat).take n)) ∧
    (u.fromEpoch < u.toEpoch → u.toEpoch.toNat = u.fromEpoch.toNat + n)

theorem mayOffer_congr (h : s'.peer = s.peer) : s'.mayOffer accounts = s.mayOffer accounts := by
  funext r
  rw [mayOffer, mayOffer, h]

theorem loopFree_congr (h : s'.peer = s.peer) (own : Option Address) :
    s'.LoopFree accounts own = s.LoopFree accounts own := by
  funext r
  rw [LoopFree, LoopFree, mayOffer_congr h]

theorem handed_congr (h : s'.peer = s.peer) (own : Option Address) (via : AccountId) :
    s'.handed accounts own via = s.handed accounts own via := by
  funext r
  rw [handed, handed, mayOffer_congr h]

theorem outcomes_congr (h : s'.peer = s.peer) : s'.outcomes accounts = s.outcomes accounts := by
  funext changes
  rw [outcomes, outcomes, mayOffer_congr h]

theorem Tells.congr (h : s'.peer = s.peer) (hu : s.Tells accounts log u) :
    s'.Tells accounts log u := by
  unfold Tells
  rw [outcomes_congr h]
  exact hu

/-- Later changes do not touch what an update tells. -/
theorem Tells.append (hu : s.Tells accounts log u) (more : List RouteChange) :
    s.Tells accounts (log ++ more) u := by
  obtain ⟨n, hn, hoffers, hwithdrawals, hto⟩ := hu
  have hsame : ((log ++ more).drop u.fromEpoch.toNat).take n
      = (log.drop u.fromEpoch.toNat).take n := by
    rcases Nat.eq_zero_or_pos n with rfl | hpos
    · simp
    · have hlen := hn (by omega)
      rw [List.drop_append_of_le_length (by omega),
        List.take_append_of_le_length (by rw [List.length_drop]; omega)]
  refine ⟨n, fun h => ?_, by rw [hsame, hoffers], by rw [hsame, hwithdrawals], hto⟩
  have hlen := hn h
  rw [List.length_append]
  omega

theorem peer_nextUpdate (s : Sender) (t : ForwardingTable) (accounts : AccountStore)
    (settings : RoutingSettings) (operator : Option Address) :
    (s.nextUpdate t accounts settings operator).2.peer = s.peer := rfl

/-- Adding a number of changes to an epoch either counts them, or wraps around to an earlier one. -/
theorem toNat_add_ofNat {e : UInt32} {n : ℕ} (hn : n < UInt32.size) (h : e < e + .ofNat n) :
    (e + .ofNat n).toNat = e.toNat + n := by
  unfold UInt32.size at hn
  rw [UInt32.lt_iff_toNat_lt] at h
  have he := e.toNat_lt
  rw [UInt32.toNat_add, UInt32.toNat_ofNat'] at h ⊢
  omega

theorem length_changesFrom_lt (t : ForwardingTable) (first max : UInt32) :
    (t.changesFrom first max).length < UInt32.size := by
  have hmax := max.toNat_lt_size
  rw [ForwardingTable.changesFrom, List.length_take]
  omega

theorem tells_nextUpdate (s : Sender) (t : ForwardingTable) (accounts : AccountStore)
    (settings : RoutingSettings) (operator : Option Address) :
    s.Tells accounts t.log (s.nextUpdate t accounts settings operator).1 := by
  have htake : (t.log.drop s.nextEpoch.toNat).take
      (t.changesFrom s.nextEpoch settings.maxEpochs).length
        = t.changesFrom s.nextEpoch settings.maxEpochs := by
    rw [ForwardingTable.changesFrom, List.length_take, ← List.take_take, List.take_length]
  refine ⟨(t.changesFrom s.nextEpoch settings.maxEpochs).length, fun hn => ?_, ?_, ?_, fun h =>
    toNat_add_ofNat (length_changesFrom_lt t _ _) h⟩
  · rw [ForwardingTable.changesFrom, List.length_take, List.length_drop] at hn ⊢
    change s.nextEpoch.toNat + _ ≤ _
    omega
  · change offers _ = offers (s.outcomes accounts ((t.log.drop s.nextEpoch.toNat).take _))
    rw [htake]
  · change withdrawals _ = withdrawals (s.outcomes accounts ((t.log.drop s.nextEpoch.toNat).take _))
    rw [htake]

end Sender

/-! ## Receivers that follow a log -/

namespace Receiver

variable {s : Sender} {accounts : AccountStore} {own : Option Address} {t : ForwardingTable}
  {r : Receiver} {u : RouteUpdate}

/-- What a receiver has learned is what the changes of a table before its epoch give, one at a time,
each route taken as `f` gives it. -/
def Follows (f : Route → Option Route) (t : ForwardingTable) (r : Receiver) : Prop :=
  r.epoch.toNat ≤ t.log.length ∧
    r.learned = RouteChange.replay f ∅ (t.log.take r.epoch.toNat)

/-- Whoever knows nothing follows every log. -/
theorem follows_of_epoch_eq_zero {f : Route → Option Route} (he : r.epoch = 0)
    (hl : r.learned = ∅) : r.Follows f t := by
  unfold Follows
  rw [he, hl]
  exact ⟨Nat.zero_le _, rfl⟩

theorem Follows.append {f : Route → Option Route} {t' : ForwardingTable} (h : r.Follows f t)
    {more : List RouteChange} (hlog : t'.log = t.log ++ more) : r.Follows f t' := by
  obtain ⟨hlen, hlearned⟩ := h
  refine ⟨?_, ?_⟩
  · rw [hlog, List.length_append]
    omega
  · rw [hlog, List.take_append_of_le_length hlen]
    exact hlearned

/-- The epoch after an update: its end, if it goes on from what is known. -/
theorem epoch_apply (r : Receiver) (table : ForwardingTable) (own : Option Address)
    (u : RouteUpdate) : (r.apply table own u).1.receiver.epoch =
      if u.fromEpoch ≤ (r.opened table u).receiver.epoch ∧
        (r.opened table u).receiver.epoch < u.toEpoch then u.toEpoch
      else (r.opened table u).receiver.epoch := by
  rcases apply_cases r table own u with ⟨h, heq⟩ | ⟨-, h, heq⟩ | ⟨h, h', -, heq⟩ | ⟨h, h', -, heq⟩
  · rw [heq, if_neg fun hc => UInt32.not_le.mpr h hc.1]
  · rw [heq, if_neg fun hc => UInt32.not_lt.mpr h hc.2]
  · rw [heq, if_pos ⟨h, h'⟩]
    rfl
  · rw [heq, if_pos ⟨h, h'⟩]
    rfl

theorem tableId_apply (r : Receiver) (table : ForwardingTable) (own : Option Address)
    (u : RouteUpdate) : (r.apply table own u).1.receiver.tableId = u.tableId := by
  have hw : ∀ (qs : List AddressPrefix) (l : Learning),
      (qs.foldl Learning.withdraw l).receiver.tableId = l.receiver.tableId := by
    intro qs l
    rw [Learning.receiver_foldl_withdraw]
  have hn : ∀ (as : List Announcement) (l : Learning),
      (as.foldl (Learning.learn own) l).receiver.tableId = l.receiver.tableId := by
    intro as
    induction as with
    | nil => exact fun l => rfl
    | cons a as ih =>
      intro l
      rw [List.foldl_cons, ih, Learning.receiver_learn]
      split <;> rfl
  rcases apply_cases r table own u with ⟨-, h⟩ | ⟨-, -, h⟩ | ⟨-, -, -, h⟩ | ⟨-, -, -, h⟩ <;> rw [h]
  · exact tableId_opened
  · exact tableId_opened
  · exact tableId_opened
  · exact (hn _ _).trans ((hw _ _).trans tableId_opened)

theorem follows_opened {f : Route → Option Route} (table : ForwardingTable)
    (h : r.tableId = u.tableId → r.Follows f t) : (r.opened table u).receiver.Follows f t := by
  unfold opened
  split_ifs with hid
  · exact h hid
  · exact follows_of_epoch_eq_zero rfl rfl

/-- An update that tells a log leaves a receiver following it, unless it followed another table
under that id before. -/
theorem follows_apply (hlogs : ForwardingTable.Logs (s.LoopFree accounts own) t.log)
    (hu : s.Tells accounts t.log u)
    (h : r.tableId = u.tableId → r.Follows (s.handed accounts own r.peer) t)
    (table : ForwardingTable) :
    (r.apply table own u).1.receiver.Follows (s.handed accounts own r.peer) t := by
  have hopened := follows_opened table h
  rcases apply_cases r table own u with ⟨-, heq⟩ | ⟨-, -, heq⟩ | ⟨hfrom, hto, hbeat, heq⟩ |
    ⟨hfrom, hto, -, heq⟩ <;> rw [heq]
  · exact hopened
  · exact hopened
  all_goals
    obtain ⟨n, hn, hoffers, hwithdrawals, hadvance⟩ := hu
    rw [UInt32.le_iff_toNat_le] at hfrom
    have hlt := UInt32.lt_iff_toNat_lt.mp hto
    have hend := hadvance (UInt32.lt_iff_toNat_lt.mpr (by omega))
    have hlen := hn (by omega)
  · -- an update that advances tells some change, so it is no heartbeat
    have hne : (t.log.drop u.fromEpoch.toNat).take n ≠ [] := by
      rw [ne_eq, ← List.length_eq_zero_iff, List.length_take, List.length_drop]
      omega
    rw [RouteUpdate.isHeartbeat, hoffers, hwithdrawals, Bool.and_eq_true, List.isEmpty_iff,
      List.isEmpty_iff] at hbeat
    rcases s.offers_or_withdrawals accounts hne with h | h
    · exact absurd hbeat.1 h
    · exact absurd hbeat.2 h
  · have hbatch : ForwardingTable.Logs (s.LoopFree accounts own)
        ((t.log.drop u.fromEpoch.toNat).take n) :=
      fun c hc => hlogs c (List.mem_of_mem_drop (List.mem_of_mem_take hc))
    rw [hoffers, hwithdrawals]
    unfold Follows Learning.reach
    dsimp only
    rw [Learning.receiver_told hbatch, peer_opened, hopened.2, hend]
    exact ⟨by omega, RouteChange.replay_overlap hfrom (by omega)⟩

end Receiver

/-! ## Conversations -/

/-- A table, the sender that tells a neighbour about it, the neighbour's receiver, and every message
between them that was ever sent. -/
structure Conversation where
  table : ForwardingTable
  /-- The table as it was at each reset. -/
  past : List ForwardingTable := []
  sender : Sender
  receiver : Receiver
  updates : List RouteUpdate := []
  requests : List RouteControl := []

namespace Conversation

/-- The incarnations of the table, the present one first. -/
def incarnations (c : Conversation) : List ForwardingTable := c.table :: c.past

/-- A conversation that starts between a sender and a receiver like these, but new. -/
def start (s : Sender) (r : Receiver) (id : TableId) : Conversation where
  table := .fresh id
  sender := { peer := s.peer, link := s.link, serial := s.serial }
  receiver := { peer := r.peer, link := r.link, serial := r.serial, tableId := r.tableId }

/-- One thing that happens in a conversation.  A message that was sent may arrive at any time, again
and again, or never.  Routes that may be offered have not come through the neighbour's node, and an
id is given to one incarnation only. -/
inductive Step (accounts : AccountStore) (settings : RoutingSettings) (own : Option Address) :
    Conversation → Conversation → Prop where
  | set {c : Conversation} (r : Route)
      (hloop : c.sender.mayOffer accounts r = true → ∀ a ∈ own, a ∉ r.path) :
      Step accounts settings own c { c with table := (c.table.set r).2 }
  | withdraw {c : Conversation} (p : AddressPrefix) :
      Step accounts settings own c { c with table := (c.table.withdraw p).2 }
  | withdrawVia {c : Conversation} (a : AccountId) :
      Step accounts settings own c { c with table := (c.table.withdrawVia a).2 }
  | reset {c : Conversation} (id : TableId) (hnew : ∀ t ∈ c.incarnations, id ≠ t.id) :
      Step accounts settings own c { c with table := .fresh id, past := c.incarnations }
  | tell {c : Conversation} (operator : Option Address) :
      Step accounts settings own c { c with
        sender := (c.sender.nextUpdate c.table accounts settings operator).2
        updates := (c.sender.nextUpdate c.table accounts settings operator).1 :: c.updates }
  | hear {c : Conversation} (table : ForwardingTable) {u : RouteUpdate} (hu : u ∈ c.updates) :
      Step accounts settings own c { c with
        receiver := (c.receiver.apply table own u).1.receiver }
  | ask {c : Conversation} :
      Step accounts settings own c { c with requests := c.receiver.request :: c.requests }
  | obey {c : Conversation} (number : ℕ) {q : RouteControl} (hq : q ∈ c.requests) :
      Step accounts settings own c { c with sender := c.sender.obey c.table.id number q }

variable {accounts : AccountStore} {settings : RoutingSettings} {own : Option Address}
  {c c' : Conversation}

/-- What is always so in a conversation. -/
structure Inv (accounts : AccountStore) (own : Option Address) (c : Conversation) : Prop where
  distinct : c.incarnations.Pairwise fun t t' => t.id ≠ t'.id
  logs : ∀ t ∈ c.incarnations, ForwardingTable.Logs (c.sender.LoopFree accounts own) t.log
  faithful : c.table.Faithful
  /-- Every update that is under way tells the log of an incarnation. -/
  updates : ∀ u ∈ c.updates, ∃ t ∈ c.incarnations,
    u.tableId = t.id ∧ c.sender.Tells accounts t.log u
  follows : ∀ t ∈ c.incarnations, c.receiver.tableId = t.id →
    c.receiver.Follows (c.sender.handed accounts own c.receiver.peer) t
  /-- A receiver that does not know an id of the table knows nothing. -/
  stranger : (∀ t ∈ c.incarnations, c.receiver.tableId ≠ t.id) →
    c.receiver.epoch = 0 ∧ c.receiver.learned = ∅

theorem inv_start (s : Sender) (r : Receiver) (id : TableId) :
    Inv accounts own (start s r id) where
  distinct := List.pairwise_singleton _ _
  logs t ht := by
    rw [incarnations, start, List.mem_singleton] at ht
    subst ht
    exact fun c hc => absurd hc List.not_mem_nil
  faithful := ForwardingTable.faithful_fresh id
  updates u hu := absurd hu List.not_mem_nil
  follows t _ _ := Receiver.follows_of_epoch_eq_zero rfl rfl
  stranger _ := ⟨rfl, rfl⟩

theorem Inv.eq_of_id_eq (h : Inv accounts own c) {t t' : ForwardingTable}
    (ht : t ∈ c.incarnations) (ht' : t' ∈ c.incarnations) (hid : t.id = t'.id) : t = t' := by
  have hsymm : Std.Symm fun t t' : ForwardingTable => t.id ≠ t'.id := ⟨fun _ _ => Ne.symm⟩
  by_contra hne
  exact h.distinct.forall ht ht' hne hid

/-- Another state of the sender changes nothing, as long as it is for the same neighbour. -/
theorem Inv.of_sender (h : Inv accounts own c) {s : Sender} (hs : s.peer = c.sender.peer) :
    Inv accounts own { c with sender := s } where
  distinct := h.distinct
  logs t ht := by
    dsimp only
    rw [Sender.loopFree_congr hs]
    exact h.logs t ht
  faithful := h.faithful
  updates u hu := by
    obtain ⟨t, ht, hid, htells⟩ := h.updates u hu
    exact ⟨t, ht, hid, htells.congr hs⟩
  follows t ht hid := by
    dsimp only
    rw [Sender.handed_congr hs]
    exact h.follows t ht hid
  stranger := h.stranger

theorem Inv.of_grows (h : Inv accounts own c) {t' : ForwardingTable}
    (hgrows : ForwardingTable.Grows (c.sender.LoopFree accounts own) c.table t') :
    Inv accounts own { c with table := t' } := by
  obtain ⟨more, hlog, hmore⟩ := hgrows.log
  have hpast : ∀ t ∈ c.past, t ∈ c.incarnations := fun t ht => List.mem_cons_of_mem _ ht
  have hself : c.table ∈ c.incarnations := List.mem_cons_self
  constructor
  · have hd := h.distinct
    rw [incarnations, List.pairwise_cons] at hd ⊢
    dsimp only
    rw [hgrows.id]
    exact hd
  · intro t ht
    rcases List.mem_cons.mp ht with rfl | ht
    · dsimp only
      rw [hlog]
      intro x hx
      rcases List.mem_append.mp hx with hx | hx
      · exact h.logs _ hself x hx
      · exact hmore x hx
    · exact h.logs t (hpast t ht)
  · exact hgrows.faithful h.faithful
  · intro u hu
    obtain ⟨t, ht, hid, htells⟩ := h.updates u hu
    rcases List.mem_cons.mp ht with rfl | ht
    · refine ⟨t', List.mem_cons_self, hid.trans hgrows.id.symm, ?_⟩
      rw [hlog]
      exact htells.append more
    · exact ⟨t, List.mem_cons_of_mem _ ht, hid, htells⟩
  · intro t ht hid
    rcases List.mem_cons.mp ht with rfl | ht
    · exact (h.follows _ hself (hid.trans hgrows.id)).append hlog
    · exact h.follows t (hpast t ht) hid
  · intro hstrange
    refine h.stranger fun t ht => ?_
    rcases List.mem_cons.mp ht with rfl | ht
    · rw [← hgrows.id]
      exact hstrange t' List.mem_cons_self
    · exact hstrange t (List.mem_cons_of_mem _ ht)

theorem Inv.of_reset (h : Inv accounts own c) {id : TableId}
    (hnew : ∀ t ∈ c.incarnations, id ≠ t.id) :
    Inv accounts own { c with table := .fresh id, past := c.incarnations } := by
  have hold : ∀ t ∈ c.incarnations,
      t ∈ ({ c with table := .fresh id, past := c.incarnations } : Conversation).incarnations :=
    fun t ht => List.mem_cons_of_mem _ ht
  constructor
  · exact List.pairwise_cons.mpr ⟨hnew, h.distinct⟩
  · intro t ht
    rcases List.mem_cons.mp ht with rfl | ht
    · exact fun x hx => absurd hx List.not_mem_nil
    · exact h.logs t ht
  · exact ForwardingTable.faithful_fresh id
  · intro u hu
    obtain ⟨t, ht, htells⟩ := h.updates u hu
    exact ⟨t, hold t ht, htells⟩
  · intro t ht hid
    rcases List.mem_cons.mp ht with rfl | ht
    · -- a new id may be the one that the receiver made up, about which it knows nothing
      obtain ⟨he, hl⟩ := h.stranger fun t ht => by
        rw [show c.receiver.tableId = id from hid]
        exact hnew t ht
      exact Receiver.follows_of_epoch_eq_zero he hl
    · exact h.follows t ht hid
  · exact fun hstrange => h.stranger fun t ht => hstrange t (hold t ht)

theorem Inv.of_tell (h : Inv accounts own c) (operator : Option Address) :
    Inv accounts own { c with
      sender := (c.sender.nextUpdate c.table accounts settings operator).2
      updates := (c.sender.nextUpdate c.table accounts settings operator).1 :: c.updates } := by
  have hpeer := c.sender.peer_nextUpdate c.table accounts settings operator
  have hsender := h.of_sender hpeer
  refine ⟨hsender.distinct, hsender.logs, hsender.faithful, fun u hu => ?_, hsender.follows,
    hsender.stranger⟩
  rcases List.mem_cons.mp hu with rfl | hu
  · exact ⟨c.table, List.mem_cons_self, rfl, (c.sender.tells_nextUpdate ..).congr hpeer⟩
  · exact hsender.updates u hu

theorem Inv.of_hear (h : Inv accounts own c) (table : ForwardingTable) {u : RouteUpdate}
    (hu : u ∈ c.updates) :
    Inv accounts own { c with receiver := (c.receiver.apply table own u).1.receiver } := by
  obtain ⟨t, ht, hid, htells⟩ := h.updates u hu
  have hid' : (c.receiver.apply table own u).1.receiver.tableId = t.id :=
    (c.receiver.tableId_apply table own u).trans hid
  refine ⟨h.distinct, h.logs, h.faithful, h.updates, fun t' ht' hid'' => ?_, fun hstrange => ?_⟩
  · rw [h.eq_of_id_eq ht' ht (hid''.symm.trans hid')]
    dsimp only
    rw [Receiver.peer_apply]
    exact Receiver.follows_apply (h.logs t ht) htells
      (fun hr => h.follows t ht (hr.trans hid)) table
  · exact absurd hid' (hstrange t ht)

theorem inv_step (h : Inv accounts own c) (hstep : Step accounts settings own c c') :
    Inv accounts own c' := by
  cases hstep with
  | set r hloop =>
    refine h.of_grows (ForwardingTable.grows_set _ fun hmay => ?_)
    cases own with
    | none => rfl
    | some a => simpa [Learning.loops, Sender.offerOf] using hloop hmay a rfl
  | withdraw p => exact h.of_grows (ForwardingTable.grows_withdraw _ p)
  | withdrawVia a => exact h.of_grows (ForwardingTable.grows_withdrawVia _ a)
  | reset id hnew => exact h.of_reset hnew
  | tell operator => exact h.of_tell operator
  | hear table hu => exact h.of_hear table hu
  | ask => exact ⟨h.distinct, h.logs, h.faithful, h.updates, h.follows, h.stranger⟩
  | obey number hq => exact h.of_sender (c.sender.peer_obey _ _ _)

theorem inv_run {s : Sender} {r : Receiver} {id : TableId}
    (h : Relation.ReflTransGen (Step accounts settings own) (start s r id) c) :
    Inv accounts own c := by
  induction h with
  | refl => exact inv_start s r id
  | tail _ hstep ih => exact inv_step ih hstep

end Conversation

end IlpConnector
