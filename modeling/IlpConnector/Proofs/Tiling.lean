import IlpConnector.Proofs.Advertisement
import IlpConnector.Proofs.Errands
import IlpConnector.Proofs.Synchrony

/-!
# The updates of a sender, one after the other

As long as its neighbour asks for nothing else, the updates of a sender go on where the one before
has ended (`RouteUpdate.Consecutive`), from whatever epoch the neighbour has named, and however the
table changes between them.  So they cut the log into stretches that neither overlap nor leave
anything out (`RouteUpdate.flatMap_stretch`).  Each one sums its stretch up (`Sender.SumsUp`): one
outcome for each prefix, with the effect of the entries one at a time.

What becomes of an update makes no difference, as its epochs count as told in the very move that
builds it (`Scheduler.goes_announce`).
-/

namespace IlpConnector

/-! ## Stretches of a log -/

namespace RouteUpdate

variable {first last : UInt32} {us : List RouteUpdate} {u : RouteUpdate} {log : List RouteChange}

/-- The entries of a log that an update is about. -/
def stretch (log : List RouteChange) (u : RouteUpdate) : List RouteChange :=
  (log.drop u.fromEpoch.toNat).take (u.toEpoch.toNat - u.fromEpoch.toNat)

/-- Routes after an update: first without what it withdraws, then with what it announces, as `take`
takes it. -/
def applied (u : RouteUpdate) (take : Announcement → Route) (d : Dict AddressPrefix Route) :
    Dict AddressPrefix Route :=
  u.announced.foldl (fun d a => d.insert a.target (take a)) (u.withdrawn.foldl Dict.erase d)

/-- Updates that go from one epoch to another one, each from where the one before has ended. -/
def Consecutive (first last : UInt32) : List RouteUpdate → Prop
  | [] => first = last
  | u :: us => u.fromEpoch = first ∧ Consecutive u.toEpoch last us

theorem consecutive_concat :
    Consecutive first last (us ++ [u]) ↔ Consecutive first u.fromEpoch us ∧ u.toEpoch = last := by
  induction us generalizing first with
  | nil =>
    rw [List.nil_append, Consecutive, Consecutive, Consecutive, eq_comm]
  | cons v us ih => rw [List.cons_append, Consecutive, Consecutive, ih, and_assoc]

/-- Updates that follow each other tell each entry between their first and their last epoch once. -/
theorem flatMap_stretch (h : Consecutive first last us)
    (hle : ∀ u ∈ us, u.fromEpoch.toNat ≤ u.toEpoch.toNat) :
    first.toNat ≤ last.toNat ∧
      us.flatMap (stretch log) = (log.drop first.toNat).take (last.toNat - first.toNat) := by
  induction us generalizing first with
  | nil =>
    obtain rfl : first = last := h
    simp
  | cons u us ih =>
    obtain ⟨rfl, hrest⟩ := h
    rw [List.forall_mem_cons] at hle
    obtain ⟨hlast, hmap⟩ := ih hrest hle.2
    have hdrop : log.drop u.toEpoch.toNat
        = (log.drop u.fromEpoch.toNat).drop (u.toEpoch.toNat - u.fromEpoch.toNat) := by
      rw [List.drop_drop, Nat.add_sub_cancel' hle.1]
    refine ⟨hle.1.trans hlast, ?_⟩
    rw [List.flatMap_cons, hmap, stretch, hdrop, ← List.take_add]
    congr 1
    omega

end RouteUpdate

/-! ## One update -/

namespace Sender

variable {s : Sender} {accounts : AccountStore} {changes log : List RouteChange} {u : RouteUpdate}
  {t : ForwardingTable}

/-- An update sums changes up: it lists each prefix that was changed once, with the outcome of its
last change under the policy. -/
structure SumsUp (s : Sender) (accounts : AccountStore) (changes : List RouteChange)
    (u : RouteUpdate) : Prop where
  announcedSorted : u.announced.Pairwise fun a b => a.target.text < b.target.text
  withdrawnSorted : u.withdrawn.Pairwise fun p q => p.text < q.text
  disjoint : ∀ a ∈ u.announced, a.target ∉ u.withdrawn
  changed : ∀ p, ((∃ a ∈ u.announced, a.target = p) ∨ p ∈ u.withdrawn) ↔
    ∃ c ∈ changes, c.target = p
  announced : ∀ a, a ∈ u.announced ↔ ∃ r, RouteChange.last? a.target changes = some (some r) ∧
    s.mayOffer accounts r = true ∧ offerOf r = a
  withdrawn : ∀ p, p ∈ u.withdrawn ↔ ∃ o, RouteChange.last? p changes = some o ∧
    ∀ r, o = some r → s.mayOffer accounts r = false
  /-- However a neighbour takes what it is told. -/
  effect : ∀ (take : Announcement → Route) (d : Dict AddressPrefix Route),
    u.applied take d = RouteChange.replay (s.offered accounts take) d changes

theorem offers_pairwise (hlogs : ForwardingTable.Logs (fun _ => True) changes) :
    (offers (s.outcomes accounts changes)).Pairwise fun a b => a.target.text < b.target.text := by
  rw [offers, Dict.values, List.filterMap_map, List.pairwise_filterMap]
  refine (s.outcomes accounts changes).sorted.imp_of_mem fun {x y} hx hy hlt => ?_
  -- an announcement stands under the prefix of its route
  have htarget : ∀ e ∈ (s.outcomes accounts changes).entries, ∀ a,
      e.2.map offerOf = some a → a.target = e.1 := by
    rintro ⟨p, o⟩ he a ha
    obtain ⟨r, rfl, rfl⟩ := Option.map_eq_some_iff.mp ha
    exact (of_get?_outcomes hlogs (Dict.mem_entries_iff.mp he)).2.1
  intro a ha b hb
  rw [htarget x hx a ha, htarget y hy b hb]
  exact hlt

theorem withdrawals_pairwise (d : Dict AddressPrefix (Option Route)) :
    (withdrawals d).Pairwise fun p q => p.text < q.text :=
  List.pairwise_map.mpr (d.filter fun _ o => o.isNone).sorted

theorem sumsUp_of (hlogs : ForwardingTable.Logs (fun _ => True) changes)
    (hoffers : u.announced = offers (s.outcomes accounts changes))
    (hwithdrawals : u.withdrawn = withdrawals (s.outcomes accounts changes)) :
    s.SumsUp accounts changes u := by
  have hwithdrawn : ∀ p, p ∈ withdrawals (s.outcomes accounts changes) ↔ _ :=
    fun _ => mem_withdrawals_iff hlogs
  constructor
  · rw [hoffers]
    exact offers_pairwise hlogs
  · rw [hwithdrawals]
    exact withdrawals_pairwise _
  · intro a ha hmem
    rw [hoffers] at ha
    rw [hwithdrawals, hwithdrawn] at hmem
    exact hmem.2 a ha rfl
  · intro p
    rw [hwithdrawals, hwithdrawn, hoffers]
    constructor
    · rintro (⟨a, ha, rfl⟩ | h)
      · obtain ⟨r, hlast, -⟩ := (mem_offers_iff hlogs).mp ha
        obtain ⟨c, hc, htarget, -⟩ := RouteChange.mem_of_last? hlast
        exact ⟨c, hc, htarget⟩
      · exact h.1
    · intro hc
      by_cases hoffered : ∃ a ∈ offers (s.outcomes accounts changes), a.target = p
      · exact Or.inl hoffered
      · exact Or.inr ⟨hc, fun a ha htarget => hoffered ⟨a, ha, htarget⟩⟩
  · intro a
    rw [hoffers, mem_offers_outcomes hlogs]
    simp only [outcomes_eq_route_iff, and_assoc]
  · intro p
    rw [hwithdrawals, mem_withdrawals, get?_outcomes, Option.map_eq_some_iff]
    refine exists_congr fun o => and_congr_right fun _ => ?_
    cases o <;> simp [Option.filter_eq_none_iff]
  · intro take d
    rw [RouteUpdate.applied, hoffers, hwithdrawals]
    exact foldl_told hlogs take d

/-- How far an update goes: it takes no more epochs than fit, and no more than there are. -/
theorem toEpoch_nextUpdate (h : t.log.length < UInt32.size) (s : Sender) (accounts : AccountStore)
    (settings : RoutingSettings) (operator : Option Address) :
    let u := (s.nextUpdate t accounts settings operator).1
    u.toEpoch.toNat = u.fromEpoch.toNat
      + min settings.maxEpochs.toNat (u.currentEpoch.toNat - u.fromEpoch.toNat) := by
  change (s.nextEpoch + .ofNat (t.changesFrom s.nextEpoch settings.maxEpochs).length).toNat
    = s.nextEpoch.toNat + min settings.maxEpochs.toNat (t.epoch.toNat - s.nextEpoch.toNat)
  have hnext := s.nextEpoch.toNat_lt
  rw [ForwardingTable.toNat_epoch h, UInt32.toNat_add, UInt32.toNat_ofNat',
    ForwardingTable.length_changesFrom]
  unfold UInt32.size at h
  omega

/-- Also in a log that has grown since, an update is about the changes for which it was built. -/
theorem stretch_nextUpdate (h : t.log.length < UInt32.size) (hlog : t.log <+: log) (s : Sender)
    (accounts : AccountStore) (settings : RoutingSettings) (operator : Option Address) :
    (s.nextUpdate t accounts settings operator).1.stretch log
      = t.changesFrom s.nextEpoch settings.maxEpochs := by
  obtain ⟨more, rfl⟩ := hlog
  rw [RouteUpdate.stretch, toEpoch_nextUpdate h]
  change ((t.log ++ more).drop s.nextEpoch.toNat).take (s.nextEpoch.toNat
    + min settings.maxEpochs.toNat (t.epoch.toNat - s.nextEpoch.toNat) - s.nextEpoch.toNat)
      = (t.log.drop s.nextEpoch.toNat).take settings.maxEpochs.toNat
  rw [ForwardingTable.toNat_epoch h, Nat.add_sub_cancel_left]
  rcases Nat.le_total t.log.length s.nextEpoch.toNat with hbeyond | hwithin
  · rw [List.drop_of_length_le hbeyond, Nat.sub_eq_zero_of_le hbeyond]
    simp
  · rw [List.drop_append_of_le_length hwithin,
      List.take_append_of_le_length (by rw [List.length_drop]; omega),
      ← List.length_drop, ← List.take_take, List.take_length]

end Sender

/-! ## A run of updates -/

/-- An update, with the table and all that was known of the accounts when it was built. -/
structure Told where
  table : ForwardingTable
  accounts : AccountStore
  update : RouteUpdate

namespace Told

variable {settings : RoutingSettings} {s : Sender} {log log' : List RouteChange} {x : Told}

/-- An update of a sender, apart from the epoch it starts from, which was built at an earlier state
of a log. -/
structure Built (settings : RoutingSettings) (s : Sender) (log : List RouteChange) (x : Told) :
    Prop where
  recorded : x.table.Recorded
  earlier : x.table.log <+: log
  built : ∃ s' : Sender, ∃ operator, s'.peer = s.peer ∧
    x.update = (s'.nextUpdate x.table x.accounts settings operator).1

/-- An update recounts a log: it is about so many entries as fit into it and as there were, and sums
them up. -/
structure Recounts (settings : RoutingSettings) (s : Sender) (log : List RouteChange) (x : Told) :
    Prop where
  earlier : x.table.log <+: log
  current : x.update.currentEpoch.toNat = x.table.log.length
  advance : x.update.toEpoch.toNat = x.update.fromEpoch.toNat
    + min settings.maxEpochs.toNat (x.update.currentEpoch.toNat - x.update.fromEpoch.toNat)
  sumsUp : s.SumsUp x.accounts (x.update.stretch log) x.update

theorem Built.later (h : x.Built settings s log) (hlog : log <+: log') :
    x.Built settings s log' :=
  ⟨h.recorded, h.earlier.trans hlog, h.built⟩

theorem Built.recounts (h : x.Built settings s log) (hlog : log.length < UInt32.size) :
    x.Recounts settings s log := by
  have hsize : x.table.log.length < UInt32.size := h.earlier.length_le.trans_lt hlog
  obtain ⟨s', operator, hpeer, hx⟩ := h.built
  have hstretch := Sender.stretch_nextUpdate hsize h.earlier s' x.accounts settings operator
  refine ⟨h.earlier, ?_, ?_, ?_⟩
  · rw [hx]
    exact ForwardingTable.toNat_epoch hsize
  · rw [hx]
    exact Sender.toEpoch_nextUpdate hsize s' x.accounts settings operator
  · rw [hx, hstretch]
    refine Sender.sumsUp_of (h.recorded.logs_changesFrom _ _) ?_ ?_
    · rw [← Sender.outcomes_congr hpeer]
      rfl
    · rw [← Sender.outcomes_congr hpeer]
      rfl

end Told

/-- A table, a sender, and what the sender has told, the first update first. -/
structure Telling where
  table : ForwardingTable
  sender : Sender
  told : List Told := []

/-- What happens while the neighbour asks for nothing and the table does not start over. -/
inductive TellingEvent where
  | change (o : TableOperation) (hkeep : ∀ id, o ≠ .reset id)
  | tell (accounts : AccountStore) (operator : Option Address)

theorem TableOperation.prefix_apply {t : ForwardingTable} {o : TableOperation}
    (ho : ∀ id, o ≠ .reset id) : t.log <+: (o.apply t).2.log := by
  have hgrows : ForwardingTable.Grows (fun _ => True) t (o.apply t).2 := by
    cases o with
    | set r => exact ForwardingTable.grows_set t trivial
    | withdraw p => exact ForwardingTable.grows_withdraw t p
    | withdrawVia a => exact ForwardingTable.grows_withdrawVia t a
    | reset id => exact absurd rfl (ho id)
  obtain ⟨more, hlog, -⟩ := hgrows.log
  exact ⟨more, hlog.symm⟩

namespace Telling

variable {settings : RoutingSettings} {s : Sender} {t : Telling}

def step (settings : RoutingSettings) (t : Telling) : TellingEvent → Telling
  | .change o _ => { t with table := (o.apply t.table).2 }
  | .tell accounts operator =>
    let (u, s) := t.sender.nextUpdate t.table accounts settings operator
    { t with sender := s, told := t.told ++ [⟨t.table, accounts, u⟩] }

def run (settings : RoutingSettings) (es : List TellingEvent) (t : Telling) : Telling :=
  es.foldl (step settings) t

/-- What is always so, if a sender starts as `s`. -/
structure Inv (settings : RoutingSettings) (s : Sender) (t : Telling) : Prop where
  peer : t.sender.peer = s.peer
  recorded : t.table.Recorded
  consecutive : RouteUpdate.Consecutive s.nextEpoch t.sender.nextEpoch (t.told.map Told.update)
  built : ∀ x ∈ t.told, x.Built settings s t.table.log

theorem Inv.step (h : Inv settings s t) (e : TellingEvent) :
    Inv settings s (t.step settings e) := by
  cases e with
  | change o hkeep =>
    exact ⟨h.peer, TableOperation.recorded_apply h.recorded o, h.consecutive,
      fun x hx => (h.built x hx).later (TableOperation.prefix_apply hkeep)⟩
  | tell accounts operator =>
    refine ⟨h.peer, h.recorded, ?_, fun x hx => ?_⟩
    · unfold Telling.step
      dsimp only
      rw [List.map_append, List.map_singleton, RouteUpdate.consecutive_concat]
      exact ⟨h.consecutive, rfl⟩
    · rcases List.mem_append.mp hx with hx | hx
      · exact h.built x hx
      · obtain rfl := List.mem_singleton.mp hx
        exact ⟨h.recorded, List.prefix_rfl, t.sender, operator, h.peer, rfl⟩

theorem Inv.run (h : Inv settings s t) (es : List TellingEvent) :
    Inv settings s (run settings es t) := by
  unfold Telling.run
  induction es generalizing t with
  | nil => exact h
  | cons e es ih => exact ih (h.step e)

end Telling

/-! ## What the neighbour is told in all -/

namespace Telling

open Procedure (task)
open Scheduler (Goes)

/-- Whatever the table was, whatever epoch a sender goes on from, and however changes and updates
alternate: the updates follow each other, tell every entry of the log once from the first epoch up
to where the sender has come, and sum up what they tell.  In the task that tells, the epochs count
as told once the update is built, and nothing is done any more about what the neighbour answers; this
goes for the sender of a former registration, too.  The epochs of the table are taken to have been
enough. -/
theorem recounts_of_run (id : TableId) (os : List TableOperation) (s : Sender)
    (settings : RoutingSettings) (es : List TellingEvent)
    (h : (run settings es ⟨TableOperation.run os (.fresh id), s, []⟩).table.log.length
      < UInt32.size) :
    let after := run settings es ⟨TableOperation.run os (.fresh id), s, []⟩
    let log := after.table.log
    RouteUpdate.Consecutive s.nextEpoch after.sender.nextEpoch (after.told.map Told.update) ∧
    (after.told.map Told.update).flatMap (RouteUpdate.stretch log)
      = (log.drop s.nextEpoch.toNat).take (after.sender.nextEpoch.toNat - s.nextEpoch.toNat) ∧
    (∀ x ∈ after.told, x.Recounts settings s log) ∧
    ∀ (k : Scheduler Network Procedure Outcome) (i : ℕ) (name : String) (m : Node)
      (account : AccountId) (serial : ℕ) (sender : Sender),
      k.state.nodes.get? name = some m →
      m.broadcaster.sender? account serial = some sender →
      let b := m.broadcaster
      let told := sender.nextUpdate b.table m.accounts b.settings m.operator
      (b.withAnySender told.2).sender? account serial = some told.2 ∧
        Goes task 1 (k, some (i, task (.announce name account serial)))
          ({ k with
              state := k.state.setNode name { m with broadcaster := b.withAnySender told.2 } },
            some (i, .call
              (.send sender.link (told.1.toPrepare (Sender.updateExpiry b.settings k.state.now)))
              Procedure.afterRequest)) ∧
        ∀ o, ∃ o', Procedure.afterRequest o = .done o' := by
  intro after log
  have hstart : Inv settings s ⟨TableOperation.run os (.fresh id), s, []⟩ :=
    ⟨rfl, TableOperation.recorded_run (ForwardingTable.recorded_fresh id) os, rfl,
      fun x hx => absurd hx List.not_mem_nil⟩
  have hinv : Inv settings s after := hstart.run es
  have hrecounts : ∀ x ∈ after.told, x.Recounts settings s log :=
    fun x hx => (hinv.built x hx).recounts h
  have hle : ∀ u ∈ after.told.map Told.update, u.fromEpoch.toNat ≤ u.toEpoch.toNat := by
    intro u hu
    obtain ⟨x, hx, rfl⟩ := List.mem_map.mp hu
    rw [(hrecounts x hx).advance]
    exact Nat.le_add_right _ _
  refine ⟨hinv.consecutive, (RouteUpdate.flatMap_stretch hinv.consecutive hle).2, hrecounts,
    fun k i name m account serial sender hm hsender => ⟨?_, ?_, fun o => ?_⟩⟩
  · exact Broadcaster.sender?_withAnySender hsender rfl
  · exact Scheduler.goes_announce hm hsender
  · cases o <;> exact ⟨_, rfl⟩

/-- A neighbour that knows the first change is told the others in two updates, before the second of
which one route is replaced and one goes away. -/
theorem recounts_of_run_twice :
    ∃ (id : TableId) (os : List TableOperation) (s : Sender) (settings : RoutingSettings)
      (es : List TellingEvent),
      let after := run settings es ⟨TableOperation.run os (.fresh id), s, []⟩
      after.table.log.length < UInt32.size ∧
      (after.told.map fun x => (x.update.fromEpoch, x.update.toEpoch)) = [(1, 3), (3, 5)] ∧
      (after.told.map fun x => (x.update.announced.length, x.update.withdrawn.length))
        = [(2, 0), (1, 1)] ∧
      RouteUpdate.Consecutive s.nextEpoch after.sender.nextEpoch (after.told.map Told.update) ∧
      (after.told.map Told.update).flatMap (RouteUpdate.stretch after.table.log)
        = (after.table.log.drop s.nextEpoch.toNat).take
            (after.sender.nextEpoch.toNat - s.nextEpoch.toNat) ∧
      ∀ x ∈ after.told, x.Recounts settings s after.table.log := by
  let child : AccountId := ⟨"child", by decide +kernel⟩
  let p : Route := .own ⟨"test.p", by decide +kernel⟩ child []
  let q : Route := .own ⟨"test.q", by decide +kernel⟩ child []
  let r : Route := .own ⟨"test.r", by decide +kernel⟩ child []
  let id : TableId := ⟨Octets.replicate 16 0⟩
  let os : List TableOperation := [.set p, .set q, .set r]
  let s : Sender := { peer := ⟨"bob", by decide +kernel⟩, link := ⟨0⟩, serial := 0, nextEpoch := 1 }
  let settings : RoutingSettings := { maxEpochs := 2 }
  let es : List TellingEvent := [.tell ∅ none,
    .change (.set { q with path := [.unsetOperator] }) (by simp),
    .change (.withdraw p.target) (by simp), .tell ∅ none]
  have hlength : (run settings es ⟨TableOperation.run os (.fresh id), s, []⟩).table.log.length
      = 5 := by
    decide +kernel
  have hsmall : (run settings es ⟨TableOperation.run os (.fresh id), s, []⟩).table.log.length
      < UInt32.size := by
    rw [hlength]
    decide
  obtain ⟨hconsecutive, hall, hrecounts, -⟩ := recounts_of_run id os s settings es hsmall
  exact ⟨id, os, s, settings, es, hsmall, by decide +kernel, by decide +kernel, hconsecutive, hall,
    hrecounts⟩

end Telling

end IlpConnector
