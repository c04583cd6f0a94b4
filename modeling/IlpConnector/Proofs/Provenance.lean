import IlpConnector.Proofs.LogReplay
import IlpConnector.Proofs.Reception

/-!
# Where routes come from

Whatever an update, a choice of routes or the removal of an account adds to the log leads to an
account with a receiver (`Broadcaster.grows_update`, `Broadcaster.grows_remove`), and no packet or
removal gives an account a sender (`Broadcaster.SendersOf`).
-/

namespace IlpConnector

open ForwardingTable (Grows Logs)

variable {P : Route → Prop}

theorem ForwardingTable.Grows.logs {t t' : ForwardingTable} (h : Grows P t t')
    (ht : Logs P t.log) : Logs P t'.log := by
  obtain ⟨more, hlog, hmore⟩ := h.log
  rw [hlog]
  intro c hc
  rcases List.mem_append.mp hc with hc | hc
  · exact ht c hc
  · exact hmore c hc

/-- A neighbour that is no parent may be told about a route to another neighbour, unless that is
known as a peer or a parent. -/
theorem Sender.mayOffer_iff {s : Sender} {accounts : AccountStore} {r : Route} :
    s.mayOffer accounts r = true ↔ r.nextHop ≠ s.peer ∧
      (∀ p, accounts.get? s.peer = some p → p.relationship ≠ .parent) ∧
      ∀ c, accounts.get? r.nextHop = some c → c.relationship = .child := by
  have hany : ∀ (o : Option AccountSettings) (f : AccountSettings → Bool),
      o.any f = false ↔ ∀ x, o = some x → f x = false := by
    intro o f
    cases o <;> simp
  simp only [mayOffer, Relationship.isPeerOrParent, Bool.and_eq_true, decide_eq_true_eq,
    Bool.not_eq_true', hany, decide_eq_false_iff_not, not_not, and_assoc]

/-! ## Updates -/

namespace Learning

variable {l : Learning} {own : Option Address} {a : AccountId}

theorem grows_withdraw (l : Learning) (q : AddressPrefix) :
    Grows P l.table (l.withdraw q).table := by
  unfold withdraw
  split_ifs
  · exact ForwardingTable.grows_withdraw _ _
  · exact .refl P _
  · exact .refl P _

theorem grows_learn (own : Option Address) (hP : ∀ r, r.nextHop = l.receiver.peer → P r)
    (o : Announcement) : Grows P l.table (learn own l o).table := by
  cases hloop : loops own o with
  | true =>
    have heq : learn own l o = l := if_pos hloop
    rw [heq]
    exact .refl P _
  | false =>
    rcases learn_cases (l := l) hloop with ⟨htable, -, -⟩ | ⟨htable, -, -⟩
    · rw [htable]
      exact ForwardingTable.grows_set _ (hP _ rfl)
    · rw [htable]
      exact .refl P _

/-- What each step of a run with a neighbour adds, the run adds. -/
theorem grows_foldl {α : Type} {f : Learning → α → Learning}
    (hpeer : ∀ l x, (f l x).receiver.peer = l.receiver.peer)
    (hf : ∀ l x, l.receiver.peer = a → Grows P l.table (f l x).table) (xs : List α)
    (hl : l.receiver.peer = a) :
    (xs.foldl f l).receiver.peer = a ∧ Grows P l.table (xs.foldl f l).table := by
  induction xs generalizing l with
  | nil => exact ⟨hl, .refl P _⟩
  | cons x xs ih =>
    obtain ⟨hend, hgrows⟩ := ih ((hpeer l x).trans hl)
    exact ⟨hend, (hf l x hl).trans hgrows⟩

end Learning

theorem Receiver.grows_apply {r : Receiver} (hP : ∀ x, x.nextHop = r.peer → P x)
    (table : ForwardingTable) (own : Option Address) (u : RouteUpdate) :
    Grows P table (r.apply table own u).1.table := by
  have hopened : Grows P table (r.opened table u).table := by
    unfold opened
    split
    · exact .refl P _
    · exact ForwardingTable.grows_withdrawVia _ _
  rcases apply_cases r table own u with ⟨-, h⟩ | ⟨-, -, h⟩ | ⟨-, -, -, h⟩ | ⟨-, -, -, h⟩
  · rw [h]
    exact hopened
  · rw [h]
    exact hopened
  · rw [h]
    exact hopened
  · rw [h]
    have hopen : (r.opened table u).receiver.peer = r.peer := peer_opened
    obtain ⟨hpeer, hwithdrawn⟩ := Learning.grows_foldl (P := P) Learning.peer_withdraw
      (fun l q _ => l.grows_withdraw q) u.withdrawn hopen
    obtain ⟨-, hlearned⟩ := Learning.grows_foldl (P := P) (Learning.peer_learn own)
      (fun l o hl => Learning.grows_learn own (fun x hx => hP x (hx.trans hl)) o) u.announced hpeer
    exact (hopened.trans hwithdrawn).trans hlearned

namespace Broadcaster

variable {b : Broadcaster} {r : Receiver} {own operator : Option Address} {u : RouteUpdate}
  {a : AccountId}

/-! ## Choosing routes -/

/-- Routes that lead to accounts with receivers have a property. -/
def Vouches (b : Broadcaster) (P : Route → Prop) : Prop :=
  ∀ a r, b.receivers.get? a = some r → ∀ x, x.nextHop = a → P x

theorem grows_selectOne (hb : b.Sound) (hP : b.Vouches P) (q : AddressPrefix) :
    Grows P b.table (b.selectOne q).2.table := by
  unfold selectOne
  split_ifs
  · exact .refl P _
  · split
    · rename_i x hbest
      obtain ⟨a, ha⟩ := mem_learnedRoutes.mp (mem_of_bestRoute hbest)
      have hhop := (ha.sound hb).2
      obtain ⟨r, hr, -⟩ := ha
      exact ForwardingTable.grows_set _ (hP a r hr x hhop)
    · exact ForwardingTable.grows_withdraw _ _

theorem grows_select (hb : b.Sound) (hP : b.Vouches P) (qs : List AddressPrefix) :
    Grows P b.table (b.select qs).2.table := by
  induction qs generalizing b with
  | nil => exact .refl P _
  | cons q qs ih =>
    have hrec := receivers_selectOne b q
    refine (grows_selectOne hb hP q).trans (ih (sound_selectOne hb q) ?_)
    unfold Vouches
    rw [hrec]
    exact hP

theorem grows_update (hb : b.Sound) (hP : b.Vouches P) (hr : b.receivers.get? a = some r)
    (own : Option Address) (u : RouteUpdate) : Grows P b.table (b.update r own u).2.table := by
  have hpeer := (hb a r hr).1
  have hvouches : (b.learn r own u).2.Vouches P := by
    intro a' r' hr' x hx
    rw [receivers_learn] at hr'
    by_cases ha : r.peer = a'
    · exact hP a r hr x (hx.trans (ha.symm.trans hpeer))
    · rw [Dict.get?_insert_of_ne _ _ ha] at hr'
      exact hP a' r' hr' x hx
  have hlearn : Grows P b.table (b.learn r own u).2.table :=
    Receiver.grows_apply (fun x hx => hP a r hr x (hx.trans hpeer)) b.table own u
  rw [update_snd]
  exact hlearn.trans (grows_select (sound_learn hb hr) hvouches _)

theorem grows_remove (hb : b.Sound) (hP : b.Vouches P) (a : AccountId) :
    Grows P b.table (b.remove a).table := by
  rcases remove_eq b a with ⟨-, -, htable⟩ | ⟨-, heq⟩
  · rw [htable]
    exact .refl P _
  · rw [heq]
    set b' := b.cutOff a with hb'
    have hvouches : b'.Vouches P := by
      intro a' r' hr' x hx
      rw [show b'.receivers = b.receivers.erase a from rfl] at hr'
      by_cases ha : a = a'
      · subst ha
        rw [Dict.get?_erase_self] at hr'
        cases hr'
      · rw [Dict.get?_erase_of_ne _ ha] at hr'
        exact hP a' r' hr' x hx
    have hvia : Grows P b.table b'.table := ForwardingTable.grows_withdrawVia _ a
    exact hvia.trans (grows_select (sound_erase hb rfl) hvouches _)

/-! ## Senders -/

/-- Every sender is kept under its neighbour's account, which has a property. -/
def SendersOf (b : Broadcaster) (Q : AccountId → Prop) : Prop :=
  ∀ a s, b.senders.get? a = some s → s.peer = a ∧ Q a

variable {Q : AccountId → Prop}

theorem senders_update : (b.update r own u).2.senders = b.senders := by
  rw [update_snd, senders_select]
  rfl

theorem senders_of_update {result : Except EpochGap (List AddressPrefix)} {b' : Broadcaster}
    (h : b.update r own u = (result, b')) : b'.senders = b.senders := by
  have hsenders : (b.update r own u).2.senders = b.senders := senders_update
  rwa [h] at hsenders

theorem SendersOf.register (h : b.SendersOf Q) {account : AccountSettings} (hQ : Q account.id)
    (link : LinkRef) (id : TableId) : (b.register account link id).2.SendersOf Q := by
  have hnew : (b.register account link id).2.senders = b.senders ∨
      (b.register account link id).2.senders = b.senders.insert account.id
        { peer := account.id, link, serial := b.nextSerial } := by
    unfold Broadcaster.register
    split_ifs
    · exact Or.inl rfl
    · exact Or.inr rfl
    · exact Or.inr rfl
    · exact Or.inl rfl
    · exact Or.inl rfl
  intro a s hs
  rcases hnew with hnew | hnew <;> rw [hnew] at hs
  · exact h a s hs
  · by_cases ha : account.id = a
    · subst ha
      rw [Dict.get?_insert_self, Option.some.injEq] at hs
      subst hs
      exact ⟨rfl, hQ⟩
    · rw [Dict.get?_insert_of_ne _ _ ha] at hs
      exact h a s hs

theorem SendersOf.withSender (h : b.SendersOf Q) {s : Sender} (s' : Sender)
    (hs : b.senders.get? a = some s) (hpeer : s'.peer = s.peer) :
    (b.withSender s').SendersOf Q := by
  obtain ⟨hkept, hQ⟩ := h a s hs
  have hunder : s'.peer = a := hpeer.trans hkept
  intro a' t ht
  change (b.senders.insert s'.peer s').get? a' = some t at ht
  by_cases ha : s'.peer = a'
  · rw [← ha, Dict.get?_insert_self, Option.some.injEq] at ht
    subst ht
    exact ⟨ha, ha ▸ hunder ▸ hQ⟩
  · rw [Dict.get?_insert_of_ne _ _ ha] at ht
    exact h a' t ht

theorem SendersOf.update (h : b.SendersOf Q) (r : Receiver) (own : Option Address)
    (u : RouteUpdate) : (b.update r own u).2.SendersOf Q := by
  unfold SendersOf
  rw [senders_update]
  exact h

theorem SendersOf.receive (h : b.SendersOf Q) (operator : Option Address) (now : Instant)
    (a : AccountId) (p : Prepare) : (b.receive operator now a p).2.SendersOf Q := by
  have hx := b.received operator now a p
  generalize b.receive operator now a p = x at hx ⊢
  cases hx with
  | switched | refused => exact h
  | @obeyed c s hp hc hs =>
    exact h.withSender (s.obey b.table.id b.nextBroadcast c) hs (s.peer_obey _ _ c)
  | @updated u r _ _ hp hu hr hupdate =>
    have hafter := h.update r operator u
    rwa [hupdate] at hafter
  | @late u r _ hlate hupdate =>
    have hafter := h.update r operator u
    rwa [hupdate] at hafter

theorem senders_remove (b : Broadcaster) (a : AccountId) :
    (b.remove a).senders = b.senders.erase a := by
  unfold Broadcaster.remove
  dsimp only
  split_ifs
  · rw [senders_select]
  · rfl

theorem SendersOf.remove (h : b.SendersOf Q) (a : AccountId) : (b.remove a).SendersOf Q := by
  intro a' s hs
  rw [senders_remove] at hs
  by_cases ha : a = a'
  · subst ha
    rw [Dict.get?_erase_self] at hs
    cases hs
  · rw [Dict.get?_erase_of_ne _ ha] at hs
    exact h a' s hs

theorem SendersOf.shutdown (h : b.SendersOf Q) : b.shutdown.SendersOf Q := by
  intro a s hs
  change (b.senders.mapValues fun _ s => s.stop).get? a = some s at hs
  rw [Dict.get?_mapValues, Option.map_eq_some_iff] at hs
  obtain ⟨t, ht, rfl⟩ := hs
  exact h a t ht

end Broadcaster

end IlpConnector
