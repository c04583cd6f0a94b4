import IlpConnector.Ccp.Receiver
import IlpConnector.Proofs.ForwardingTable

/-!
# What an update of a neighbour touches

For each prefix, an update keeps the forwarding table and what the neighbour offers in agreement
(`Learning.Matched`) or reports the prefix as changed; and all that it puts into the table leads to
the neighbour (`Learning.Tracks`, `Receiver.tracks_apply`).  What the neighbour offers afterwards
does not depend on the table (`Learning.receiver_withdraw`, `Learning.receiver_learn`).
-/

namespace IlpConnector

/-- Every route that is on offer is for the prefix it is kept under, and leads to the neighbour. -/
def Receiver.Sound (r : Receiver) : Prop :=
  ∀ p x, r.learned.get? p = some x → x.target = p ∧ x.nextHop = r.peer

namespace Learning

variable {l l' : Learning} {own : Option Address} {p : AddressPrefix}

/-! ## What the neighbour offers -/

theorem receiver_withdraw (l : Learning) (q : AddressPrefix) :
    (l.withdraw q).receiver = { l.receiver with learned := l.receiver.learned.erase q } := by
  unfold withdraw
  split_ifs with hq
  · rfl
  · rfl
  · rw [Option.not_isSome_iff_eq_none] at hq
    rw [Dict.erase_of_get?_eq_none hq]

theorem receiver_learn (own : Option Address) (l : Learning) (a : Announcement) :
    (learn own l a).receiver = if loops own a then l.receiver else
      { l.receiver with
        learned := l.receiver.learned.insert a.target (routeOf l.receiver.peer own a) } := by
  unfold learn
  split_ifs
  · rfl
  · dsimp only
    split
    · split <;> rfl
    · rfl

theorem registration_withdraw (l : Learning) (q : AddressPrefix) :
    (l.withdraw q).receiver.toRegistration = l.receiver.toRegistration := by
  rw [receiver_withdraw]

theorem peer_withdraw (l : Learning) (q : AddressPrefix) :
    (l.withdraw q).receiver.peer = l.receiver.peer :=
  congrArg Registration.peer (l.registration_withdraw q)

theorem registration_learn (own : Option Address) (l : Learning) (a : Announcement) :
    (learn own l a).receiver.toRegistration = l.receiver.toRegistration := by
  rw [receiver_learn]
  split <;> rfl

theorem peer_learn (own : Option Address) (l : Learning) (a : Announcement) :
    (learn own l a).receiver.peer = l.receiver.peer :=
  congrArg Registration.peer (registration_learn own l a)

theorem peer_foldl {α : Type} {f : Learning → α → Learning}
    (hf : ∀ l x, (f l x).receiver.peer = l.receiver.peer) (xs : List α) (l : Learning) :
    (xs.foldl f l).receiver.peer = l.receiver.peer := by
  induction xs generalizing l with
  | nil => rfl
  | cons x xs ih => exact (ih (f l x)).trans (hf l x)

@[simp] theorem table_reach (l : Learning) (epoch : UInt32) : (l.reach epoch).table = l.table := rfl

@[simp] theorem changed_reach (l : Learning) (epoch : UInt32) :
    (l.reach epoch).changed = l.changed := rfl

@[simp] theorem learned_reach (l : Learning) (epoch : UInt32) :
    (l.reach epoch).receiver.learned = l.receiver.learned := rfl

theorem sound_withdraw (h : l.receiver.Sound) (q : AddressPrefix) :
    (l.withdraw q).receiver.Sound := by
  rw [receiver_withdraw]
  intro p x hx
  by_cases hp : q = p
  · subst hp
    rw [Dict.get?_erase_self] at hx
    cases hx
  · rw [Dict.get?_erase_of_ne _ hp] at hx
    exact h p x hx

theorem sound_learn (h : l.receiver.Sound) (a : Announcement) :
    (learn own l a).receiver.Sound := by
  rw [receiver_learn]
  split
  · exact h
  · intro p x hx
    by_cases hp : a.target = p
    · subst hp
      rw [Dict.get?_insert_self, Option.some.injEq] at hx
      subst hx
      exact ⟨rfl, rfl⟩
    · rw [Dict.get?_insert_of_ne _ _ hp] at hx
      exact h p x hx

/-! ## The table beside what the neighbour offers -/

/-- The table's route for a prefix is what the neighbour offers if it leads there, and no longer
than what the neighbour offers in any case. -/
structure Matched (l : Learning) (p : AddressPrefix) : Prop where
  backed : ∀ e, l.table.get? p = some e → e.nextHop = l.receiver.peer →
    l.receiver.learned.get? p = some e
  best : ∀ x, l.receiver.learned.get? p = some x →
    ∃ e, l.table.get? p = some e ∧ e.path.length ≤ x.path.length

/-- What may happen to a prefix from one state of learning to a later one.  A prefix that is not
reported as changed keeps its route, and stays matched. -/
structure Tracks (p : AddressPrefix) (l l' : Learning) : Prop where
  registration : l'.receiver.toRegistration = l.receiver.toRegistration
  changed : p ∈ l.changed → p ∈ l'.changed
  entry : p ∉ l'.changed → l'.table.get? p = l.table.get? p
  matched : p ∉ l'.changed → l.Matched p → l'.Matched p
  /-- A route that was not there leads to the neighbour. -/
  origin : ∀ e, l'.table.get? p = some e → l.table.get? p = some e ∨ e.nextHop = l.receiver.peer
  /-- The node's own routes, which have no path, stay. -/
  kept : ∀ e, l.table.get? p = some e → e.path = [] → e.nextHop ≠ l.receiver.peer →
    l'.table.get? p = some e

theorem Tracks.peer (h : Tracks p l l') : l'.receiver.peer = l.receiver.peer :=
  congrArg Registration.peer h.registration

theorem Tracks.refl (l : Learning) : Tracks p l l where
  registration := rfl
  changed := id
  entry _ := rfl
  matched _ := id
  origin _ h := Or.inl h
  kept _ h _ _ := h

theorem Tracks.trans {l'' : Learning} (h : Tracks p l l') (h' : Tracks p l' l'') :
    Tracks p l l'' where
  registration := h'.registration.trans h.registration
  changed hp := h'.changed (h.changed hp)
  entry hp := (h'.entry hp).trans (h.entry fun hp' => hp (h'.changed hp'))
  matched hp hs := h'.matched hp (h.matched (fun hp' => hp (h'.changed hp')) hs)
  origin e he := by
    rcases h'.origin e he with he | he
    · exact h.origin e he
    · exact Or.inr (he.trans h.peer)
  kept e he hpath hhop := h'.kept e (h.kept e he hpath hhop) hpath (h.peer ▸ hhop)

/-- What each step of a run tracks, the run tracks. -/
theorem Tracks.foldl {α : Type} {f : Learning → α → Learning} (hf : ∀ l x, Tracks p l (f l x))
    (xs : List α) (l : Learning) : Tracks p l (xs.foldl f l) := by
  induction xs generalizing l with
  | nil => exact Tracks.refl l
  | cons x xs ih => exact (hf l x).trans (ih (f l x))

/-- A step that leaves a prefix alone, in the table and on offer. -/
theorem Tracks.of_frame (hregistration : l'.receiver.toRegistration = l.receiver.toRegistration)
    (hchanged : p ∈ l.changed → p ∈ l'.changed) (htable : l'.table.get? p = l.table.get? p)
    (hlearned : l'.receiver.learned.get? p = l.receiver.learned.get? p) : Tracks p l l' where
  registration := hregistration
  changed := hchanged
  entry _ := htable
  matched _ hs := by
    have hpeer : l'.receiver.peer = l.receiver.peer := congrArg Registration.peer hregistration
    refine ⟨fun e he hhop => ?_, fun x hx => ?_⟩
    · rw [hlearned]
      exact hs.backed e (htable ▸ he) (hpeer ▸ hhop)
    · rw [htable]
      exact hs.best x (hlearned ▸ hx)
  origin e he := Or.inl (htable ▸ he)
  kept e he _ _ := htable.trans he

theorem leadsToPeer_iff {q : AddressPrefix} : l.leadsToPeer q = true ↔
    ∃ e, l.table.get? q = some e ∧ e.nextHop = l.receiver.peer := by
  simp [leadsToPeer, Option.any_eq_true]

theorem prefers_eq_false_iff {r : Route} : l.prefers r = false ↔
    ∃ e, l.table.get? r.target = some e ∧ e.nextHop ≠ l.receiver.peer ∧
      e.path.length ≤ r.path.length := by
  unfold prefers
  cases h : l.table.get? r.target with
  | none => simp
  | some e => simp

theorem tracks_withdraw (l : Learning) (q : AddressPrefix) : Tracks p l (l.withdraw q) := by
  have hrec := receiver_withdraw l q
  by_cases hqp : q = p
  · subst hqp
    unfold withdraw at hrec ⊢
    split_ifs at hrec ⊢ with hsome hleads
    · obtain ⟨e, he, hhop⟩ := leadsToPeer_iff.mp hleads
      refine ⟨rfl, fun hp => List.mem_append_left _ hp, fun hp => ?_, fun hp => ?_, ?_, ?_⟩
      · exact absurd (List.mem_append_right _ (List.mem_singleton_self q)) hp
      · exact absurd (List.mem_append_right _ (List.mem_singleton_self q)) hp
      · intro e' he'
        simp [ForwardingTable.get?_withdraw] at he'
      · intro e' he' _ hne
        rw [he, Option.some.injEq] at he'
        exact absurd (he' ▸ hhop) hne
    · refine ⟨rfl, id, fun _ => rfl, fun _ _ => ⟨fun e he hhop => ?_, fun x hx => ?_⟩,
        fun _ he => Or.inl he, fun _ he _ _ => he⟩
      · exact absurd (leadsToPeer_iff.mpr ⟨e, he, hhop⟩) hleads
      · simp at hx
    · exact Tracks.refl l
  · refine Tracks.of_frame (registration_withdraw l q) ?_ ?_ ?_
    · unfold withdraw
      split_ifs <;> simp_all
    · unfold withdraw
      split_ifs <;> simp [ForwardingTable.get?_withdraw, hqp]
    · rw [hrec]
      exact Dict.get?_erase_of_ne _ hqp

/-- An offer either replaces the table's route and is reported, or the table has the very route
already, or a route of another account that is no longer. -/
theorem learn_cases {a : Announcement} (hloop : loops own a = false) :
    ((learn own l a).table = (l.table.set (routeOf l.receiver.peer own a)).2 ∧
        (learn own l a).changed = l.changed ++ [a.target] ∧
        l.prefers (routeOf l.receiver.peer own a) = true) ∨
      ((learn own l a).table = l.table ∧ (learn own l a).changed = l.changed ∧
        (l.table.get? a.target = some (routeOf l.receiver.peer own a) ∨
          l.prefers (routeOf l.receiver.peer own a) = false)) := by
  unfold learn
  rw [if_neg (by simp [hloop])]
  dsimp only
  split
  · rename_i hpref
    split
    · rename_i table hset
      exact Or.inl ⟨by rw [hset], rfl, hpref⟩
    · rename_i table hset
      exact Or.inr ⟨rfl, rfl, Or.inl (ForwardingTable.set_fst_eq_false _ (by rw [hset]))⟩
  · rename_i hpref
    exact Or.inr ⟨rfl, rfl, Or.inr (by simpa using hpref)⟩

/-- After an offer that does not change the table, its prefix is matched. -/
theorem matched_learn {a : Announcement} (hloop : loops own a = false)
    (htable : (learn own l a).table = l.table)
    (h : l.table.get? a.target = some (routeOf l.receiver.peer own a) ∨
      l.prefers (routeOf l.receiver.peer own a) = false) : (learn own l a).Matched a.target := by
  have hrec := receiver_learn own l a
  rw [if_neg (by simp [hloop])] at hrec
  have hlearned : (learn own l a).receiver.learned.get? a.target
      = some (routeOf l.receiver.peer own a) := by
    rw [hrec]
    exact Dict.get?_insert_self _ _ _
  rw [prefers_eq_false_iff] at h
  constructor
  · intro e he hhop
    rw [htable] at he
    rw [peer_learn] at hhop
    rcases h with h | ⟨e', he', hne, -⟩
    · rw [hlearned, ← h, he]
    · rw [show l.table.get? a.target = some e' from he', Option.some.injEq] at he
      exact absurd (he ▸ hhop) hne
  · intro x hx
    rw [hlearned, Option.some.injEq] at hx
    rw [htable, ← hx]
    rcases h with h | ⟨e', he', -, hlen⟩
    · exact ⟨_, h, Nat.le_refl _⟩
    · exact ⟨e', he', hlen⟩

theorem tracks_learn (own : Option Address) (l : Learning) (a : Announcement) :
    Tracks p l (learn own l a) := by
  cases hloop : loops own a with
  | true =>
    have heq : learn own l a = l := by
      unfold learn
      rw [if_pos hloop]
    rw [heq]
    exact Tracks.refl l
  | false =>
    have hrec := receiver_learn own l a
    rw [if_neg (by simp [hloop])] at hrec
    have hcases := learn_cases (l := l) hloop
    by_cases hp : a.target = p
    · subst hp
      rcases hcases with ⟨htable, hchanged, hpref⟩ | ⟨htable, hchanged, hsame⟩
      · have hmem : a.target ∈ (learn own l a).changed := by
          rw [hchanged]
          exact List.mem_append_right _ (List.mem_singleton_self _)
        have hentry : (learn own l a).table.get? a.target
            = some (routeOf l.receiver.peer own a) := by
          rw [htable, ForwardingTable.get?_set]
          exact if_pos rfl
        refine ⟨registration_learn own l a, fun _ => hmem, fun h => absurd hmem h,
          fun h => absurd hmem h, fun e he => ?_, fun e he hpath hhop => ?_⟩
        · rw [hentry, Option.some.injEq] at he
          exact Or.inr (he ▸ rfl)
        · -- a route without a path is no longer than any offer
          have hkeep : l.prefers (routeOf l.receiver.peer own a) = false :=
            prefers_eq_false_iff.mpr ⟨e, he, hhop, by simp [hpath]⟩
          rw [hpref] at hkeep
          cases hkeep
      · refine ⟨registration_learn own l a, fun h => hchanged ▸ h, fun _ => by rw [htable],
          fun _ _ => matched_learn hloop htable hsame, fun e he => Or.inl (htable ▸ he),
          fun e he _ _ => by rw [htable, he]⟩
    · refine Tracks.of_frame (registration_learn own l a) ?_ ?_ ?_
      · intro h
        rcases hcases with ⟨-, hchanged, -⟩ | ⟨-, hchanged, -⟩
        · rw [hchanged]
          exact List.mem_append_left _ h
        · rw [hchanged]
          exact h
      · rcases hcases with ⟨htable, -, -⟩ | ⟨htable, -, -⟩
        · rw [htable, ForwardingTable.get?_set]
          exact if_neg hp
        · rw [htable]
      · rw [hrec]
        exact Dict.get?_insert_of_ne _ _ hp

/-! ## Another table of the neighbour -/

theorem get?_adopt {id : TableId} {e : Route} : (l.adopt id).table.get? p = some e ↔
    l.table.get? p = some e ∧ e.nextHop ≠ l.receiver.peer :=
  ForwardingTable.get?_withdrawVia _

/-- After the neighbour has turned to another table, nothing in the table leads to it. -/
theorem matched_adopt (l : Learning) (id : TableId) (p : AddressPrefix) :
    (l.adopt id).Matched p where
  backed e he hhop := absurd hhop (get?_adopt.mp he).2
  best x hx := by simp [adopt] at hx

end Learning

namespace Receiver

variable {r : Receiver} {table : ForwardingTable} {own : Option Address} {u : RouteUpdate}

/-- What is known when an update is looked at: nothing, if it is about another table. -/
def opened (r : Receiver) (table : ForwardingTable) (u : RouteUpdate) : Learning :=
  if r.tableId = u.tableId then { receiver := r, table }
  else { receiver := r, table : Learning }.adopt u.tableId

theorem registration_opened : (r.opened table u).receiver.toRegistration = r.toRegistration := by
  unfold opened
  split <;> rfl

theorem peer_opened : (r.opened table u).receiver.peer = r.peer :=
  congrArg Registration.peer registration_opened

theorem tableId_opened : (r.opened table u).receiver.tableId = u.tableId := by
  unfold opened
  split_ifs with h
  · exact h
  · rfl

theorem changed_opened : (r.opened table u).changed = [] := by
  unfold opened
  split <;> rfl

theorem sound_opened (h : r.Sound) : (r.opened table u).receiver.Sound := by
  unfold opened
  split
  · exact h
  · intro p x hx
    simp [Learning.adopt] at hx

/-- The four ends of an update: a gap, one that is known already, one without changes, and one that
is applied. -/
theorem apply_cases (r : Receiver) (table : ForwardingTable) (own : Option Address)
    (u : RouteUpdate) :
    let l := r.opened table u
    let l' := u.announced.foldl (Learning.learn own) (u.withdrawn.foldl Learning.withdraw l)
    (l.receiver.epoch < u.fromEpoch ∧
        r.apply table own u = (l, .error ⟨l.receiver.tableId, l.receiver.epoch, u.fromEpoch⟩)) ∨
      (u.fromEpoch ≤ l.receiver.epoch ∧ u.toEpoch ≤ l.receiver.epoch ∧
        r.apply table own u = (l, .ok [])) ∨
      (u.fromEpoch ≤ l.receiver.epoch ∧ l.receiver.epoch < u.toEpoch ∧ u.isHeartbeat = true ∧
        r.apply table own u = (l.reach u.toEpoch, .ok [])) ∨
      (u.fromEpoch ≤ l.receiver.epoch ∧ l.receiver.epoch < u.toEpoch ∧ u.isHeartbeat = false ∧
        r.apply table own u = (l'.reach u.toEpoch, .ok l'.changed)) := by
  intro l l'
  unfold apply
  dsimp only
  rw [show (if r.tableId = u.tableId then { receiver := r, table }
    else { receiver := r, table : Learning }.adopt u.tableId) = l from rfl]
  split_ifs with hgap hknown hbeat
  · exact Or.inl ⟨hgap, rfl⟩
  · exact Or.inr (Or.inl ⟨UInt32.not_lt.mp hgap, hknown, rfl⟩)
  · exact Or.inr (Or.inr (Or.inl ⟨UInt32.not_lt.mp hgap, UInt32.not_le.mp hknown, hbeat, rfl⟩))
  · exact Or.inr (Or.inr (Or.inr ⟨UInt32.not_lt.mp hgap, UInt32.not_le.mp hknown,
      by simpa using hbeat, rfl⟩))

/-- Whatever becomes of an update, each prefix is tracked from the moment it is looked at. -/
theorem tracks_apply (r : Receiver) (table : ForwardingTable) (own : Option Address)
    (u : RouteUpdate) (p : AddressPrefix) :
    Learning.Tracks p (r.opened table u) (r.apply table own u).1 := by
  have hreach : ∀ (l : Learning) (e : UInt32), Learning.Tracks p l (l.reach e) := fun l e =>
    Learning.Tracks.of_frame rfl id rfl rfl
  rcases apply_cases r table own u with ⟨-, h⟩ | ⟨-, -, h⟩ | ⟨-, -, -, h⟩ | ⟨-, -, -, h⟩
  · rw [h]
    exact Learning.Tracks.refl _
  · rw [h]
    exact Learning.Tracks.refl _
  · rw [h]
    exact hreach _ _
  · rw [h]
    exact ((Learning.Tracks.foldl Learning.tracks_withdraw _ _).trans
      (Learning.Tracks.foldl (Learning.tracks_learn own) _ _)).trans (hreach _ _)

theorem registration_apply (table : ForwardingTable) :
    (r.apply table own u).1.receiver.toRegistration = r.toRegistration :=
  -- what is tracked of any prefix includes the registration
  (r.tracks_apply table own u u.speaker.toPrefix).registration.trans registration_opened

theorem peer_apply (table : ForwardingTable) : (r.apply table own u).1.receiver.peer = r.peer :=
  congrArg Registration.peer (registration_apply table)

theorem sound_apply (h : r.Sound) : (r.apply table own u).1.receiver.Sound := by
  have hl : (r.opened table u).receiver.Sound := sound_opened h
  have hw : ∀ (qs : List AddressPrefix) (l : Learning), l.receiver.Sound →
      (qs.foldl Learning.withdraw l).receiver.Sound := by
    intro qs
    induction qs with
    | nil => exact fun l hl => hl
    | cons q qs ih => exact fun l hl => ih _ (Learning.sound_withdraw hl q)
  have hn : ∀ (as : List Announcement) (l : Learning), l.receiver.Sound →
      (as.foldl (Learning.learn own) l).receiver.Sound := by
    intro as
    induction as with
    | nil => exact fun l hl => hl
    | cons a as ih => exact fun l hl => ih _ (Learning.sound_learn hl a)
  rcases apply_cases r table own u with ⟨-, h⟩ | ⟨-, -, h⟩ | ⟨-, -, -, h⟩ | ⟨-, -, -, h⟩
  · rw [h]
    exact hl
  · rw [h]
    exact hl
  · rw [h]
    exact hl
  · rw [h]
    exact hn _ _ (hw _ _ hl)

/-- The prefixes that an update reports are those that were noted on the way. -/
theorem changed_of_apply_ok {ps : List AddressPrefix} (h : (r.apply table own u).2 = .ok ps) :
    (r.apply table own u).1.changed = ps := by
  rcases apply_cases r table own u with ⟨-, h'⟩ | ⟨-, -, h'⟩ | ⟨-, -, -, h'⟩ | ⟨-, -, -, h'⟩ <;>
    rw [h'] at h ⊢
  · cases h
  · cases h
    exact changed_opened
  · cases h
    exact changed_opened
  · cases h
    rfl

theorem changed_of_apply_error {g : EpochGap} (h : (r.apply table own u).2 = .error g) :
    (r.apply table own u).1.changed = [] := by
  rcases apply_cases r table own u with ⟨-, h'⟩ | ⟨-, -, h'⟩ | ⟨-, -, -, h'⟩ | ⟨-, -, -, h'⟩ <;>
    rw [h'] at h ⊢
  · exact changed_opened
  · cases h
  · cases h
  · cases h

end Receiver

end IlpConnector
