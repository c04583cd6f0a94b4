import IlpConnector.Proofs.BroadcastSteps

/-!
# Broadcasts go on until they are stopped

In the courses here (`SenderEvent.Course`) accounts of a node come and go, all broadcasts may be
ended, packets arrive and what they start is done, and time passes.  Whatever comes of the updates
that are sent, there is one broadcast for each sender that has been asked for one last, and it goes
on until it is stopped (`SenderEvent.broadcasts_of_course`).
-/

namespace IlpConnector

open Procedure

variable {name : String} {a : AccountId} {k id : ℕ} {es : List SenderEvent}
  {s : Scheduler Network Procedure Outcome} {f : Task Outcome}
  {p p' : Scheduler.Point Network Procedure Outcome} {e : Option SenderEvent}

namespace SenderEvent

/-! ## What may happen -/

/-- A node has another exchange of routes. -/
def exchanging (s : Scheduler Network Procedure Outcome) (name : String) (m : Node)
    (b : Broadcaster) : Scheduler Network Procedure Outcome :=
  { s with state := s.state.setNode name { m with broadcaster := b } }

/-- One step of a node's exchange of routes: accounts come and go, tasks begin, whatever is no
concern of the senders changes, a task gets its turn or goes on with it, or time passes. -/
inductive Happens (name : String) : Scheduler.Point Network Procedure Outcome →
    Option SenderEvent → Scheduler.Point Network Procedure Outcome → Prop
  | register {s : Scheduler Network Procedure Outcome} {m : Node} (account : AccountSettings)
      (link : LinkRef) (id : TableId) (hm : s.state.nodes.get? name = some m) :
      Happens name (s, none)
        (if m.broadcaster.settings.broadcastEnabled && account.sendsRoutes then
          some (.renewed account.id) else none)
        (exchanging s name m (m.broadcaster.register account link id).2, none)
  | remove {s : Scheduler Network Procedure Outcome} {m : Node} (account : AccountId)
      (hm : s.state.nodes.get? name = some m) :
      Happens name (s, none) (some (.removed account))
        (exchanging s name m (m.broadcaster.remove account), none)
  | shutdown {s : Scheduler Network Procedure Outcome} {m : Node}
      (hm : s.state.nodes.get? name = some m) :
      Happens name (s, none) (some .silenced)
        (exchanging s name m m.broadcaster.shutdown, none)
  | start {s : Scheduler Network Procedure Outcome} {turn : Option (ℕ × Task Outcome)}
      {c : Procedure} (hc : c.MayBegin name) :
      Happens name (s, turn) none ((s.add (task c)).2, turn)
  | outside {s : Scheduler Network Procedure Outcome} {turn : Option (ℕ × Task Outcome)}
      {n : Network} (h : s.state.Keeps name n) :
      Happens name (s, turn) none ({ s with state := n }, turn)
  | pick {s : Scheduler Network Procedure Outcome} {t : Turn Network Procedure Outcome}
      {before after : List (Turn Network Procedure Outcome)}
      (h : s.ready = before ++ t :: after) :
      Happens name (s, none) none ({ s with ready := before ++ after }, some (t.id, t.next none))
  | move {s : Scheduler Network Procedure Outcome} {id : ℕ} {f : Task Outcome}
      {e : Option SenderEvent} (h : Marks name s id f e) :
      Happens name (s, some (id, f)) e
        ((s.move task id f).1, (s.move task id f).2.map fun f => (id, f))
  | pass {s : Scheduler Network Procedure Outcome} (time : ℕ) :
      Happens name (s, none) none (s.advanceTo time, none)

/-- What may have happened to a node's senders since a start, and what it has led to. -/
inductive Course (name : String) (start : Scheduler Network Procedure Outcome) :
    List SenderEvent → Scheduler.Point Network Procedure Outcome → Prop
  | begin : Course name start [] (start, none)
  | step {es : List SenderEvent} {e : Option SenderEvent}
      {p p' : Scheduler.Point Network Procedure Outcome} (h : Course name start es p)
      (hstep : Happens name p e p') : Course name start (es ++ e.toList) p'

theorem Happens.step (h : Happens name p e p') :
    Scheduler.Step task (fun _ => True) (fun _ _ => True) p p' := by
  cases h with
  | register | remove | shutdown | outside => exact .outside trivial
  | start => exact .start trivial
  | pick h => exact .pick h
  | move => exact .move
  | pass time => exact .pass time

/-! ## What is so at every point -/

/-- What is so at every point of a course: the history accounts for the senders, every task does what
it may, and the task of every live broadcast is in one of its rounds. -/
structure Inv (name : String) (es : List SenderEvent)
    (p : Scheduler.Point Network Procedure Outcome) : Prop where
  explains : Explains name es (p.2.bind fun t => launchOf name t.2) p.1.state
  pending : ∀ t ∈ p.1.pending, ∀ ending, Behaves name es t.id (t.next ending)
  turn : ∀ t ∈ p.2, Acts name es t.1 t.2
  going : ∀ a k id, Live a k id es → Broadcasts name a k id p
  told : ∀ before a id after, es = before ++ told a id :: after → ∃ k, Live a k id before

theorem live_append_toList (h : Live a k id (es ++ e.toList)) :
    e = some (began a k id) ∨ Live a k id es := by
  cases e with
  | none => exact Or.inr (by simpa using h)
  | some e => exact (live_concat.mp h).imp (congrArg some) And.left

theorem told_append_toList
    (h : ∀ before a id after, es = before ++ told a id :: after → ∃ k, Live a k id before)
    (he : ∀ a id, e = some (told a id) → ∃ k, Live a k id es) :
    ∀ before a id after, es ++ e.toList = before ++ told a id :: after →
      ∃ k, Live a k id before := by
  intro before a id after heq
  cases e with
  | none => exact h before a id after (by simpa using heq)
  | some e =>
    rcases concat_eq_append_cons_iff.mp heq with ⟨rfl, rfl, -⟩ | ⟨between, hes, -⟩
    · exact he a id rfl
    · exact h before a id between hes

theorem Inv.move (h : Inv name es (s, some (id, f))) (hmark : Marks name s id f e) :
    Inv name (es ++ e.toList)
      ((s.move task id f).1, (s.move task id f).2.map fun g => (id, g)) := by
  obtain ⟨hexplains, hturn, hspawned, hawaited, hslept, htold⟩ :=
    (h.turn _ rfl).advances h.explains hmark
  constructor
  · simpa [Option.bind_map, Function.comp_def] using hexplains
  · intro t ht ending
    rcases Scheduler.mem_pending_move ht with ⟨u, hu, hid, hnext⟩ | ⟨c, next, hf, rfl⟩ |
      ⟨u, limit, next, hf, rfl⟩ | ⟨millis, next, hf, rfl⟩
    · obtain ⟨ending', hending⟩ := hnext ending
      rw [hid, hending]
      exact (h.pending u hu ending').mono (List.subset_append_left _ _)
    · exact hspawned c next hf
    · exact hawaited u limit next hf ending
    · exact hslept millis next hf
  · rintro ⟨id', g⟩ hg
    obtain ⟨g', hg', heq⟩ := Option.mem_map.mp hg
    cases heq
    exact hturn g hg'
  · intro a k task hlive
    rcases live_append_toList hlive with rfl | hlive
    · cases hmark
      exact Or.inl ⟨_, (Scheduler.pending_add _).mpr (Or.inr rfl), rfl, fun _ => .check⟩
    · exact (h.going a k task hlive).move (exists_runningAt h.explains hlive)
  · exact told_append_toList h.told htold

/-- A step that is no concern of the senders, after which all tasks are still there. -/
theorem Inv.unmarked {turn : Option (ℕ × Task Outcome)}
    {s' : Scheduler Network Procedure Outcome} (h : Inv name es (s, turn))
    (hkeeps : s.state.Keeps name s'.state) (hkept : ∀ t ∈ s.pending, t ∈ s'.pending)
    (hnew : ∀ t ∈ s'.pending, t ∈ s.pending ∨ ∀ ending, Orderly name (t.next ending)) :
    Inv name es (s', turn) where
  explains := h.explains.keeps hkeeps
  pending t ht ending := by
    rcases hnew t ht with ht | ht
    · exact h.pending t ht ending
    · exact .orderly (ht ending)
  turn := h.turn
  going a k id hlive := by
    rcases h.going a k id hlive with ⟨t, ht, hround⟩ | hturn
    · exact Or.inl ⟨t, hkept t ht, hround⟩
    · exact Or.inr hturn
  told := h.told

/-- Accounts come and go between the turns of tasks. -/
theorem Inv.exchanging {m : Node} {b : Broadcaster} (h : Inv name es (s, none))
    (he : ∀ x, e = some x → x.Drops) (hkeyed : b.SendersOf fun _ => True)
    (htallies : Tallies (es ++ e.toList) b.duty b.nextBroadcast none) :
    Inv name (es ++ e.toList) (exchanging s name m b, none) where
  explains := explains_setNode hkeyed htallies
  pending t ht ending := (h.pending t ht ending).mono (List.subset_append_left _ _)
  turn := by simp
  going a k id hlive := by
    rcases live_append_toList hlive with hbegan | hlive
    · exact (he _ hbegan).elim
    · exact h.going a k id hlive
  told := told_append_toList h.told fun a id htold => (he _ htold).elim

/-- The task that gets its turn is the one that had waited for it. -/
theorem Inv.pick {t : Turn Network Procedure Outcome}
    {before after : List (Turn Network Procedure Outcome)} (h : Inv name es (s, none))
    (hready : s.ready = before ++ t :: after) :
    Inv name es ({ s with ready := before ++ after }, some (t.id, t.next none)) := by
  have hpending : ∀ u, u ∈ s.pending ↔
      u = t ∨ u ∈ ({ s with ready := before ++ after } : Scheduler _ _ _).pending := by
    intro u
    simp only [Scheduler.mem_pending, hready, List.mem_append, List.mem_cons]
    tauto
  have hbehaves := h.pending t ((hpending t).mpr (Or.inl rfl)) none
  constructor
  · rw [Option.bind_some, hbehaves.launchOf_eq_none]
    exact h.explains
  · exact fun u hu => h.pending u ((hpending u).mpr (Or.inr hu))
  · rintro _ ⟨⟩
    exact .behaves hbehaves
  · intro a k id hlive
    rcases h.going a k id hlive with ⟨u, hu, hid, hround⟩ | ⟨f, hf, -⟩
    · rcases (hpending u).mp hu with rfl | hu
      · exact Or.inr ⟨_, congrArg (fun i => some (i, _)) hid, Or.inl (hround none)⟩
      · exact Or.inl ⟨u, hu, hid, hround⟩
    · cases hf
  · exact h.told

/-- One step keeps what is so at every point. -/
theorem Inv.step (h : Inv name es p) (hstep : Happens name p e p') :
    Inv name (es ++ e.toList) p' := by
  cases hstep with
  | @register s m account link id hm =>
    -- an account that is told nothing leaves the sender that there may be
    obtain ⟨m', hm', hkeyed, htallies⟩ := h.explains
    obtain rfl := Option.some.inj (hm.symm.trans hm')
    refine h.exchanging (fun x hx => ?_) (hkeyed.register trivial link id) ?_
    · split_ifs at hx
      cases hx
      trivial
    · rw [Broadcaster.nextBroadcast_register, funext (Broadcaster.duty_register _ account link id)]
      split_ifs
      · exact htallies.dropped trivial
      · simpa using htallies
  | @remove s m account hm =>
    obtain ⟨m', hm', hkeyed, htallies⟩ := h.explains
    obtain rfl := Option.some.inj (hm.symm.trans hm')
    refine h.exchanging (by rintro x ⟨⟩; trivial) (hkeyed.remove account) ?_
    rw [Broadcaster.nextBroadcast_remove, funext (Broadcaster.duty_remove _ account)]
    exact htallies.dropped trivial
  | @shutdown s m hm =>
    obtain ⟨m', hm', hkeyed, htallies⟩ := h.explains
    obtain rfl := Option.some.inj (hm.symm.trans hm')
    refine h.exchanging (by rintro x ⟨⟩; trivial) hkeyed.shutdown ?_
    rw [funext (Broadcaster.duty_shutdown _)]
    exact htallies.dropped trivial
  | start hc =>
    rw [Option.toList_none, List.append_nil]
    refine h.unmarked (.of_eq rfl) (fun t ht => (Scheduler.pending_add _).mpr (Or.inl ht))
      fun t ht => ((Scheduler.pending_add _).mp ht).imp_right ?_
    rintro rfl
    exact fun _ => orderly_task hc
  | outside hkeeps =>
    rw [Option.toList_none, List.append_nil]
    exact h.unmarked hkeeps (fun _ => id) fun _ => Or.inl
  | pick hready =>
    rw [Option.toList_none, List.append_nil]
    exact h.pick hready
  | move hmark => exact h.move hmark
  | pass time =>
    rw [Option.toList_none, List.append_nil]
    exact h.unmarked (.of_eq rfl) (fun t => (Scheduler.pending_advanceTo time).mpr)
      fun t ht => Or.inl ((Scheduler.pending_advanceTo time).mp ht)

section Course

variable {start : Scheduler Network Procedure Outcome} {turn : Option (ℕ × Task Outcome)} {m : Node}

theorem Course.inv (h : Course name start es p) (hstart : Inv name [] (start, none)) :
    Inv name es p := by
  induction h with
  | begin => exact hstart
  | step _ hstep ih => exact ih.step hstep

theorem Course.numbered (h : Course name start es p) (hstart : Scheduler.Numbered (start, none)) :
    Scheduler.Numbered p := by
  induction h with
  | begin => exact hstart
  | step _ hstep ih => exact ih.step hstep.step

/-- No account has a sender, and no task is there, when a node begins. -/
theorem inv_start (hready : start.ready = []) (hasleep : start.asleep = [])
    (hm : start.state.nodes.get? name = some m) (hsenders : m.broadcaster.senders = ∅) :
    Inv name [] (start, none) where
  explains := by
    refine ⟨m, hm, fun a s hs => ?_, tallies_nil fun a => ?_⟩
    · rw [hsenders] at hs
      cases hs
    · rw [Broadcaster.duty, hsenders]
      rfl
  pending t ht := by simp [Scheduler.mem_pending, hready, hasleep] at ht
  turn := by simp
  going a k id hlive := by simpa using hlive.began_mem
  told before a id after h := by simp at h

theorem numbered_start (hready : start.ready = []) (hasleep : start.asleep = []) :
    Scheduler.Numbered (start, none) := by
  constructor <;> simp [Scheduler.idsAt, Scheduler.ids, Scheduler.pending, hready, hasleep]

theorem Course.unmarked (h : Course name start es p) (hstep : Happens name p none p') :
    Course name start es p' := by
  simpa using h.step hstep

/-- Whatever tasks do is part of a course, and so are the packets that arrive and what changes around
them.  No sender goes by that. -/
theorem Course.steps (h : Course name start es p)
    (hsteps : Relation.ReflTransGen
      (Scheduler.Step task (Procedure.MayBegin name) (Network.Keeps name)) p p') :
    ∃ es', Course name start (es ++ es') p' ∧ ∀ e ∈ es', ¬ e.Drops := by
  induction hsteps with
  | refl => exact ⟨[], by simpa using h⟩
  | tail _ hstep ih =>
    obtain ⟨es', h, hes'⟩ := ih
    cases hstep with
    | start hc => exact ⟨es', h.unmarked (.start hc), hes'⟩
    | outside hkeeps => exact ⟨es', h.unmarked (.outside hkeeps), hes'⟩
    | pick hready => exact ⟨es', h.unmarked (.pick hready), hes'⟩
    | @move s id f =>
      obtain ⟨e, hmark⟩ := exists_marks name s id f
      refine ⟨es' ++ e.toList, List.append_assoc es es' _ ▸ h.step (.move hmark), ?_⟩
      exact List.forall_mem_append.mpr ⟨hes', fun x hx =>
        (Option.mem_toList.mp hx ▸ hmark : Marks name s id f (some x)).not_drops⟩
    | pass time => exact ⟨es', h.unmarked (.pass time), hes'⟩

/-- A neighbour that asks for routes, over a link that brings its packets, has a broadcast begin, if
none is going. -/
theorem Course.requested {link : LinkRef} {q : Prepare} {c : RouteControl} {sender : Sender}
    (h : Course name start es (s, none)) (hstart : Inv name [] (start, none))
    (hbrings : s.state.Brings link name a m) (hq : q.destination = controlDestination)
    (hc : RouteControl.ofPrepare s.state.now q = .ok c) (hmode : c.mode = .sync)
    (hs : m.broadcaster.senders.get? a = some sender) (hnone : sender.broadcast = none) :
    ∃ s', Course name start (es ++ [asked a .sync] ++
      [began a m.broadcaster.nextBroadcast (s.nextId + 1)]) (s', none) := by
  obtain ⟨l, lid, hl, hincoming⟩ := hbrings.handler
  have hfound : afterArrival q (s.state.link? link, s.state.ownerOf link)
      = .act (handing name a q) fun r => (afterReception name a q r).bind .done := by
    simp only [Flow.bind_done]
    rw [afterArrival, hl, Option.map_some, hincoming, hbrings.owner]
  have hstarted : (m.broadcaster.obey sender c).1 = some m.broadcaster.nextBroadcast :=
    (Broadcaster.obey_fst_eq_some_iff hs).mpr
      ⟨hmode, ⟨sender.mode, Broadcaster.duty_eq_some_iff.mpr ⟨sender, hs, rfl, hnone⟩⟩, rfl⟩
  have htaken : (handing name a q s.state).1
      = Broadcaster.accepted (some (.broadcast m.broadcaster.nextBroadcast)) := by
    rw [handing_eq hbrings.node, Broadcaster.receive_of_request m.operator hq hc hs, hstarted]
    rfl
  -- The packet arrives and gets its turn.
  let s₁ : Scheduler Network Procedure Outcome :=
    { s with nextId := s.nextId + 1, ready := s.ready ++ [] }
  have harrive : Course name start es ((s.add (task (.arrive link q))).2, none) :=
    h.unmarked (.start (Or.inl trivial))
  have hready : (s.add (task (.arrive link q))).2.ready
      = s.ready ++ .free s.nextId (task (.arrive link q)) :: [] := rfl
  have hturn : Course name start es (s₁, some (s.nextId, task (.arrive link q))) :=
    harrive.unmarked (.pick hready)
  have hexplains : Explains name es none s.state := (h.inv hstart).explains
  rw [show task (.arrive link q) = _ from arriveAt_eq] at hturn
  have hlook : Course name start es
      (s₁, some (s.nextId, afterArrival q (s.state.link? link, s.state.ownerOf link))) :=
    hturn.unmarked (.move (.nothing (fun _ _ hasks => hasks.not_keeps hexplains rfl (.of_eq rfl))
      (by simp) (by simp)))
  -- The node takes the packet.
  rw [hfound] at hlook
  have hhand : Course name start (es ++ [asked a c.mode])
      ({ s₁ with state := (handing name a q s.state).2 },
        some (s.nextId, (afterReception name a q (handing name a q s.state).1).bind .done)) :=
    hlook.step (.move (.asked (.intro hbrings.node hs hq hc)))
  rw [htaken, hmode] at hhand
  -- The broadcast begins, and the neighbour gets its answer.
  have hspawn := hhand.step (.move .began)
  exact ⟨_, hspawn.unmarked (.move (.nothing (by rintro _ _ ⟨⟩) (by simp [Flow.bind])
    (by simp [Flow.bind])))⟩

/-- No broadcast is stray, and none is lost.

A broadcast that has begun and has not been stopped since is that of the sender that its account has
now.  That sender has no other one and is to broadcast, for which it has been asked last.  Its task
goes on with the broadcast, whatever comes of the updates that it has sent, until the account asks to
be idle, gets another sender or is removed, or all broadcasts are ended.  Once it is stopped the task
has no account told any more. -/
theorem broadcasts_of_course (hready : start.ready = []) (hasleep : start.asleep = [])
    (hm : start.state.nodes.get? name = some m) (hsenders : m.broadcaster.senders = ∅)
    (h : Course name start es (s, turn)) :
    (Scheduler.idsAt (s, turn)).Nodup ∧
    (∀ a k id, Live a k id es →
      (∃ t, s.state.senderOf name a = some t ∧ t.mode = .sync ∧ t.broadcast = some k) ∧
      lastAsked a es = some .sync ∧
      (∀ k' id', Live a k' id' es → k' = k ∧ id' = id) ∧
      Broadcasts name a k id (s, turn)) ∧
    (turn = none → ∀ a t k, s.state.senderOf name a = some t → t.broadcast = some k →
      ∃ id, Live a k id es) ∧
    (∀ before a id after, es = before ++ told a id :: after → ∃ k, Live a k id before) ∧
    ∀ p', Relation.ReflTransGen
        (Scheduler.Step task (Procedure.MayBegin name) (Network.Keeps name)) (s, turn) p' →
      ∃ es', Course name start (es ++ es') p' ∧ ∀ a k id, Live a k id es → asked a .idle ∉ es' →
        Live a k id (es ++ es') ∧ Broadcasts name a k id p' := by
  have hstart := inv_start hready hasleep hm hsenders
  have hinv := h.inv hstart
  obtain ⟨m', hm', -, htallies⟩ := hinv.explains
  have hduty : ∀ a mode k, m'.broadcaster.duty a = some (mode, k) ↔
      ∃ t, s.state.senderOf name a = some t ∧ t.mode = mode ∧ t.broadcast = k := by
    intro a mode k
    rw [Broadcaster.duty_eq_some_iff, Network.senderOf, hm', Option.bind_some]
  refine ⟨(h.numbered (numbered_start hready hasleep)).nodup, fun a k id hlive => ?_, ?_,
    hinv.told, fun p' hsteps => ?_⟩
  · obtain ⟨mode, hrunning⟩ := htallies.live a k id hlive
    obtain ⟨rfl, hasked, -⟩ := htallies.running a mode k hrunning
    refine ⟨(hduty a _ _).mp hrunning, hasked, fun k' id' hlive' => ?_, hinv.going a k id hlive⟩
    obtain ⟨mode', hrunning'⟩ := htallies.live a k' id' hlive'
    obtain ⟨-, rfl⟩ : RouteMode.sync = mode' ∧ k = k' := by
      simpa using hrunning.symm.trans hrunning'
    exact ⟨rfl, htallies.unique a k id' id hlive'.began_mem hlive.began_mem⟩
  · rintro rfl a t k ht hk
    obtain ⟨-, -, hor⟩ := htallies.running a t.mode k ((hduty a _ _).mpr ⟨t, ht, rfl, hk⟩)
    exact hor.resolve_left (by simp)
  · obtain ⟨es', h', hes'⟩ := h.steps hsteps
    refine ⟨es', h', fun a k id hlive hidle => ?_⟩
    have hlive' : Live a k id (es ++ es') := hlive.append fun e he hstops =>
      hes' e he (hstops.drops fun heq => hidle (heq ▸ he))
    exact ⟨hlive', (h'.inv hstart).going a k id hlive'⟩

end Course

open Broadcaster.Comeback Scheduler.Parting

/-- The node has a link to its neighbour, who has not been registered. -/
def aloof : Node := { between with broadcaster := nobody }

def opening : Scheduler Network Procedure Outcome :=
  { quiet with state := quiet.state.setNode "between" aloof }

/-- The near neighbour is registered and asks for routes, and is told. -/
theorem broadcasts_of_course_near :
    opening.ready = [] ∧ opening.asleep = [] ∧
    opening.state.nodes.get? "between" = some aloof ∧ aloof.broadcaster.senders = ∅ ∧
    ∃ es s, Course "between" opening es (s, none) ∧ lastAsked near.id es = some .sync ∧
      ∃ id, Live near.id 0 id es ∧
        ∃ t ∈ s.pending, t.id = id ∧ ∀ ending, Round "between" near.id 0 (t.next ending) := by
  have hnode : opening.state.nodes.get? "between" = some aloof := by
    rw [opening, Network.get?_nodes_setNode, if_pos rfl]
  refine ⟨rfl, rfl, hnode, rfl, ?_⟩
  let m : Node := { aloof with broadcaster := (nobody.register near ⟨0⟩ (.plain 1)).2 }
  let registered := exchanging opening "between" aloof m.broadcaster
  have hregister : Course "between" opening [renewed near.id] (registered, none) :=
    Course.begin.step (.register near ⟨0⟩ (.plain 1) hnode)
  have hsender : m.broadcaster.senders.get? near.id
      = some { peer := near.id, link := ⟨0⟩, serial := 0 } := by
    rw [Broadcaster.senders_register rfl, if_pos (by decide), Dict.get?_insert_self]
    rfl
  have hbrings : registered.state.Brings ⟨0⟩ "between" near.id m :=
    ⟨rfl, ⟨nearLink, _, rfl, rfl⟩, Dict.get?_insert_self _ _ _⟩
  have hrequest : RouteControl.ofPrepare registered.state.now (asking .sync)
      = .ok ⟨.sync, .plain 3, 0, []⟩ := by decide +kernel
  obtain ⟨s, hs⟩ := hregister.requested (inv_start rfl rfl hnode rfl) hbrings rfl hrequest rfl
    hsender rfl
  have hlive : Live near.id 0 1 [renewed near.id, asked near.id .sync, began near.id 0 1] :=
    ⟨[renewed near.id, asked near.id .sync], [], rfl, by simp⟩
  obtain ⟨-, hall, -⟩ := broadcasts_of_course rfl rfl hnode rfl hs
  obtain ⟨-, hasked, -, hgoing⟩ := hall _ _ _ hlive
  refine ⟨_, s, hs, hasked, 1, hlive, ?_⟩
  rcases hgoing with hpending | ⟨f, hf, -⟩
  · exact hpending
  · cases hf

end SenderEvent

end IlpConnector
