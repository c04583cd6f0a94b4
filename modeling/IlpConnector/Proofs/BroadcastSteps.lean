import IlpConnector.Proofs.BroadcastStages
import IlpConnector.Proofs.Tasks

/-!
# What the moves of tasks mean for a node's broadcasts

A move of a task is marked with what it means for the senders of a node and for their broadcasts
(`SenderEvent.Marks`).  If the history before it accounts for the senders (`SenderEvent.Explains`)
and the task does what it may (`SenderEvent.Acts`), then both are so with the mark added
(`SenderEvent.Acts.advances`), and a task that broadcasts goes on with it
(`SenderEvent.Broadcasts.move`).
-/

namespace IlpConnector

open Procedure

variable {name : String} {a account : AccountId} {k id : ℕ} {es : List SenderEvent}
  {s : Scheduler Network Procedure Outcome} {f : Task Outcome} {e : Option SenderEvent}

namespace SenderEvent

/-- A task is about to hand a node a request, which is obeyed by the sender of the account that it
comes from. -/
inductive Asks (name : String) (n : Network) : Task Outcome → AccountId → RouteControl → Prop
  | intro {account : AccountId} {p : Prepare} {c : RouteControl} {m : Node} {s : Sender}
      {next : Outcome → Task Outcome} (hm : n.nodes.get? name = some m)
      (hs : m.broadcaster.senders.get? account = some s) (hp : p.destination = controlDestination)
      (hc : RouteControl.ofPrepare n.now p = .ok c) :
      Asks name n (.act (handing name account p) fun r =>
        (afterReception name account p r).bind next) account c

/-- What the next move of a task means for a node's senders and their broadcasts, if anything. -/
inductive Marks (name : String) (s : Scheduler Network Procedure Outcome) (id : ℕ) :
    Task Outcome → Option SenderEvent → Prop
  | asked {f : Task Outcome} {account : AccountId} {c : RouteControl}
      (h : Asks name s.state f account c) : Marks name s id f (some (.asked account c.mode))
  | began {account : AccountId} {number : ℕ} {next : ℕ → Task Outcome} :
      Marks name s id (.spawn (.broadcast name account number) next)
        (some (.began account number s.nextId))
  | told {account : AccountId} {serial : ℕ} {next : ℕ → Task Outcome} :
      Marks name s id (.spawn (.announce name account serial) next) (some (.told account id))
  | nothing {f : Task Outcome} (hasked : ∀ account c, ¬ Asks name s.state f account c)
      (hbegan : ∀ account number next, f ≠ .spawn (.broadcast name account number) next)
      (htold : ∀ account serial next, f ≠ .spawn (.announce name account serial) next) :
      Marks name s id f none

/-- A task may always go on. -/
theorem exists_marks (name : String) (s : Scheduler Network Procedure Outcome) (id : ℕ)
    (f : Task Outcome) : ∃ e, Marks name s id f e := by
  by_cases hasked : ∃ account c, Asks name s.state f account c
  · obtain ⟨account, c, h⟩ := hasked
    exact ⟨_, .asked h⟩
  by_cases hbegan : ∃ account number next, f = .spawn (.broadcast name account number) next
  · obtain ⟨account, number, next, rfl⟩ := hbegan
    exact ⟨_, .began⟩
  by_cases htold : ∃ account serial next, f = .spawn (.announce name account serial) next
  · obtain ⟨account, serial, next, rfl⟩ := htold
    exact ⟨_, .told⟩
  exact ⟨none, .nothing (fun account c h => hasked ⟨account, c, h⟩)
    (fun account number next h => hbegan ⟨account, number, next, h⟩)
    fun account serial next h => htold ⟨account, serial, next, h⟩⟩

theorem Marks.not_drops {e : SenderEvent} (h : Marks name s id f (some e)) : ¬ e.Drops := by
  cases h <;> exact not_false

/-! ## What tasks are doing -/

/-- A task is orderly, or in a round of the broadcast that it has begun as. -/
inductive Behaves (name : String) (es : List SenderEvent) (id : ℕ) : Task Outcome → Prop
  | orderly {f : Task Outcome} (h : Orderly name f) : Behaves name es id f
  | round {f : Task Outcome} {account : AccountId} {number : ℕ}
      (hbegan : began account number id ∈ es) (hf : Round name account number f) :
      Behaves name es id f

/-- What a task may be about to do when it has its turn: it has an account told only for a broadcast
that is live. -/
inductive Acts (name : String) (es : List SenderEvent) (id : ℕ) : Task Outcome → Prop
  | behaves {f : Task Outcome} (h : Behaves name es id f) : Acts name es id f
  | telling {account : AccountId} {number : ℕ} (serial millis : ℕ)
      (h : Live account number id es) : Acts name es id (telling name account serial number millis)
  | launching {account : AccountId} {number : ℕ} {next : ℕ → Task Outcome}
      (hnext : ∀ t, Orderly name (next t)) :
      Acts name es id (.spawn (.broadcast name account number) next)

/-- A task is in a round of a broadcast.  If it waits, it stays in it whatever it hears of. -/
def Broadcasts (name : String) (account : AccountId) (number id : ℕ)
    (p : Scheduler.Point Network Procedure Outcome) : Prop :=
  (∃ t ∈ p.1.pending, t.id = id ∧ ∀ e, Round name account number (t.next e)) ∨
    ∃ f, p.2 = some (id, f) ∧
      (Round name account number f ∨
        ∃ serial millis, f = telling name account serial number millis)

theorem Behaves.mono {es' : List SenderEvent} (h : Behaves name es id f) (hes : es ⊆ es') :
    Behaves name es' id f := by
  cases h with
  | orderly h => exact .orderly h
  | round hbegan hf => exact .round (hes hbegan) hf

theorem Behaves.launchOf_eq_none (h : Behaves name es id f) : launchOf name f = none := by
  cases h with
  | orderly h => exact h.launchOf_eq_none
  | round _ hf => exact hf.launchOf_eq_none

/-! ## What a node makes of a packet -/

/-- A history accounts for the senders of a node. -/
def Explains (name : String) (es : List SenderEvent) (launch : Option (AccountId × ℕ))
    (n : Network) : Prop :=
  ∃ m, n.nodes.get? name = some m ∧ m.broadcaster.SendersOf (fun _ => True) ∧
    Tallies es m.broadcaster.duty m.broadcaster.nextBroadcast launch

theorem Explains.keeps {launch : Option (AccountId × ℕ)} {n n' : Network}
    (h : Explains name es launch n) (hn : n.Keeps name n') : Explains name es launch n' := by
  obtain ⟨m, hm, hkeyed, htallies⟩ := h
  obtain ⟨m', hm', hkeyed', hduty, hnext⟩ := hn m hm hkeyed
  exact ⟨m', hm', hkeyed', hduty.symm ▸ hnext.symm ▸ htallies⟩

theorem explains_setNode {launch : Option (AccountId × ℕ)} {n : Network} {m : Node}
    (hkeyed : m.broadcaster.SendersOf fun _ => True)
    (h : Tallies es m.broadcaster.duty m.broadcaster.nextBroadcast launch) :
    Explains name es launch (n.setNode name m) :=
  ⟨m, by rw [Network.get?_nodes_setNode, if_pos rfl], hkeyed, h⟩

/-- Where a task is about to hand a packet over, only that packet can be the request. -/
theorem asks_hand {n : Network} {p : Prepare} {c : RouteControl} {next : Outcome → Task Outcome}
    (h : Asks name n (.act (handing name account p) fun r =>
      (afterReception name account p r).bind next) a c) :
    a = account ∧ p.destination = controlDestination ∧ RouteControl.ofPrepare n.now p = .ok c ∧
      ∃ m s, n.nodes.get? name = some m ∧ m.broadcaster.senders.get? account = some s := by
  generalize hf : (Flow.act _ _ : Task Outcome) = f at h
  cases h with
  | @intro account' p' _ m s next' hm hs hp hc =>
    -- `handing` may be the same function for two packets, but a packet that is switched is named.
    injection hf with _ _ hnext
    have hswitched := congrFun hnext .switched
    simp only [afterReception, Flow.bind, Flow.call.injEq, Procedure.switch.injEq, true_and]
      at hswitched
    obtain ⟨⟨rfl, rfl⟩, -⟩ := hswitched
    exact ⟨rfl, hp, hc, m, s, hm, hs⟩

theorem handing_eq {n : Network} {m : Node} {p : Prepare} (hm : n.nodes.get? name = some m) :
    handing name account p n = ((m.broadcaster.receive m.operator n.now account p).1,
      n.setNode name { m with
        broadcaster := (m.broadcaster.receive m.operator n.now account p).2 }) := by
  rw [handing, hm]
  rfl

/-- A request is obeyed, which no task does that leaves the senders alone. -/
theorem Asks.not_keeps {n : Network} {c : RouteControl} (h : Asks name n f a c)
    (hn : Explains name es none n) {ρ : Type}
    {g : Network → ρ × Network} {next : ρ → Task Outcome} (hf : f = .act g next) :
    ¬ n.Keeps name (g n).2 := by
  cases h with
  | @intro _ p _ m s _ hm hs hp hc =>
    cases hf
    intro hkeeps
    obtain ⟨m₀, hm₀, hkeyed, -⟩ := hn
    obtain rfl := Option.some.inj (hm.symm.trans hm₀)
    obtain ⟨m', hm', -, -, hnext⟩ := hkeeps m hm hkeyed
    have hreceive := Broadcaster.receive_of_request m.operator hp hc hs
    rw [handing_eq hm, Network.get?_nodes_setNode, if_pos rfl] at hm'
    obtain rfl := Option.some.inj hm'
    have hobeyed : (m.broadcaster.receive m.operator n.now a p).2.nextBroadcast
        = m.broadcaster.nextBroadcast + 1 := by
      rw [hreceive]
      rfl
    exact Nat.succ_ne_self _ (hobeyed.symm.trans hnext)

section Hand

variable {m : Node} {p : Prepare} {next : Outcome → Task Outcome}

/-- A request is obeyed, and the broadcast that it starts is about to begin. -/
theorem explains_request {n : Network} {c : RouteControl} {sender : Sender}
    (hm : n.nodes.get? name = some m) (hkeyed : m.broadcaster.SendersOf fun _ => True)
    (htallies : Tallies es m.broadcaster.duty m.broadcaster.nextBroadcast none)
    (hp : p.destination = controlDestination) (hc : RouteControl.ofPrepare n.now p = .ok c)
    (hs : m.broadcaster.senders.get? account = some sender) (hnext : ∀ o, Orderly name (next o)) :
    let x := handing name account p n
    let g := (afterReception name account p x.1).bind next
    Explains name (es ++ [asked account c.mode]) (launchOf name g) x.2 ∧
      Acts name (es ++ [asked account c.mode]) id g := by
  have hkeyed' : (m.broadcaster.obey sender c).2.SendersOf fun _ => True :=
    hkeyed.withSender _ hs (sender.peer_obey _ _ c)
  have hduty : (m.broadcaster.obey sender c).2.duty = fun a' =>
      (asked account c.mode).after m.broadcaster.nextBroadcast a' (m.broadcaster.duty a') :=
    funext (Broadcaster.duty_obey hs (hkeyed account sender hs).1 c)
  have hexplains : ∀ launch, (∀ a' k, launch = some (a', k) ↔ c.mode = .sync ∧
      (∃ mode, m.broadcaster.duty account = some (mode, none)) ∧ a' = account ∧
        k = m.broadcaster.nextBroadcast) →
      Explains name (es ++ [asked account c.mode]) launch
        (n.setNode name { m with broadcaster := (m.broadcaster.obey sender c).2 }) := by
    intro launch hlaunch
    have htallies' := htallies.asked hlaunch
    rw [← hduty] at htallies'
    exact explains_setNode hkeyed' htallies'
  rw [handing_eq hm, Broadcaster.receive_of_request m.operator hp hc hs]
  intro x g
  have hiff : ∀ number, (m.broadcaster.obey sender c).1 = some number ↔ c.mode = .sync ∧
      (∃ mode, m.broadcaster.duty account = some (mode, none)) ∧
        number = m.broadcaster.nextBroadcast :=
    fun number => Broadcaster.obey_fst_eq_some_iff hs
  cases hstarted : (m.broadcaster.obey sender c).1 with
  | none =>
    have hg : g = next (.replied (.fulfilled routeResponse)) := by
      simp only [g, x, hstarted]
      rfl
    rw [hg, (hnext _).launchOf_eq_none]
    refine ⟨hexplains none fun a' k => iff_of_false (by simp) ?_, .behaves (.orderly (hnext _))⟩
    rintro ⟨hsync, hidle, -, -⟩
    simp [(hiff _).mpr ⟨hsync, hidle, rfl⟩] at hstarted
  | some number =>
    obtain ⟨hsync, hidle, rfl⟩ := (hiff number).mp hstarted
    have hg : g = .spawn (.broadcast name account m.broadcaster.nextBroadcast) fun _ =>
        next (.replied (.fulfilled routeResponse)) := by
      simp only [g, x, hstarted]
      rfl
    rw [hg, launchOf_broadcast]
    refine ⟨hexplains _ fun a' k => ⟨fun h => ?_, ?_⟩, .launching fun _ => hnext _⟩
    · obtain ⟨rfl, rfl⟩ : account = a' ∧ m.broadcaster.nextBroadcast = k := by simpa using h
      exact ⟨hsync, hidle, rfl, rfl⟩
    · rintro ⟨-, -, rfl, rfl⟩
      rfl

/-- What is no request that is obeyed leaves the senders alone. -/
theorem explains_no_request {n : Network} (hm : n.nodes.get? name = some m)
    (hkeyed : m.broadcaster.SendersOf fun _ => True)
    (htallies : Tallies es m.broadcaster.duty m.broadcaster.nextBroadcast none)
    (hno : ∀ c sender, p.destination = controlDestination →
      RouteControl.ofPrepare n.now p = .ok c → m.broadcaster.senders.get? account ≠ some sender)
    (hnext : ∀ o, Orderly name (next o)) :
    let x := handing name account p n
    let g := (afterReception name account p x.1).bind next
    Explains name es (launchOf name g) x.2 ∧ Orderly name g := by
  obtain ⟨hsenders, hnumber, hquiet⟩ := Broadcaster.receive_of_no_request m.operator hno
  have hkeyed' := hkeyed.receive m.operator n.now account p
  rw [handing_eq hm]
  generalize m.broadcaster.receive m.operator n.now account p = y at *
  intro x g
  have hg : Orderly name g := by
    change Orderly name ((afterReception name account p y.1).bind next)
    cases hreception : y.1 with
    | switched => exact .call trivial hnext
    | answered reply errand =>
      rcases errand with - | number | -
      · exact hnext _
      · exact absurd hreception (hquiet reply number)
      · exact .spawn trivial fun _ => hnext _
  have hduty : y.2.duty = m.broadcaster.duty :=
    funext fun a' => congrArg (fun d : Dict AccountId Sender => (d.get? a').map _) hsenders
  rw [hg.launchOf_eq_none]
  exact ⟨explains_setNode hkeyed' (by simpa only [hduty, hnumber] using htallies), hg⟩

/-- A packet that is handed to a node is a request, which is obeyed, or leaves the senders alone. -/
theorem explains_hand (h : Explains name es none s.state)
    (hmark : Marks name s id (.act (handing name account p) fun r =>
      (afterReception name account p r).bind next) e) (hnext : ∀ o, Orderly name (next o)) :
    let x := handing name account p s.state
    let g := (afterReception name account p x.1).bind next
    Explains name (es ++ e.toList) (launchOf name g) x.2 ∧ Acts name (es ++ e.toList) id g := by
  obtain ⟨m, hm, hkeyed, htallies⟩ := h
  cases hmark with
  | asked hasks =>
    obtain ⟨rfl, hp, hc, m', sender, hm', hs⟩ := asks_hand hasks
    obtain rfl := Option.some.inj (hm.symm.trans hm')
    exact explains_request hm hkeyed htallies hp hc hs hnext
  | nothing hnot =>
    obtain ⟨hexplains, hg⟩ := explains_no_request hm hkeyed htallies
      (fun c sender hp hc hs => hnot account c (.intro hm hs hp hc)) hnext
    rw [Option.toList_none, List.append_nil]
    exact ⟨hexplains, .behaves (.orderly hg)⟩

end Hand

/-! ## One step -/

/-- What becomes of a task that has had a move. -/
structure Advances (name : String) (es : List SenderEvent) (id : ℕ)
    (s : Scheduler Network Procedure Outcome) (f : Task Outcome) (e : Option SenderEvent) :
    Prop where
  explains : Explains name (es ++ e.toList) ((s.move task id f).2.bind (launchOf name))
    (s.move task id f).1.state
  turn : ∀ g ∈ (s.move task id f).2, Acts name (es ++ e.toList) id g
  spawned : ∀ c next, f = .spawn c next → Behaves name (es ++ e.toList) s.nextId (task c)
  awaited : ∀ u limit next, f = .await u limit next →
    ∀ ending, Behaves name (es ++ e.toList) id (next ending)
  slept : ∀ millis next, f = .sleep millis next → Behaves name (es ++ e.toList) id (next ())
  told : ∀ a task, e = some (told a task) → ∃ k, Live a k task es

theorem mark_eq_none (hf : Orderly name f) (hnot : ∀ a c, ¬ Asks name s.state f a c)
    (hmark : Marks name s id f e) : e = none := by
  cases hmark with
  | asked h => exact absurd h (hnot _ _)
  | began | told =>
    cases hf with
    | spawn hc _ => exact absurd rfl hc
  | nothing => rfl

/-- A move that means nothing for the senders. -/
theorem advances_of_none (h : Explains name es none (s.move task id f).1.state)
    (hturn : ∀ g ∈ (s.move task id f).2, Acts name es id g ∧ launchOf name g = none)
    (hspawned : ∀ c next, f = .spawn c next → Behaves name es s.nextId (task c))
    (hawaited : ∀ u limit next, f = .await u limit next →
      ∀ ending, Behaves name es id (next ending))
    (hslept : ∀ millis next, f = .sleep millis next → Behaves name es id (next ())) :
    Advances name es id s f none := by
  have hlaunch : (s.move task id f).2.bind (launchOf name) = none :=
    Option.bind_eq_none_iff.mpr fun g hg => (hturn g hg).2
  constructor
  · rw [hlaunch, Option.toList_none, List.append_nil]
    exact h
  · rw [Option.toList_none, List.append_nil]
    exact fun g hg => (hturn g hg).1
  · rwa [Option.toList_none, List.append_nil]
  · rwa [Option.toList_none, List.append_nil]
  · rwa [Option.toList_none, List.append_nil]
  · simp

theorem advances_of_keeps (h : Explains name es none s.state) (hf : Orderly name f)
    (hmark : Marks name s id f e) (hnot : ∀ a c, ¬ Asks name s.state f a c)
    (hkeeps : s.state.Keeps name (s.move task id f).1.state)
    (hnext : ∀ g ∈ (s.move task id f).2, Orderly name g) : Advances name es id s f e := by
  obtain rfl := mark_eq_none hf hnot hmark
  refine advances_of_none (h.keeps hkeeps)
    (fun g hg => ⟨.behaves (.orderly (hnext g hg)), (hnext g hg).launchOf_eq_none⟩) ?_ ?_ ?_
  · rintro c next rfl
    cases hf with
    | spawn hc _ => exact .orderly (orderly_task (Or.inl hc))
  · rintro u limit next rfl ending
    cases hf with
    | await _ _ hawaits => exact .orderly (hawaits ending)
  · rintro millis next rfl
    cases hf with
    | sleep _ hsleeps => exact .orderly hsleeps

theorem advances_of_orderly (hf : Orderly name f) (h : Explains name es none s.state)
    (hmark : Marks name s id f e) : Advances name es id s f e := by
  have hsame : s.state.Keeps name s.state := .of_eq rfl
  cases hf with
  | done | stall | crash =>
    exact advances_of_keeps h (by constructor) hmark (by rintro _ _ ⟨⟩) hsame
      (by simp [Scheduler.move])
  | act hkeeps hnext =>
    refine advances_of_keeps h (.act hkeeps hnext) hmark (fun a c hasks => ?_) (hkeeps _) ?_
    · exact hasks.not_keeps h rfl (hkeeps _)
    · simpa [Scheduler.move] using hnext s.state
  | hand account p hnext =>
    obtain ⟨hexplains, hacts⟩ := explains_hand h hmark hnext
    refine ⟨hexplains, ?_, by simp, by simp, by simp, ?_⟩
    · simpa [Scheduler.move] using hacts
    · rintro a task rfl
      cases hmark
  | call hc hnext =>
    refine advances_of_keeps h (.call hc hnext) hmark (by rintro _ _ ⟨⟩) hsame ?_
    simpa [Scheduler.move] using (orderly_task (Or.inl hc)).bind hnext
  | spawn hc hnext =>
    refine advances_of_keeps h (.spawn hc hnext) hmark (by rintro _ _ ⟨⟩) hsame ?_
    simpa [Scheduler.move, Scheduler.add] using hnext s.nextId
  | await t limit hnext =>
    exact advances_of_keeps h (.await t limit hnext) hmark (by rintro _ _ ⟨⟩) hsame
      (by simp [Scheduler.move])
  | sleep millis hnext =>
    exact advances_of_keeps h (.sleep millis hnext) hmark (by rintro _ _ ⟨⟩) hsame
      (by simp [Scheduler.move])

/-- A broadcast whose number its sender has is live. -/
theorem live_of_runningAt {n : Network} {x : ℕ × ℕ} (h : Explains name es none n)
    (hbegan : began a k id ∈ es) (hrunning : runningAt name a k n = some x) :
    Live a k id es := by
  obtain ⟨m, hm, -, htallies⟩ := h
  obtain ⟨m', hm', hrun⟩ := Option.bind_eq_some_iff.mp hrunning
  obtain rfl := Option.some.inj (hm.symm.trans hm')
  obtain ⟨sender, hsender, -⟩ := Option.bind_eq_some_iff.mp hrun
  obtain ⟨mode, hduty⟩ :=
    Broadcaster.isRunning_iff.mp (Option.isSome_iff_exists.mpr ⟨sender, hsender⟩)
  obtain ⟨-, -, hor⟩ := htallies.running a mode k hduty
  obtain ⟨id', hlive⟩ := hor.resolve_left (by simp)
  rwa [htallies.unique a k id id' hbegan hlive.began_mem]

/-- The sender of a live broadcast has its number. -/
theorem exists_runningAt {launch : Option (AccountId × ℕ)} {n : Network}
    (h : Explains name es launch n) (hlive : Live a k id es) :
    ∃ x, runningAt name a k n = some x := by
  obtain ⟨m, hm, -, htallies⟩ := h
  have hrunning : m.broadcaster.isRunning a k = true :=
    Broadcaster.isRunning_iff.mpr (htallies.live a k id hlive)
  obtain ⟨sender, hsender⟩ := Option.isSome_iff_exists.mp hrunning
  exact ⟨_, Option.bind_eq_some_iff.mpr
    ⟨m, hm, Option.bind_eq_some_iff.mpr ⟨sender, hsender, rfl⟩⟩⟩

theorem advances_of_round (hbegan : began a k id ∈ es) (hf : Round name a k f)
    (h : Explains name es none s.state) (hmark : Marks name s id f e) :
    Advances name es id s f e := by
  have hasks : ∀ a c, ¬ Asks name s.state f a c := by
    rintro a' c hasks
    cases hf with
    | check => exact hasks.not_keeps h broadcastTo_eq (.of_eq rfl)
    | _ => cases hasks
  obtain rfl : e = none := by
    cases hmark with
    | asked h => exact absurd h (hasks _ _)
    | began | told => exact absurd rfl (hf.ne_spawn _ _)
    | nothing => rfl
  have hround : ∀ {g}, Round name a k g → Behaves name es id g := .round hbegan
  cases hf with
  | check =>
    rw [broadcastTo_eq]
    refine advances_of_none ?_ ?_ (by simp) (by simp) (by simp)
    · exact h
    rintro g ⟨⟩
    cases hrunning : runningAt name a k s.state with
    | none => exact ⟨.behaves (.orderly (.done _)), rfl⟩
    | some x =>
      exact ⟨.telling x.1 x.2 (live_of_runningAt h hbegan hrunning), rfl⟩
  | await millis told =>
    refine advances_of_none ?_ (by simp [awaiting, Scheduler.move]) (by simp [awaiting]) ?_
      (by simp [awaiting])
    · exact h
    rintro u limit next ⟨⟩ ending
    exact hround (.rest millis)
  | rest millis =>
    refine advances_of_none ?_ (by simp [resting, Scheduler.move]) (by simp [resting])
      (by simp [resting]) ?_
    · exact h
    rintro m next ⟨⟩
    exact hround .again
  | again =>
    refine advances_of_none ?_ ?_ (by simp [again]) (by simp [again]) (by simp [again])
    · exact h
    rintro g ⟨⟩
    rw [Flow.bind_done]
    exact ⟨.behaves (hround .check), Round.check.launchOf_eq_none⟩

theorem advances_of_telling {serial millis : ℕ} (hlive : Live a k id es)
    (h : Explains name es none s.state)
    (hmark : Marks name s id (telling name a serial k millis) e) :
    Advances name es id s (telling name a serial k millis) e := by
  obtain rfl : e = some (told a id) := by
    cases hmark with
    | asked hasks => cases hasks
    | told => rfl
    | nothing _ _ htold => exact absurd rfl (htold _ _ _)
  obtain ⟨m, hm, hkeyed, htallies⟩ := h
  have hbegan : began a k id ∈ es ++ [told a id] := List.mem_append_left _ hlive.began_mem
  refine ⟨⟨m, hm, hkeyed, htallies.told a id⟩, ?_, ?_, by simp [telling], by simp [telling], ?_⟩
  · rintro g ⟨⟩
    exact .behaves (.round hbegan (.await _ _))
  · rintro c next ⟨⟩
    exact .orderly (orderly_task (Or.inr ⟨a, serial, rfl⟩))
  · rintro a' task ⟨⟩
    exact ⟨k, hlive⟩

theorem advances_of_launching {next : ℕ → Task Outcome} (hnext : ∀ t, Orderly name (next t))
    (h : Explains name es (some (a, k)) s.state)
    (hmark : Marks name s id (.spawn (.broadcast name a k) next) e) :
    Advances name es id s (.spawn (.broadcast name a k) next) e := by
  obtain rfl : e = some (began a k s.nextId) := by
    cases hmark with
    | asked hasks => cases hasks
    | began => rfl
    | nothing _ hbegan => exact absurd rfl (hbegan _ _ _)
  obtain ⟨m, hm, hkeyed, htallies⟩ := h
  refine ⟨⟨m, hm, hkeyed, ?_⟩, ?_, ?_, by simp, by simp, by simp⟩
  · have hlaunch := (hnext s.nextId).launchOf_eq_none
    simpa [Scheduler.move, Scheduler.add, hlaunch] using htallies.began s.nextId
  · rintro g ⟨⟩
    exact .behaves (.orderly (hnext _))
  · rintro c next ⟨⟩
    exact .round (List.mem_append_right _ (List.mem_singleton_self _)) .check

theorem Acts.advances (hf : Acts name es id f) (h : Explains name es (launchOf name f) s.state)
    (hmark : Marks name s id f e) : Advances name es id s f e := by
  cases hf with
  | behaves hf =>
    cases hf with
    | orderly hf => exact advances_of_orderly hf (hf.launchOf_eq_none ▸ h) hmark
    | round hbegan hf => exact advances_of_round hbegan hf (hf.launchOf_eq_none ▸ h) hmark
  | telling serial millis hlive => exact advances_of_telling hlive h hmark
  | launching hnext =>
    rw [launchOf_broadcast] at h
    exact advances_of_launching hnext h hmark

/-- Whatever becomes of the updates that it has sent, a broadcast goes on while its sender has its
number. -/
theorem Broadcasts.move {id' : ℕ} (h : Broadcasts name a k id (s, some (id', f)))
    (hrun : ∃ x, runningAt name a k s.state = some x) :
    Broadcasts name a k id
      ((s.move task id' f).1, (s.move task id' f).2.map fun g => (id', g)) := by
  rcases h with ⟨t, ht, hid, hround⟩ | ⟨g, hturn, hg⟩
  · obtain ⟨u, hu, hid', hnext⟩ := Scheduler.exists_pending_move task f ht
    refine Or.inl ⟨u, hu, hid'.trans hid, fun e => ?_⟩
    obtain ⟨e', he'⟩ := hnext e
    exact he' ▸ hround e'
  · obtain ⟨rfl, rfl⟩ : id' = id ∧ f = g := by simpa using hturn
    rcases hg with hg | ⟨serial, millis, rfl⟩
    · cases hg with
      | check =>
        -- the only way out of the round is not to find the number
        obtain ⟨⟨serial, millis⟩, hrunning⟩ := hrun
        refine Or.inr ⟨telling name a serial k millis, ?_, Or.inr ⟨serial, millis, rfl⟩⟩
        rw [broadcastTo_eq]
        simp [Scheduler.move, hrunning]
      | await millis told =>
        exact Or.inl ⟨_, (Scheduler.pending_lull _).mpr (Or.inr rfl), rfl, fun _ => .rest millis⟩
      | rest millis =>
        exact Or.inl ⟨_, (Scheduler.pending_lull _).mpr (Or.inr rfl), rfl, fun _ => .again⟩
      | again =>
        refine Or.inr ⟨_, rfl, Or.inl ?_⟩
        rw [Flow.bind_done]
        exact .check
    · exact Or.inr ⟨_, rfl, Or.inl (.await _ _)⟩

end SenderEvent

end IlpConnector
