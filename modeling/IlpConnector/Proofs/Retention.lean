import IlpConnector.Proofs.Quiescence

/-!
# What nodes keep

No task takes a node away, or changes its address or the accounts that it was set up with
(`Procedure.retaining_task`).  So whatever goes on in a network while a node comes up, its accounts
are put into operation under the one address that it has.
-/

namespace IlpConnector

namespace Network

variable {n n' n'' : Network}

/-- The nodes stay, with their addresses and the accounts that they were set up with. -/
def Retains (n n' : Network) : Prop :=
  ∀ name m, n.nodes.get? name = some m → ∃ m', n'.nodes.get? name = some m' ∧
    m'.operator = m.operator ∧ m'.configured = m.configured

theorem Retains.of_eq (h : n'.nodes = n.nodes) : n.Retains n' :=
  fun _ m hm => ⟨m, h ▸ hm, rfl, rfl⟩

theorem Retains.trans (h : n.Retains n') (h' : n'.Retains n'') : n.Retains n'' := by
  intro name m hm
  obtain ⟨m', hm', hoperator, hconfigured⟩ := h name m hm
  obtain ⟨m'', hm'', hoperator', hconfigured'⟩ := h' name m' hm'
  exact ⟨m'', hm'', hoperator'.trans hoperator, hconfigured'.trans hconfigured⟩

theorem Retains.operatorOf {name : String} {home : Address} (h : n.Retains n')
    (hop : n.operatorOf name = some home) : n'.operatorOf name = some home := by
  obtain ⟨m, hm, hop⟩ := Option.bind_eq_some_iff.mp hop
  obtain ⟨m', hm', hoperator, -⟩ := h name m hm
  exact Option.bind_eq_some_iff.mpr ⟨m', hm', hoperator.trans hop⟩

theorem retains_setNode {node : String} {m m' : Node} (hm : n.nodes.get? node = some m)
    (hoperator : m'.operator = m.operator) (hconfigured : m'.configured = m.configured) :
    n.Retains (n.setNode node m') := by
  intro name m₀ hm₀
  rw [get?_nodes_setNode]
  split_ifs with hname
  · obtain rfl := Option.some.inj (hm.symm.trans (hname ▸ hm₀))
    exact ⟨m', rfl, hoperator, hconfigured⟩
  · exact ⟨m₀, hm₀, rfl, rfl⟩

end Network

namespace Node

variable (m : Node) (account : AccountSettings) (link : LinkRef) (id : TableId)

/-- A node that begins to start is marked so, and keeps all else. -/
theorem eq_of_begin {m m' : Node} (h : m.begin = .ok m') : m' = { m with started := true } := by
  unfold begin at h
  split_ifs at h
  exact (Except.ok.inj h).symm

theorem enlist_fst_setup : (m.enlist account link id).1.operator = m.operator ∧
    (m.enlist account link id).1.configured = m.configured := by
  unfold enlist addChildRoute
  dsimp only
  split_ifs
  · cases m.operator with
    | none => exact ⟨rfl, rfl⟩
    | some home =>
      dsimp only
      cases childAddress home account.id <;> exact ⟨rfl, rfl⟩
  · exact ⟨rfl, rfl⟩

end Node

namespace Procedure

open IlpConnector.Flow

variable {node : String} {account : AccountId} {p : Prepare} {r : LinkRef}

/-- The task leaves nodes with what they were set up with. -/
abbrev Retaining {α : Type} (f : Flow Network Procedure Outcome α) : Prop :=
  f.Only Network.Retains fun _ => True

theorem retaining_turn (call : LinkCall) : Retaining (task (.turn call r)) := by
  refine .bind (only_take fun n => ?_) fun progress =>
    only_goOn (fun _ _ _ => .of_eq) (fun _ _ _ _ _ _ => .of_eq rfl) 2 progress
  split <;> exact .of_eq rfl

theorem retaining_arrive : Retaining (task (.arrive r p)) := by
  rw [show task (.arrive r p) = _ from arriveAt_eq]
  refine fun n => ⟨.of_eq rfl, ?_⟩
  change Retaining (afterArrival p (n.link? r, n.ownerOf r))
  rw [afterArrival]
  split
  · trivial
  · trivial
  · trivial
  · refine fun n => ⟨?_, ?_⟩
    · unfold handing
      split
      · rename_i m hm
        exact Network.retains_setNode hm rfl rfl
      · exact .of_eq rfl
    · unfold afterReception
      split
      · exact ⟨trivial, fun _ => trivial⟩
      · trivial
      · exact ⟨trivial, fun _ => trivial⟩

theorem retaining_switch : Retaining (task (.switch node account p)) := by
  refine .bind (only_take fun n => ?_) fun (operator, entered) => ?_
  · split
    · rename_i m hm
      obtain ⟨limiters, henter⟩ := m.exists_enter_snd n.now n.reading account p
      have hretains : n.Retains (n.setNode node (m.enter n.now n.reading account p).2) :=
        Network.retains_setNode hm (by rw [henter]) (by rw [henter])
      dsimp only
      split <;> exact hretains
    · exact .of_eq rfl
  · rcases entered with - | ⟨source, e⟩
    · trivial
    · dsimp only
      split
      · trivial
      · exact only_run trivial

theorem retaining_announce (serial : ℕ) : Retaining (task (.announce node account serial)) := by
  refine .bind (only_take fun n => ?_) fun packet => ?_
  · split
    · exact .of_eq rfl
    · rename_i m hm
      split
      · exact .of_eq rfl
      · exact Network.retains_setNode hm rfl rfl
  · split
    · trivial
    · exact .bind (only_run trivial) fun o => by cases o <;> trivial

theorem retaining_broadcast (number : ℕ) : Retaining (task (.broadcast node account number)) := by
  refine .bind (only_read (fun _ => .of_eq rfl) _) fun interval => ?_
  split
  · trivial
  · exact ⟨trivial, fun _ _ => ⟨trivial, fun _ => trivial⟩⟩

/-! ## Nodes that come up -/

/-- A node adds the link of an account, if it can be made. -/
def linking (node : String) (a : AccountSettings) (n : Network) :
    Except LinkError LinkRef × Network :=
  match n.makeLink a with
  | .error e => (.error e, n)
  | .ok l => (.ok (n.addLink node l).1, (n.addLink node l).2)

/-- A node puts an account into operation over its link. -/
def enlisting (node : String) (a : AccountSettings) (r : LinkRef) (n : Network) :
    Option NodeError × Network :=
  match n.nodes.get? node with
  | none => (none, n)
  | some m => ((m.enlist a r n.newId.1).2, n.newId.2.setNode node (m.enlist a r n.newId.1).1)

/-- How a node comes up after an account has been put into operation, or that has failed. -/
def afterEnlisting (node : String) (rest : List AccountSettings) :
    Option NodeError → Task (Option NodeError)
  | some e => .done (some e)
  | none => enlistAll node rest

/-- How a node comes up after the link of an account has been made, or that has failed. -/
def afterLinking (node : String) (a : AccountSettings) (rest : List AccountSettings) :
    Except LinkError LinkRef → Task (Option NodeError)
  | .error e => .done (some (.link a.id e))
  | .ok r => .call (.turn .connect r) fun _ => .act (enlisting node a r) (afterEnlisting node rest)

theorem enlistAll_cons (a : AccountSettings) (rest : List AccountSettings) :
    enlistAll node (a :: rest) = .act (linking node a) (afterLinking node a rest) := by
  refine congrArg (Flow.act _) (funext fun made => ?_)
  cases made with
  | error e => rfl
  | ok r =>
    refine congrArg (Flow.call _) (funext fun _ => ?_)
    refine congrArg (Flow.act _) (funext fun failure => ?_)
    cases failure <;> rfl

theorem retains_linking (a : AccountSettings) (n : Network) :
    n.Retains (linking node a n).2 := by
  unfold linking
  split <;> exact .of_eq rfl

theorem retains_enlisting (a : AccountSettings) (n : Network) :
    n.Retains (enlisting node a r n).2 := by
  unfold enlisting
  split
  · exact .of_eq rfl
  · rename_i m hm
    obtain ⟨hoperator, hconfigured⟩ := m.enlist_fst_setup a r n.newId.1
    have hid : n.Retains n.newId.2 := .of_eq rfl
    exact hid.trans (Network.retains_setNode hm hoperator hconfigured)

theorem retaining_enlistAll (as : List AccountSettings) : Retaining (enlistAll node as) := by
  induction as with
  | nil => trivial
  | cons a rest ih =>
    rw [enlistAll_cons]
    refine fun n => ⟨retains_linking a n, ?_⟩
    cases (linking node a n).1 with
    | error e => trivial
    | ok r =>
      refine ⟨trivial, fun _ n => ⟨retains_enlisting a n, ?_⟩⟩
      cases (enlisting node a r n).1 with
      | some e => trivial
      | none => exact ih

/-- A node begins to come up, and tells its accounts. -/
def beginning (node : String) (n : Network) : Except NodeError (List AccountSettings) × Network :=
  match (n.nodes.get? node).map Node.begin with
  | none => (.ok [], n)
  | some (.error e) => (.error e, n)
  | some (.ok m) => (.ok m.configured, n.setNode node m)

/-- A node has all neighbours asked for routes that it learns from. -/
def inquiring (node : String) (receivers : List Receiver) : Task Unit :=
  receivers.forM fun r => do
    let _ ← start (.request node r.peer r.serial)

/-- How a node ends to come up, once its accounts are in operation or one has failed. -/
def afterEnlistAll (node : String) : Option NodeError → Task Outcome
  | some e => .done (.nodeFailed e)
  | none => .act (fun n =>
      (((n.nodes.get? node).map (·.broadcaster.receivers.values)).getD [], n)) fun receivers =>
    (inquiring node receivers).bind fun _ => .done .finished

def afterBeginning (node : String) : Except NodeError (List AccountSettings) → Task Outcome
  | .error e => .done (.nodeFailed e)
  | .ok accounts => (enlistAll node accounts).bind (afterEnlistAll node)

theorem bringUp_eq :
    task (.bringUp node) = .act (beginning node) (afterBeginning node) := by
  refine congrArg (Flow.act _) (funext fun begun => ?_)
  cases begun with
  | error e => rfl
  | ok accounts =>
    refine congrArg (Flow.bind (enlistAll node accounts)) (funext fun failure => ?_)
    cases failure <;> rfl

theorem retains_beginning (n : Network) : n.Retains (beginning node n).2 := by
  unfold beginning
  split
  · exact .of_eq rfl
  · exact .of_eq rfl
  · rename_i m' hbegin
    obtain ⟨m, hm, hm'⟩ := Option.map_eq_some_iff.mp hbegin
    rw [Node.eq_of_begin hm']
    exact Network.retains_setNode hm rfl rfl

theorem retaining_inquiring (receivers : List Receiver) :
    Retaining (inquiring node receivers) := by
  induction receivers with
  | nil => trivial
  | cons r receivers ih => exact .bind (.bind (only_start trivial) fun _ => trivial) fun _ => ih

theorem retaining_bringUp : Retaining (task (.bringUp node)) := by
  rw [bringUp_eq]
  refine fun n => ⟨retains_beginning n, ?_⟩
  cases (beginning node n).1 with
  | error e => trivial
  | ok accounts =>
    refine .bind (retaining_enlistAll accounts) fun failure => ?_
    cases failure with
    | some e => trivial
    | none => exact fun n => ⟨.of_eq rfl, .bind (retaining_inquiring _) fun _ => trivial⟩

theorem retaining_takeDown : Retaining (task (.takeDown node)) := by
  refine .bind (only_take fun n => ?_) fun accounts => .bind ?_ fun _ => trivial
  · split
    · exact .of_eq rfl
    · rename_i m hm
      exact Network.retains_setNode hm rfl rfl
  · induction accounts with
    | nil => trivial
    | cons a accounts ih =>
      refine .bind (only_read (fun _ => .of_eq rfl) _) fun r => ?_
      split
      · exact .bind (only_run trivial) fun _ => ih
      · exact ih

/-- All tasks leave nodes with what they were set up with. -/
theorem retaining_task (c : Procedure) : Retaining (task c) := by
  cases c with
  | turn call r => exact retaining_turn call
  | send r p => exact only_send (fun _ _ _ => .of_eq) (fun _ _ => trivial) r
  | arrive => exact retaining_arrive
  | switch => exact retaining_switch
  | guarded node source p guards =>
    exact only_guarded (fun _ _ _ => .of_eq) (fun _ _ => trivial) (fun _ _ _ _ => trivial) source
      guards
  | bringUp => exact retaining_bringUp
  | takeDown => exact retaining_takeDown
  | announce node account serial => exact retaining_announce serial
  | request node account serial =>
    exact only_request (fun _ _ _ => .of_eq) (fun _ _ => trivial) serial
  | broadcast node account number => exact retaining_broadcast number
  | pause => trivial

/-- What all tasks promise each other, whatever goes on. -/
def retention (start : Network) : Contract Network Procedure Outcome where
  start
  Leads := Network.Retains
  refl _ := .of_eq rfl
  trans := Network.Retains.trans
  Allows _ := True
  Ensures _ _ _ := True

theorem Retaining.meets_true {α : Type} {f : Flow Network Procedure Outcome α} (h : Retaining f)
    (start n : Network) : f.Meets (retention start) n fun _ _ => True :=
  Flow.Only.meets h (fun _ _ => id) (fun _ => id) (fun _ _ _ => id) trivial

theorem honored_retention (start : Network) : (retention start).Honored task :=
  fun c _ n _ => (retaining_task c).meets_true start n

end Procedure

namespace Scheduler

open Procedure (task retention retaining_task honored_retention beginning afterBeginning bringUp_eq)

variable {s : Scheduler Network Procedure Outcome} {name : String}

/-- Tasks as they may be at some time, whatever has begun and has changed the network from
outside. -/
def Ongoing (s : Scheduler Network Procedure Outcome) : Prop :=
  ∃ n : Network, Relation.ReflTransGen (Step task (fun _ => True) fun _ _ => True)
    ({ state := n }, none) (s, none)

/-- All tasks that wait retain what nodes were set up with. -/
theorem Ongoing.settling (h : s.Ongoing) :
    Settling Network.Retains (fun _ => True) (fun _ => True) (s, none) := by
  obtain ⟨n, hsteps⟩ := h
  have hfresh : Settling Network.Retains (fun _ => True) (fun _ : Procedure => True)
      (({ state := n } : Scheduler Network Procedure Outcome), none) := ⟨nofun, nofun, nofun⟩
  exact hfresh.steps (fun _ => id) (fun c _ => (retaining_task c).settles fun _ => id) hsteps

/-- A node comes up as it does while all other tasks retain what nodes were set up with. -/
theorem Ongoing.bringUp (h : s.Ongoing) (hready : s.ready = []) {P : Outcome → Prop}
    (hP : (afterBeginning name (beginning name s.state).1).Meets
      (retention (beginning name s.state).2) (beginning name s.state).2 fun o _ => P o)
    {o : Outcome} (ho : (perform task (.bringUp name) s).1 = some (.finished o)) : P o := by
  have hsettling := h.settling
  have hbegun : Upholds (retention (beginning name s.state).2) (fun id o _ => id = s.nextId → P o)
      (within s.nextId (beginning name s.state).2 s.clock (s.nextId + 1) [] s.asleep,
        some (s.nextId, afterBeginning name (beginning name s.state).1)) := by
    refine ⟨.of_eq rfl, fun t ht e => ?_, fun t ht => ?_, nofun, fun id hid o x h => ?_⟩
    · obtain ⟨w, hw, rfl⟩ := (mem_pending.mp ht).resolve_left List.not_mem_nil
      obtain ⟨hid, honly⟩ := hsettling.asleep w hw
      have hwaits : Procedure.Retaining (w.turn.next e) := honly e
      exact (hwaits.meets_true _ _).imp fun _ _ _ _ hmain => absurd hmain (Nat.ne_of_lt hid)
    · obtain rfl := Option.some.inj ht
      exact hP.imp fun _ _ _ hend _ => hend
    · exact absurd h (Nat.ne_of_gt hid)
  exact (hbegun.perform (honored_retention _) (fun _ _ _ _ _ => id) hready bringUp_eq).2 o ho rfl

end Scheduler

end IlpConnector
