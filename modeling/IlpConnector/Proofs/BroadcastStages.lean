import IlpConnector.Proofs.SenderHistory
import IlpConnector.Proofs.Shutdown

/-!
# What the tasks around a node's broadcasts do

A task that broadcasts goes round from checking that its broadcast still runs, over having the
account told and waiting for that, to a rest (`Procedure.Round`).  All other tasks leave the senders
of a node alone (`Procedure.Aside`), unless a packet is handed to the node
(`Procedure.orderly_task`).
-/

namespace IlpConnector

open Procedure (task handing afterReception)

/-! ## Tasks that leave the senders alone -/

namespace Network

variable {name : String} {n n' : Network}

/-- The senders of a node stay, with their modes and their broadcasts. -/
def Keeps (name : String) (n n' : Network) : Prop :=
  ∀ m, n.nodes.get? name = some m → m.broadcaster.SendersOf (fun _ => True) →
    ∃ m', n'.nodes.get? name = some m' ∧ m'.broadcaster.SendersOf (fun _ => True) ∧
      m'.broadcaster.duty = m.broadcaster.duty ∧
      m'.broadcaster.nextBroadcast = m.broadcaster.nextBroadcast

theorem Keeps.of_eq (h : n'.nodes = n.nodes) : n.Keeps name n' :=
  fun m hm hs => ⟨m, h ▸ hm, hs, rfl, rfl⟩

theorem Idles.keeps (h : n.Idles n') : n.Keeps name n' := by
  intro m hm hs
  obtain ⟨m', hm', -, hb⟩ := h.node name m hm
  exact ⟨m', hm', hb ▸ hs, by rw [hb], by rw [hb]⟩

theorem keeps_setNode {node : String} {m m' : Node} (hm : n.nodes.get? node = some m)
    (h : node = name → m.broadcaster.SendersOf (fun _ => True) →
      m'.broadcaster.SendersOf (fun _ => True) ∧ m'.broadcaster.duty = m.broadcaster.duty ∧
        m'.broadcaster.nextBroadcast = m.broadcaster.nextBroadcast) :
    n.Keeps name (n.setNode node m') := by
  intro m₀ hm₀ hs
  rw [get?_nodes_setNode]
  split_ifs with hname
  · subst hname
    obtain rfl := Option.some.inj (hm.symm.trans hm₀)
    exact ⟨m', rfl, h rfl hs⟩
  · exact ⟨m₀, hm₀, hs, rfl, rfl⟩

end Network

namespace Procedure

open IlpConnector.Flow

variable {name node : String} {account a : AccountId} {p : Prepare} {r : LinkRef} {number k : ℕ}

/-- The procedures that tasks go through or start, but for those that put a node into operation or
out of it, and for the broadcasts of the node that goes by this name and what they tell. -/
def Ordinary (name : String) : Procedure → Prop
  | broadcast node .. | announce node .. => node ≠ name
  | bringUp _ | takeDown _ => False
  | _ => True

/-- The task leaves the senders of a node alone and has nothing to do with its broadcasts. -/
abbrev Aside (name : String) (f : Task Outcome) : Prop :=
  f.Only (Network.Keeps name) (Ordinary name)

theorem Quiet.aside {f : Task Outcome} (h : Quiet f) : Aside name f :=
  h.mono (fun _ _ => Network.Idles.keeps) fun c hc => by
    cases c <;> trivial

theorem aside_send : Aside name (task (.send r p)) :=
  only_send (fun _ _ _ => .of_eq) (fun _ _ => trivial) r

theorem aside_turn (call : LinkCall) : Aside name (task (.turn call r)) := by
  refine .bind (only_take fun n => ?_) fun progress => (quiet_goOn r 2 progress).aside
  split <;> exact .of_eq rfl

theorem aside_announce (serial : ℕ) : Aside name (task (.announce node account serial)) := by
  refine .bind (only_take fun n => ?_) fun packet => ?_
  · split
    · exact .of_eq rfl
    · rename_i m hm
      split
      · exact .of_eq rfl
      · rename_i s hs
        exact Network.keeps_setNode hm fun _ hkeyed =>
          ⟨hkeyed.withAnySender hs rfl, Broadcaster.duty_withAnySender hkeyed hs rfl rfl rfl,
            Broadcaster.nextBroadcast_withAnySender _ _⟩
  · split
    · trivial
    · exact .bind (only_run trivial) fun o => by cases o <;> trivial

/-! ## The stages of a broadcast -/

/-- The sender for which the broadcast under a number goes on, and after how long its neighbour is
told again. -/
def runningAt (name : String) (account : AccountId) (number : ℕ) (n : Network) :
    Option (ℕ × ℕ) := do
  let m ← n.nodes.get? name
  let s ← m.broadcaster.running? account number
  return (s.serial, m.broadcaster.settings.broadcastInterval.toNat)

/-- The task goes into the next round. -/
def again (name : String) (account : AccountId) (number : ℕ) : Task Outcome :=
  .call (.broadcast name account number) .done

def resting (name : String) (account : AccountId) (number millis : ℕ) : Task Outcome :=
  .sleep millis fun _ => again name account number

/-- The task waits until the account's neighbour has been told, or that has failed. -/
def awaiting (name : String) (account : AccountId) (number millis told : ℕ) : Task Outcome :=
  .await told none fun _ => resting name account number millis

/-- The task has the account's neighbour told. -/
def telling (name : String) (account : AccountId) (serial number millis : ℕ) : Task Outcome :=
  .spawn (.announce name account serial) (awaiting name account number millis)

theorem broadcastTo_eq : task (.broadcast name account number)
    = .act (fun n => (runningAt name account number n, n)) fun running =>
        match running with
        | none => .done .finished
        | some (serial, millis) => telling name account serial number millis := by
  refine congrArg (Flow.act _) (funext fun running => ?_)
  cases running <;> rfl

/-- A task that broadcasts, at any time but when it is about to have its account told. -/
inductive Round (name : String) (account : AccountId) (number : ℕ) : Task Outcome → Prop
  | check : Round name account number (task (.broadcast name account number))
  | await (millis told : ℕ) : Round name account number (awaiting name account number millis told)
  | rest (millis : ℕ) : Round name account number (resting name account number millis)
  | again : Round name account number (again name account number)

theorem aside_broadcast (h : node ≠ name) : Aside name (task (.broadcast node account number)) := by
  rw [broadcastTo_eq]
  refine fun n => ⟨.of_eq rfl, ?_⟩
  dsimp only
  split
  · trivial
  · exact ⟨h, fun t e => ⟨h, fun o => trivial⟩⟩

/-- The procedures that may begin while a node is in operation. -/
def MayBegin (name : String) (c : Procedure) : Prop :=
  c.Ordinary name ∨ ∃ account serial, c = .announce name account serial

/-- The task of a procedure that brings no packet in. -/
theorem aside_task (c : Procedure) (hc : c.MayBegin name)
    (harrive : ∀ r p, c ≠ .arrive r p) : Aside name (task c) := by
  cases c with
  | turn call r => exact aside_turn call
  | send => exact aside_send
  | arrive r p => exact absurd rfl (harrive r p)
  | switch => exact quiet_switch.aside
  | guarded node source p guards => exact (quiet_guarded source guards).aside
  | bringUp | takeDown => simp [MayBegin, Ordinary] at hc
  | announce node account serial => exact aside_announce serial
  | request node account serial => exact (quiet_request serial).aside
  | broadcast => exact aside_broadcast (hc.resolve_right (by simp))
  | pause => trivial

/-! ## Tasks that hand packets to a node -/

/-- The task leaves the senders of a node alone, but for packets that it hands to the node, of which
it goes on with the errand and the answer. -/
inductive Orderly (name : String) : Task Outcome → Prop
  | done (o : Outcome) : Orderly name (.done o)
  | stall : Orderly name .stall
  | crash (m : String) : Orderly name (.crash m)
  | act {ρ : Type} {f : Network → ρ × Network} {next : ρ → Task Outcome}
      (h : ∀ n : Network, n.Keeps name (f n).2) (hnext : ∀ n, Orderly name (next (f n).1)) :
      Orderly name (.act f next)
  | hand (account : AccountId) (p : Prepare) {next : Outcome → Task Outcome}
      (hnext : ∀ o, Orderly name (next o)) :
      Orderly name (.act (handing name account p) fun r =>
        (afterReception name account p r).bind next)
  | call {c : Procedure} {next : Outcome → Task Outcome} (hc : c.Ordinary name)
      (hnext : ∀ o, Orderly name (next o)) : Orderly name (.call c next)
  | spawn {c : Procedure} {next : ℕ → Task Outcome} (hc : c.Ordinary name)
      (hnext : ∀ t, Orderly name (next t)) : Orderly name (.spawn c next)
  | await (task : ℕ) (limit : Option ℕ) {next : Option (Ending Outcome) → Task Outcome}
      (hnext : ∀ e, Orderly name (next e)) : Orderly name (.await task limit next)
  | sleep (millis : ℕ) {next : Unit → Task Outcome} (hnext : Orderly name (next ())) :
      Orderly name (.sleep millis next)

theorem Aside.orderly {f : Task Outcome} (h : Aside name f) : Orderly name f := by
  induction f with
  | done o => exact .done o
  | act f next ih => exact .act (fun n => (h n).1) fun n => ih _ (h n).2
  | call c next ih => exact .call h.1 fun o => ih o (h.2 o)
  | spawn c next ih => exact .spawn h.1 fun t => ih t (h.2 t)
  | await t limit next ih => exact .await t limit fun e => ih e (h e)
  | sleep millis next ih => exact .sleep millis (ih () h)
  | stall => exact .stall
  | crash m => exact .crash m

theorem Orderly.bind {f : Task Outcome} {k : Outcome → Task Outcome} (h : Orderly name f)
    (hk : ∀ o, Orderly name (k o)) : Orderly name (f.bind k) := by
  induction h with
  | done o => exact hk o
  | stall => exact .stall
  | crash m => exact .crash m
  | act h hnext ih => exact .act h ih
  | hand account p hnext ih =>
    simp only [Flow.bind, Flow.bind_assoc]
    exact .hand account p ih
  | call hc hnext ih => exact .call hc ih
  | spawn hc hnext ih => exact .spawn hc ih
  | await task limit hnext ih => exact .await task limit ih
  | sleep millis hnext ih => exact .sleep millis ih

theorem keeps_handing (h : node ≠ name) (n : Network) :
    n.Keeps name (handing node account p n).2 := by
  unfold handing
  split
  · rename_i m hm
    exact Network.keeps_setNode hm fun hname => absurd hname h
  · exact .of_eq rfl

theorem orderly_afterReception (h : node ≠ name) (reception : Reception) :
    Orderly name (afterReception node account p reception) := by
  unfold afterReception
  split
  · exact .call trivial fun o => .done o
  · exact .done _
  · rename_i e
    refine .spawn ?_ fun _ => .done _
    cases e with
    | broadcast number => exact h
    | request => trivial

theorem orderly_arrive : Orderly name (task (.arrive r p)) := by
  rw [show task (.arrive r p) = _ from arriveAt_eq]
  refine .act (fun n => .of_eq rfl) fun n => ?_
  change Orderly name (afterArrival p (n.link? r, n.ownerOf r))
  rw [afterArrival]
  split
  · exact .done _
  · exact .done _
  · exact .done _
  · rename_i id account _
    by_cases hname : n.ownerOf r = name
    · rw [hname]
      have hhand : Orderly name (.act (handing name account p) fun r =>
          (afterReception name account p r).bind .done) := .hand account p fun o => .done o
      simpa only [Flow.bind_done] using hhand
    · exact .act (keeps_handing hname) fun n => orderly_afterReception hname _

theorem orderly_task {c : Procedure} (hc : c.MayBegin name) : Orderly name (task c) := by
  by_cases harrive : ∃ r p, c = .arrive r p
  · obtain ⟨r, p, rfl⟩ := harrive
    exact orderly_arrive
  · exact (aside_task c hc fun r p h => harrive ⟨r, p, h⟩).orderly

/-- The broadcast that a task begins with its next move. -/
def launchOf (name : String) : Task Outcome → Option (AccountId × ℕ)
  | .spawn (.broadcast node account number) _ =>
    if node = name then some (account, number) else none
  | _ => none

@[simp] theorem launchOf_broadcast (next : ℕ → Task Outcome) :
    launchOf name (.spawn (.broadcast name account number) next) = some (account, number) :=
  if_pos rfl

theorem Orderly.launchOf_eq_none {f : Task Outcome} (h : Orderly name f) :
    launchOf name f = none := by
  cases h with
  | @spawn c next hc hnext =>
    cases c with
    | broadcast => exact if_neg hc
    | _ => rfl
  | _ => rfl

theorem Round.ne_spawn {f : Task Outcome} (h : Round name account number f) (c : Procedure)
    (next : ℕ → Task Outcome) : f ≠ .spawn c next := by
  cases h with
  | check => simp [broadcastTo_eq]
  | await => simp [awaiting]
  | rest => simp [resting]
  | again => simp [Procedure.again]

theorem Round.launchOf_eq_none {f : Task Outcome} (h : Round name account number f) :
    launchOf name f = none := by
  cases h <;> rfl

end Procedure

end IlpConnector
