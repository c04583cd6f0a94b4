import IlpConnector.Proofs.Contract
import IlpConnector.Simulation.Procedures

/-!
# Tasks that leave nodes and links alone

Most of what tasks do concerns neither nodes nor links: a neighbour is asked, a transport opens or
closes, a packet is sent on.  So these tasks keep to any way of changing a network that includes to
leave its nodes and links as they are.
-/

namespace IlpConnector.Procedure

open IlpConnector.Flow

variable {G : Network → Network → Prop} {allowed : Procedure → Prop} {node : String}
  {account : AccountId} {p : Prepare}
  (hG : ∀ n n' : Network, n'.links = n.links → n'.nodes = n.nodes → G n n')

/-- A task may wait before it goes on. -/
theorem only_delayed {α : Type} {delay : ℕ} {k : Unit → Flow Network Procedure Outcome α}
    (h : (k ()).Only G allowed) :
    (if delay ≠ 0 then Flow.pause delay >>= k else k ()).Only G allowed := by
  split
  · exact h
  · exact h

include hG

theorem only_look {α : Type} (f : Network → α) :
    (Flow.read f : Flow Network Procedure Outcome α).Only G allowed :=
  only_read (fun n => hG n n rfl rfl) f

theorem only_askPeer (name : String) (p : Prepare) : (askPeer name p).Only G allowed := by
  have hanswered : (Flow.change fun n : Network => { n with
      peers := n.peers.modify name fun peer => { peer with answered := peer.answered + 1 } } :
      Task Unit).Only G allowed := only_change fun _ => hG _ _ rfl rfl
  refine .bind (only_take fun n => ?_) fun action => only_delayed ?_
  · split <;> exact hG _ _ rfl rfl
  · split
    · trivial
    · trivial
    · exact hanswered.bind fun _ => trivial
    · exact hanswered.bind fun _ => trivial
    · exact hanswered.bind fun _ => trivial

theorem only_askHost (r : HttpRequest) : (askHost r).Only G allowed := by
  refine .bind (only_take fun n => hG _ _ rfl rfl) fun end? => ?_
  split
  · trivial
  · refine only_delayed ?_
    split <;> trivial

theorem only_moveTransport (t : Transport Wire) (step : TransportStep) :
    (moveTransport t step).Only G allowed := by
  unfold moveTransport
  split
  · trivial
  · trivial
  · trivial
  · refine .bind (only_look hG _) fun now => ?_
    split <;> trivial
  · refine .bind (only_take fun n => ?_) fun (refusal, delay) => only_delayed ?_
    · split <;> exact hG _ _ rfl rfl
    · split <;> trivial

/-- A call on a link changes the link only. -/
theorem only_goOn {r : LinkRef}
    (hresume : ∀ (n : Network) (l : NetworkLink), n.link? r = some l →
      ∀ (wait : LinkWait) (answer : Except LinkError Unit) (heard : List (String × LinkEvent)),
        G n { n.setLink r (l.resume wait answer).1 with heard })
    (waits : ℕ) (progress : LinkProgress) : (goOn r waits progress).Only G allowed := by
  induction waits generalizing progress with
  | zero => rcases progress with wait | e | - <;> trivial
  | succ waits ih =>
    rcases progress with wait | e | -
    · refine .bind (only_look hG _) fun l => ?_
      split
      · trivial
      · refine .bind (only_moveTransport hG _ _) fun answer => .bind (only_take fun n => ?_) ih
        split
        · exact hG _ _ rfl rfl
        · rename_i l hl
          exact hresume n l hl wait answer _
    · trivial
    · trivial

/-- A transport that leads to no other node has no packet arrive. -/
theorem only_carryPacket (operator : Option Address) (now : Instant) {t : Transport Wire}
    (ht : ∀ node account, t ≠ .other (.bridge node account)) :
    (carryPacket operator now p t).Only G allowed := by
  unfold carryPacket
  split
  · trivial
  · trivial
  · split
    · trivial
    · exact only_askHost hG _
  · exact only_askPeer hG _ p
  · exact absurd rfl (ht _ _)

/-- A packet that is sent arrives at another node, or asks a neighbour. -/
theorem only_send (harrive : ∀ r p, allowed (.arrive r p)) (r : LinkRef) :
    (task (.send r p)).Only G allowed := by
  refine .bind (only_look hG _) fun (l, operator, now) => ?_
  dsimp only
  split
  · trivial
  · trivial
  · rename_i t _
    by_cases ht : ∃ node account, t = .other (.bridge node account)
    · obtain ⟨node, account, rfl⟩ := ht
      refine .bind (only_look hG _) fun far => ?_
      split
      · trivial
      · exact only_run (harrive _ _)
    · exact only_carryPacket hG operator now fun node account hout => ht ⟨node, account, hout⟩

variable (hsend : ∀ r p, allowed (.send r p))

include hsend

theorem only_routePacket (source : AccountSettings) :
    (routePacket node source p).Only G allowed := by
  refine .bind (only_look hG _) fun choice => ?_
  rcases choice with r | ⟨next, link⟩
  · trivial
  · refine .bind (only_run (hsend _ _)) fun o => ?_
    cases o with
    | linkFailed e => exact .bind (only_look hG _) fun _ => trivial
    | _ => trivial

theorem only_guarded (hguarded : ∀ node source p guards, allowed (.guarded node source p guards))
    (source : AccountSettings) (guards : List Guard) :
    (task (.guarded node source p guards)).Only G allowed := by
  rcases guards with - | ⟨nanos | hash, rest⟩
  · refine .bind (only_look hG _) fun outlet => ?_
    split
    · exact only_askPeer hG _ p
    · exact only_routePacket hG hsend source
  · refine .bind (only_start (hguarded _ _ _ _)) fun t => .bind (fun _ => trivial) fun e => ?_
    split
    · trivial
    · trivial
    · exact .bind (only_look hG _) fun _ => trivial
  · refine .bind (only_run (hguarded _ _ _ _)) fun o => ?_
    split
    · exact .bind (only_look hG _) fun _ => trivial
    · trivial

theorem only_request (serial : ℕ) : (task (.request node account serial)).Only G allowed := by
  refine .bind (only_look hG _) fun packet => ?_
  split
  · trivial
  · exact .bind (only_run (hsend _ _)) fun o => by cases o <;> trivial

end IlpConnector.Procedure
