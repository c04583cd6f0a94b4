import IlpConnector.Proofs.Errands
import IlpConnector.Proofs.PlainTasks
import IlpConnector.Proofs.Synchrony

/-!
# A node that has nothing to tell

Nothing connects a link while no node comes up and nobody asks for it, and a sender that does not
broadcast changes only as requests ask for.  This is what tasks promise each other around a node
whose broadcasts have been stopped (`Procedure.honored_quiescence`), and it lasts as long as no
neighbour asks to be told again.
-/

namespace IlpConnector

/-! ## Links that only go down -/

namespace Network

variable {n n' n'' : Network}

/-- The links are as before, except that some may have gone down. -/
def Lowers (n n' : Network) : Prop :=
  ∀ i : ℕ, ∃ up : Bool, n'.links[i]? = n.links[i]?.map fun e =>
    (e.1, { e.2 with connected := e.2.connected && up })

theorem Lowers.of_eq (h : n'.links = n.links) : n.Lowers n' := by
  intro i
  refine ⟨true, ?_⟩
  rw [h]
  cases n.links[i]? <;> simp

theorem Lowers.trans (h : n.Lowers n') (h' : n'.Lowers n'') : n.Lowers n'' := by
  intro i
  obtain ⟨up, hup⟩ := h i
  obtain ⟨up', hup'⟩ := h' i
  refine ⟨up && up', ?_⟩
  rw [hup', hup, Option.map_map]
  simp only [Function.comp_def, Bool.and_assoc]

theorem Lowers.ownerOf_eq (h : n.Lowers n') (r : LinkRef) : n'.ownerOf r = n.ownerOf r := by
  obtain ⟨up, hup⟩ := h r.index
  rw [ownerOf, ownerOf, hup, Option.map_map]
  rfl

theorem Lowers.link?_eq (h : n.Lowers n') (r : LinkRef) : ∃ up, n'.link? r
    = (n.link? r).map fun l => { l with connected := l.connected && up } := by
  obtain ⟨up, hup⟩ := h r.index
  refine ⟨up, ?_⟩
  rw [link?, link?, hup, Option.map_map, Option.map_map]
  rfl

theorem Lowers.isConnected (h : n.Lowers n') {r : LinkRef} (hr : n'.isConnected r = true) :
    n.isConnected r = true := by
  obtain ⟨up, hup⟩ := h.link?_eq r
  rw [Network.isConnected, hup] at hr
  rw [Network.isConnected]
  cases hl : n.link? r with
  | none => simp [hl] at hr
  | some l =>
    rw [hl] at hr
    exact (Bool.and_eq_true_iff.mp hr).1

/-- A link that is down stays down. -/
theorem Lowers.isConnected_eq_false (h : n.Lowers n') {r : LinkRef}
    (hr : n.isConnected r = false) : n'.isConnected r = false :=
  Bool.eq_false_iff.mpr fun hr' => Bool.eq_false_iff.mp hr (h.isConnected hr')

theorem isConnected_setLink {r : LinkRef} {l : NetworkLink} (hl : n.link? r = some l)
    (l' : NetworkLink) : (n.setLink r l').isConnected r = l'.connected := by
  obtain ⟨e, he, rfl⟩ := Option.map_eq_some_iff.mp hl
  simp [Network.isConnected, link?, setLink, he]

theorem lowers_setLink {r : LinkRef} {l : NetworkLink} (hl : n.link? r = some l) (up : Bool) :
    n.Lowers (n.setLink r { l with connected := l.connected && up }) := by
  intro i
  by_cases hi : r.index = i
  · subst hi
    refine ⟨up, ?_⟩
    obtain ⟨e, he, rfl⟩ := Option.map_eq_some_iff.mp hl
    simp [setLink, he]
  · refine ⟨true, ?_⟩
    simp [setLink, hi]

end Network

namespace Link

variable {τ η : Type}

theorem begin_disconnect_fst (l : Link τ η) :
    (l.begin .disconnect).1 = { l with connected := l.connected && false } := by
  obtain ⟨settings, transport, id, connected, handler, listeners⟩ := l
  cases connected <;> rfl

/-- A call that goes on turns no flag on. -/
theorem exists_resume_fst (wait : LinkWait) (answer : Except LinkError Unit) (l : Link τ η) :
    ∃ up, (l.resume wait answer).1 = { l with connected := l.connected && up } := by
  cases wait <;> cases answer
  · exact ⟨true, by simp [resume]⟩
  · exact ⟨true, by simp [resume]⟩
  · exact ⟨false, by simp [resume]⟩
  · exact ⟨false, by simp [resume]⟩
  · exact ⟨true, by simp [resume]⟩
  · exact ⟨true, by simp [resume]⟩

end Link

/-! ## Senders that do not broadcast -/

/-- None of the requests asks to be told routes. -/
def RouteControl.Idle (Requested : RouteControl → Prop) : Prop :=
  ∀ c, Requested c → c.mode = .idle

namespace Sender

variable {s s' s'' : Sender} {table : TableId} {Requested : RouteControl → Prop} {c : RouteControl}

/-- A sender is as it was, or as the last one of some requests has set it. -/
def Noted (table : TableId) (Requested : RouteControl → Prop) (s s' : Sender) : Prop :=
  s' = s ∨ ∃ c, Requested c ∧ s' = s.note table c

theorem Noted.trans (h : s.Noted table Requested s') (h' : s'.Noted table Requested s'') :
    s.Noted table Requested s'' := by
  rcases h' with rfl | ⟨c, hc, rfl⟩
  · exact h
  · refine Or.inr ⟨c, hc, ?_⟩
    rcases h with rfl | ⟨c', -, rfl⟩ <;> rfl

theorem Noted.broadcast_eq (h : s.Noted table Requested s') : s'.broadcast = s.broadcast := by
  rcases h with rfl | ⟨c, -, rfl⟩ <;> rfl

theorem noted_obey (hidle : RouteControl.Idle Requested) (hs : s.broadcast = none)
    (hc : Requested c) (number : ℕ) : s.Noted table Requested (s.obey table number c) := by
  refine Or.inr ⟨c, hc, ?_⟩
  rw [obey, hidle c hc, stop]
  have hnote : (s.note table c).broadcast = none := hs
  rw [← hnote]

end Sender

namespace Broadcaster

variable {Requested : AccountId → RouteControl → Prop} {b b' b'' : Broadcaster} {a : AccountId}
  {s s' : Sender} {p : Prepare}

/-- What becomes of an exchange of routes while neighbours may ask for some things: senders stay,
and those that do not broadcast and are not asked to only note what they are asked for. -/
structure Rests (Requested : AccountId → RouteControl → Prop) (b b' : Broadcaster) : Prop where
  reached : b'.Reached
  table : b'.table.id = b.table.id
  absent : ∀ a, b.senders.get? a = none → b'.senders.get? a = none
  sender : ∀ a s, b.senders.get? a = some s → ∃ s', b'.senders.get? a = some s' ∧
    (s.broadcast = none → RouteControl.Idle (Requested a) → s.Noted b.table.id (Requested a) s')

theorem Rests.of_eq (hb' : b'.Reached) (htable : b'.table.id = b.table.id)
    (hsenders : b'.senders = b.senders) : b.Rests Requested b' where
  reached := hb'
  table := htable
  absent _ ha := hsenders ▸ ha
  sender _ s hs := ⟨s, hsenders ▸ hs, fun _ _ => Or.inl rfl⟩

theorem Rests.trans (h : b.Rests Requested b') (h' : b'.Rests Requested b'') :
    b.Rests Requested b'' where
  reached := h'.reached
  table := h'.table.trans h.table
  absent a ha := h'.absent a (h.absent a ha)
  sender a s hs := by
    obtain ⟨s', hs', hnoted⟩ := h.sender a s hs
    obtain ⟨s'', hs'', hnoted'⟩ := h'.sender a s' hs'
    refine ⟨s'', hs'', fun hnone hidle => ?_⟩
    have hfirst := hnoted hnone hidle
    have hlast := hnoted' (hfirst.broadcast_eq.trans hnone) hidle
    rw [h.table] at hlast
    exact hfirst.trans hlast

theorem rests_withSender (hb : b.Reached) (hs : b.senders.get? a = some s)
    (hs' : s'.toRegistration = s.toRegistration) (number : ℕ)
    (h : s.broadcast = none → RouteControl.Idle (Requested a) →
      s.Noted b.table.id (Requested a) s') :
    b.Rests Requested { b.withSender s' with nextBroadcast := number } := by
  have hunder : s'.peer = a := (congrArg Registration.peer hs').trans (hb.inv.2 a s hs).1
  have hother : ∀ {a'}, a ≠ a' → (b.senders.insert s'.peer s').get? a' = b.senders.get? a' :=
    fun ha => Dict.get?_insert_of_ne _ _ (hunder ▸ ha)
  refine ⟨hb.change (.sender s' hs hs' number), rfl, fun a' ha' => ?_, fun a' t ht => ?_⟩
  · refine (hother ?_).trans ha'
    rintro rfl
    cases hs.symm.trans ha'
  · by_cases ha : a = a'
    · subst ha
      obtain rfl := Option.some.inj (hs.symm.trans ht)
      exact ⟨s', hunder ▸ Dict.get?_insert_self _ _ _, h⟩
    · exact ⟨t, (hother ha).trans ht, fun _ _ => Or.inl rfl⟩

/-- A neighbour that may ask to be told has its sender note something, be it a former one. -/
theorem rests_withAnySender {serial : ℕ} (hb : b.Reached) (hs : b.sender? a serial = some s)
    (hs' : s'.toRegistration = s.toRegistration) (h : ¬ RouteControl.Idle (Requested a)) :
    b.Rests Requested (b.withAnySender s') := by
  have hafter := hb.becomes (hb.becomes_withAnySender hs hs')
  rcases withAnySender_cases (fun t ht => (hb.inv.2 a t ht).1) hs hs' with
    ⟨hget, heq⟩ | ⟨-, heq⟩ <;> rw [heq] at hafter ⊢
  · exact rests_withSender hb hget hs' b.nextBroadcast fun _ hidle => absurd hidle h
  · exact .of_eq hafter rfl rfl

theorem rests_update {r : Receiver} (hb : b.Reached) (hr : b.receivers.get? a = some r)
    (own : Option Address) (u : RouteUpdate) : b.Rests Requested (b.update r own u).2 := by
  have hgrows : ForwardingTable.Grows (fun _ => True) b.table (b.update r own u).2.table :=
    grows_update hb.inv.1 (fun _ _ _ _ _ => trivial) hr own u
  exact .of_eq (.step hb (.update own u hr)) hgrows.id senders_update

/-- A packet leaves the senders alone, or it is a request. -/
theorem rests_receive (hb : b.Reached) (operator : Option Address) (now : Instant)
    (h : p.destination = controlDestination →
      ∀ c, RouteControl.ofPrepare now p = .ok c → Requested a c) :
    b.Rests Requested (b.receive operator now a p).2 := by
  have hx := b.received operator now a p
  generalize b.receive operator now a p = x at hx ⊢
  cases hx with
  | switched | refused => exact .of_eq hb rfl rfl
  | @obeyed c s hp hc hs =>
    exact rests_withSender hb hs (s.registration_obey _ _ c) _ fun hnone hidle =>
      Sender.noted_obey hidle hnone (h hp c hc) _
  | @updated u r _ _ _ _ hr hupdate =>
    have hrests : b.Rests Requested (b.update r operator u).2 := rests_update hb hr operator u
    rwa [hupdate] at hrests
  | @late u r _ hlate hupdate =>
    have hrests : b.Rests Requested (b.update r operator u).2 :=
      rests_update hb hlate.receiver operator u
    rwa [hupdate] at hrests

end Broadcaster

namespace Network

variable {Requested : AccountId → RouteControl → Prop} {name : String} {n n' n'' : Network}

/-- What becomes of a network around a node while neighbours may ask it for some things: links at
most go down, and the node keeps its links, and its exchange of routes rests. -/
structure Rests (name : String) (Requested : AccountId → RouteControl → Prop) (n n' : Network) :
    Prop where
  lowers : n.Lowers n'
  node : ∀ m, n.nodes.get? name = some m → m.broadcaster.Reached →
    ∃ m', n'.nodes.get? name = some m' ∧ m'.links = m.links ∧
      m.broadcaster.Rests Requested m'.broadcaster

theorem Rests.of_eq (hlinks : n'.links = n.links) (hnodes : n'.nodes = n.nodes) :
    n.Rests name Requested n' where
  lowers := .of_eq hlinks
  node m hm hb := ⟨m, hnodes ▸ hm, rfl, .of_eq hb rfl rfl⟩

theorem Rests.trans (h : n.Rests name Requested n') (h' : n'.Rests name Requested n'') :
    n.Rests name Requested n'' where
  lowers := h.lowers.trans h'.lowers
  node m hm hb := by
    obtain ⟨m', hm', hlinks, hrests⟩ := h.node m hm hb
    obtain ⟨m'', hm'', hlinks', hrests'⟩ := h'.node m' hm' hrests.reached
    exact ⟨m'', hm'', hlinks'.trans hlinks, hrests.trans hrests'⟩

theorem get?_nodes_setNode (n : Network) (node name : String) (m : Node) :
    (n.setNode node m).nodes.get? name = if node = name then some m else n.nodes.get? name :=
  Dict.get?_insert _ _ _ _

theorem rests_setNode {node : String} {m m' : Node} (hm : n.nodes.get? node = some m)
    (h : node = name → m.broadcaster.Reached →
      m'.links = m.links ∧ m.broadcaster.Rests Requested m'.broadcaster) :
    n.Rests name Requested (n.setNode node m') where
  lowers := .of_eq rfl
  node m₀ hm₀ hb := by
    rw [get?_nodes_setNode]
    split_ifs with hname
    · obtain rfl := Option.some.inj (hm.symm.trans (hname ▸ hm₀))
      exact ⟨m', rfl, h hname hb⟩
    · exact ⟨m₀, hm₀, rfl, .of_eq hb rfl rfl⟩

/-- Links at most go down, and all nodes keep their links and their exchange of routes. -/
structure Idles (n n' : Network) : Prop where
  lowers : n.Lowers n'
  node : ∀ name m, n.nodes.get? name = some m → ∃ m', n'.nodes.get? name = some m' ∧
    m'.links = m.links ∧ m'.broadcaster = m.broadcaster

theorem Idles.of_eq (hlinks : n'.links = n.links) (hnodes : n'.nodes = n.nodes) : n.Idles n' where
  lowers := .of_eq hlinks
  node _ m hm := ⟨m, hnodes ▸ hm, rfl, rfl⟩

theorem idles_setNode {node : String} {m m' : Node} (hm : n.nodes.get? node = some m)
    (hlinks : m'.links = m.links) (hb : m'.broadcaster = m.broadcaster) :
    n.Idles (n.setNode node m') where
  lowers := .of_eq rfl
  node name m₀ hm₀ := by
    rw [get?_nodes_setNode]
    split_ifs with hname
    · obtain rfl := Option.some.inj (hm.symm.trans (hname ▸ hm₀))
      exact ⟨m', rfl, hlinks, hb⟩
    · exact ⟨m₀, hm₀, rfl, rfl⟩

theorem Idles.rests (h : n.Idles n') : n.Rests name Requested n' where
  lowers := h.lowers
  node m hm hb := by
    obtain ⟨m', hm', hlinks, hb'⟩ := h.node name m hm
    exact ⟨m', hm', hlinks, .of_eq (hb' ▸ hb) (by rw [hb']) (by rw [hb'])⟩

end Network

/-! ## What waiting tasks may still do -/

namespace Procedure

open IlpConnector.Flow

variable {node : String} {account : AccountId} {p : Prepare} {r : LinkRef} {α : Type}

/-- The procedures that a task may go through or start after it has waited. -/
def Ensues : Procedure → Prop
  | turn .disconnect _ | send .. | switch .. | guarded .. | request .. | broadcast .. | pause _ =>
    True
  | _ => False

/-- The procedures that follow and are no broadcasts. -/
def Onward : Procedure → Prop
  | broadcast .. => False
  | c => c.Ensues

/-- From here on, the task does nothing to nodes and connects no link. -/
abbrev Calm (f : Flow Network Procedure Outcome α) : Prop := f.Only Network.Idles Ensues

/-- The task is calm and does not go on without end. -/
abbrev Quiet (f : Flow Network Procedure Outcome α) : Prop := f.Only Network.Idles Onward

theorem Quiet.calm {f : Flow Network Procedure Outcome α} (h : Quiet f) : Calm f :=
  h.mono (fun _ _ => id) fun c hc => by cases c <;> first | exact hc | exact hc.elim

theorem quiet_read (f : Network → α) : Quiet (Flow.read f) :=
  only_read (fun _ => .of_eq rfl rfl) f

theorem quiet_goOn (r : LinkRef) (waits : ℕ) (progress : LinkProgress) :
    Quiet (goOn r waits progress) := by
  refine only_goOn (fun _ _ => .of_eq) (fun n l hl wait answer heard => ?_) waits progress
  obtain ⟨up, hup⟩ := l.exists_resume_fst wait answer
  rw [hup]
  exact ⟨Network.lowers_setLink hl up, fun _ m hm => ⟨m, hm, rfl, rfl⟩⟩

/-- A transport that leads to no other node has no packet arrive. -/
theorem quiet_carryPacket (operator : Option Address) (now : Instant) {t : Transport Wire}
    (ht : ∀ node account, t ≠ .other (.bridge node account)) :
    Quiet (carryPacket operator now p t) :=
  only_carryPacket (fun _ _ => .of_eq) operator now ht

theorem quiet_guarded (source : AccountSettings) (guards : List Guard) :
    Quiet (task (.guarded node source p guards)) :=
  only_guarded (fun _ _ => .of_eq) (fun _ _ => trivial) (fun _ _ _ _ => trivial) source guards

theorem quiet_switch : Quiet (task (.switch node account p)) := by
  refine .bind (only_take fun n => ?_) fun (operator, entered) => ?_
  · split
    · rename_i m hm
      obtain ⟨limiters, henter⟩ := m.exists_enter_snd n.now n.reading account p
      have hidles : n.Idles (n.setNode node (m.enter n.now n.reading account p).2) :=
        Network.idles_setNode hm (by rw [henter]) (by rw [henter])
      dsimp only
      split
      · exact ⟨hidles.lowers, hidles.node⟩
      · exact hidles
    · exact .of_eq rfl rfl
  · rcases entered with - | ⟨source, e⟩
    · trivial
    · dsimp only
      split
      · trivial
      · exact only_run trivial

theorem quiet_request (serial : ℕ) : Quiet (task (.request node account serial)) :=
  only_request (fun _ _ => .of_eq) (fun _ _ => trivial) serial

end Procedure

/-! ## What tasks promise each other -/

/-- A link brings packets of an account to the node that goes by a name. -/
def Network.Serves (n : Network) (link : LinkRef) (name : String) (account : AccountId) : Prop :=
  n.ownerOf link = name ∧ ∃ l id, n.link? link = some l ∧ l.incoming = .ok (id, .account account)

theorem Network.Lowers.serves_iff {n n' : Network} (h : n.Lowers n') {link : LinkRef}
    {name : String} {account : AccountId} :
    n'.Serves link name account ↔ n.Serves link name account := by
  obtain ⟨up, hup⟩ := h.link?_eq link
  unfold Serves
  rw [h.ownerOf_eq, hup]
  refine and_congr_right fun _ => ?_
  cases n.link? link with
  | none => simp
  | some l => simp [Link.incoming]

/-- The requests for routes of an account that may arrive at a node, whatever the clock says
then. -/
def Network.Requested (n : Network) (May : LinkRef → Prepare → Prop) (name : String)
    (account : AccountId) (c : RouteControl) : Prop :=
  ∃ link p now, May link p ∧ n.Serves link name account ∧ p.destination = controlDestination ∧
    RouteControl.ofPrepare now p = .ok c

/-- No link leads to another node of the network. -/
def Network.Apart (n : Network) : Prop :=
  ∀ r l, n.link? r = some l → ∀ node account, l.transport ≠ .other (.bridge node account)

/-- A node's links have no other nodes of the network at their ends, and none of its senders
broadcasts. -/
structure Network.Silent (n : Network) (name : String) (m : Node) : Prop where
  apart : n.Apart
  node : n.nodes.get? name = some m
  reached : m.broadcaster.Reached
  stopped : ∀ a s, m.broadcaster.senders.get? a = some s → s.broadcast = none

namespace Procedure

variable {start : Network} {May : LinkRef → Prepare → Prop} {name : String} {m : Node}

/-- The procedures that may go on once the node is silent: packets that may arrive, what they bring
about, and updates for neighbours that may ask for them. -/
def Rests (Requested : AccountId → RouteControl → Prop) (May : LinkRef → Prepare → Prop)
    (name : String) : Procedure → Prop
  | arrive link p => May link p
  | announce node account _ => node = name → ¬ RouteControl.Idle (Requested account)
  | c => c.Ensues

/-- What tasks promise each other once a node is silent. -/
def quiescence (start : Network) (May : LinkRef → Prepare → Prop) (name : String) :
    Contract Network Procedure Outcome where
  start
  Leads := Network.Rests name (start.Requested May name)
  refl _ := .of_eq rfl rfl
  trans := Network.Rests.trans
  Allows := Rests (start.Requested May name) May name
  Ensures
    | .turn .disconnect r, _, n => n.isConnected r = false
    | _, _, _ => True

theorem Calm.meets {f : Task Outcome} (h : Calm f) {R : Network → Prop}
    (hR : ∀ n n', n.Rests name (start.Requested May name) n' → R n → R n') {n : Network}
    (hn : R n) :
    f.Meets (quiescence start May name) n fun _ => R :=
  Flow.Only.meets h (fun _ _ hidles => hidles.rests)
    (fun c hc => by cases c <;> first | exact hc | exact hc.elim) hR hn

theorem Calm.meets_true {f : Task Outcome} (h : Calm f) (n : Network) :
    f.Meets (quiescence start May name) n fun _ _ => True :=
  h.meets (fun _ _ _ _ => trivial) trivial

variable {n : Network}

/-- What is known about a network once one of its nodes has been silent. -/
structure Since (start : Network) (May : LinkRef → Prepare → Prop) (name : String) (m : Node)
    (n : Network) : Prop where
  silent : start.Silent name m
  rests : start.Rests name (start.Requested May name) n

theorem Since.mono {n' : Network} (h : Since start May name m n)
    (hn : n.Rests name (start.Requested May name) n') : Since start May name m n' :=
  ⟨h.silent, h.rests.trans hn⟩

theorem Since.apart (h : Since start May name m n) : n.Apart := by
  intro r l hl node account htransport
  obtain ⟨up, hup⟩ := h.rests.lowers.link?_eq r
  rw [hl] at hup
  obtain ⟨l₀, hl₀, rfl⟩ := Option.map_eq_some_iff.mp hup.symm
  exact h.silent.apart r l₀ hl₀ node account htransport

theorem Since.not_running (h : Since start May name m n) {m' : Node}
    (hm' : n.nodes.get? name = some m') {account : AccountId} {number : ℕ} {s' : Sender}
    (hrun : m'.broadcaster.running? account number = some s') :
    ¬ RouteControl.Idle (start.Requested May name account) := by
  intro hidle
  obtain ⟨m₁, hm₁, -, hrests⟩ := h.rests.node m h.silent.node h.silent.reached
  obtain rfl := Option.some.inj (hm'.symm.trans hm₁)
  obtain ⟨hs', hnumber⟩ := Broadcaster.running?_eq_some_iff.mp hrun
  cases hs : m.broadcaster.senders.get? account with
  | none =>
    rw [hrests.absent account hs] at hs'
    cases hs'
  | some s =>
    obtain ⟨s₁, hs₁, hnoted⟩ := hrests.sender account s hs
    obtain rfl := Option.some.inj (hs'.symm.trans hs₁)
    have hstopped := h.silent.stopped account s hs
    rw [(hnoted hstopped hidle).broadcast_eq, hstopped] at hnumber
    cases hnumber

theorem meets_send (h : Since start May name m n) {r : LinkRef} {p : Prepare} :
    (task (.send r p)).Meets (quiescence start May name) n fun _ _ => True := by
  refine Flow.meets_read fun n hn => ?_
  dsimp only
  split
  · exact fun _ _ => trivial
  · exact fun _ _ => trivial
  · rename_i transport hout
    obtain ⟨l, hl, hl'⟩ := Option.map_eq_some_iff.mp hout
    unfold Link.outgoing at hl'
    split_ifs at hl'
    obtain rfl := Except.ok.inj hl'
    exact (quiet_carryPacket _ _ ((h.mono hn).apart r l hl)).calm.meets_true n

/-- Whatever a packet that may arrive brings, a silent node rests. -/
theorem Since.rests_handing (h : Since start May name m n) {r : LinkRef} {p : Prepare}
    (hmay : May r p) {node : String} {account : AccountId} (hserves : n.Serves r node account) :
    n.Rests name (start.Requested May name) (handing node account p n).2 := by
  unfold handing
  split
  · rename_i m' hm'
    refine Network.rests_setNode hm' ?_
    rintro rfl hb
    exact ⟨rfl, Broadcaster.rests_receive hb m'.operator n.now fun hp c hc =>
      ⟨r, p, n.now, hmay, h.rests.lowers.serves_iff.mp hserves, hp, hc⟩⟩
  · exact .of_eq rfl rfl

theorem meets_arrive (h : Since start May name m n) {r : LinkRef} {p : Prepare} (hmay : May r p) :
    (task (.arrive r p)).Meets (quiescence start May name) n fun _ _ => True := by
  rw [show task (.arrive r p) = _ from arriveAt_eq]
  refine fun n hn => ⟨.of_eq rfl rfl, ?_⟩
  have h := h.mono hn
  change (afterArrival p (n.link? r, n.ownerOf r)).Meets _ n _
  rw [afterArrival]
  split
  · exact fun _ _ => trivial
  · exact fun _ _ => trivial
  · exact fun _ _ => trivial
  · rename_i id account hin
    obtain ⟨l, hl, hl'⟩ := Option.map_eq_some_iff.mp hin
    have hserves : n.Serves r (n.ownerOf r) account := ⟨rfl, l, id, hl, hl'⟩
    refine fun n' hn' => ⟨(h.mono hn').rests_handing hmay (hn'.lowers.serves_iff.mpr hserves), ?_⟩
    unfold afterReception
    split
    · exact ⟨trivial, fun _ _ _ _ => fun _ _ => trivial⟩
    · exact fun _ _ => trivial
    · rename_i errand _
      refine ⟨?_, fun _ => fun _ _ => trivial⟩
      cases errand <;> trivial

theorem meets_announce {node : String} {account : AccountId} {serial : ℕ}
    (hasked : node = name → ¬ RouteControl.Idle (start.Requested May name account)) :
    (task (.announce node account serial)).Meets (quiescence start May name) n
      fun _ _ => True := by
  refine Flow.meets_take fun n hn => ⟨?_, ?_⟩
  · split
    · exact .of_eq rfl rfl
    · rename_i m' hm'
      split
      · exact .of_eq rfl rfl
      · rename_i s hs
        exact Network.rests_setNode hm' fun hnode hb =>
          ⟨rfl, Broadcaster.rests_withAnySender hb hs rfl (hasked hnode)⟩
  · split
    · exact fun _ _ => trivial
    · refine Flow.meets_run trivial fun o n' _ _ => ?_
      split <;> exact fun _ _ => trivial

theorem meets_broadcast (h : Since start May name m n) {node : String} {account : AccountId}
    {number : ℕ} : (task (.broadcast node account number)).Meets (quiescence start May name) n
      fun _ _ => True := by
  refine Flow.meets_read fun n hn => ?_
  split
  · exact fun _ _ => trivial
  · rename_i serial interval hrunning
    refine Flow.meets_start ?_ fun t _ => ⟨trivial, fun _ _ _ _ => fun _ _ => trivial⟩
    rintro rfl
    obtain ⟨m', hm', hrunning⟩ := Option.bind_eq_some_iff.mp hrunning
    obtain ⟨s, hrun, -⟩ := Option.bind_eq_some_iff.mp hrunning
    exact (h.mono hn).not_running hm' hrun

theorem meets_disconnect (r : LinkRef) :
    (task (.turn .disconnect r)).Meets (quiescence start May name) n
      fun _ n => n.isConnected r = false := by
  refine Flow.meets_take fun n hn => ?_
  have hgoOn : ∀ {n progress}, n.isConnected r = false → (goOn r 2 progress).Meets
      (quiescence start May name) n fun _ n => n.isConnected r = false :=
    fun hr => (quiet_goOn r 2 _).calm.meets (fun _ _ hrests => hrests.lowers.isConnected_eq_false) hr
  split
  · rename_i hl
    refine ⟨.of_eq rfl rfl, hgoOn ?_⟩
    rw [Network.isConnected, hl]
    rfl
  · rename_i l hl
    dsimp only
    rw [l.begin_disconnect_fst]
    refine ⟨⟨Network.lowers_setLink hl false, fun m hm hb => ⟨m, hm, rfl, .of_eq hb rfl rfl⟩⟩,
      hgoOn ?_⟩
    rw [Network.isConnected_setLink hl]
    exact Bool.and_false _

/-- All procedures keep to what tasks promise each other around a silent node. -/
theorem honored_quiescence (h : start.Silent name m) :
    (quiescence start May name).Honored task := by
  intro c hc n hn
  have h : Since start May name m n := ⟨h, hn⟩
  cases c with
  | turn call r =>
    cases call with
    | connect => exact hc.elim
    | disconnect => exact meets_disconnect r
  | send r p => exact meets_send h
  | arrive r p => exact meets_arrive h hc
  | switch => exact quiet_switch.calm.meets_true n
  | guarded node source p guards => exact (quiet_guarded source guards).calm.meets_true n
  | bringUp | takeDown => exact hc.elim
  | announce => exact meets_announce hc
  | request node account serial => exact (quiet_request serial).calm.meets_true n
  | broadcast => exact meets_broadcast h
  | pause => exact fun _ _ => trivial

end Procedure

end IlpConnector
