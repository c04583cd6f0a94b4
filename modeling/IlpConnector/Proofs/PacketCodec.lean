import IlpConnector.Packet.Codec
import IlpConnector.Proofs.Oer
import IlpConnector.Proofs.Timestamp

/-!
# Packets are read as they were written

A packet's octets are read as that packet, by the reader of its own type and by the one of all
types, and the readers of the other types refuse them (`Packet.round_trip`).  The content of a
packet may be as long as eight octets can tell, and an expiry has to be a whole millisecond of the
years 0 to 9999, as `Prepare.build` makes it from an instant of those years.
-/

namespace IlpConnector

namespace Address

theorem ofText_text (a : Address) : ofText a.text = .ok a := by
  unfold ofText
  split
  · rfl
  · rename_i e h
    rw [a.valid] at h
    cases h

theorem ofBytes_bytes (a : Address) : ofBytes a.bytes = .ok a := by
  rw [ofBytes, bytes, Utf8.decode_encode]
  exact a.ofText_text

theorem bytes_ne_nil (a : Address) : a.bytes ≠ [] := by
  intro h
  have hdecode := Utf8.decode_encode a.text
  rw [show Utf8.encode a.text = [] from h, show Utf8.decode [] = .ok "" by decide +kernel]
    at hdecode
  have hvalid := a.valid
  rw [← Except.ok.inj hdecode] at hvalid
  exact absurd hvalid (by decide +kernel)

end Address

theorem Oer.asPacket_of_ok {α : Type} {r : Reader ReadError α} {b : Bytes} {x : α × Bytes}
    (h : r b = .ok x) : asPacket r b = .ok x := by
  rw [asPacket, h]
  rfl

open Oer

namespace Packet

/-! ## The envelope -/

theorem envelope_append (type : UInt8) {content : Bytes} {size : Nat} (h : content.length = size) :
    envelope type size ++ content = type :: writeString content := by
  rw [envelope, List.cons_append, ← h]
  rfl

theorem openEnvelope_writeString (type : UInt8) {content : Bytes} (h : content.length < 2 ^ 64) :
    openEnvelope type (type :: writeString content) = .ok content := by
  have hread := asPacket_of_ok (readString_writeString [] h)
  rw [List.append_nil] at hread
  simp only [openEnvelope, if_true, hread, bind, Except.bind, ensureEnd, List.isEmpty_nil]
  rfl

theorem openEnvelope_of_ne {found expected : UInt8} (h : found ≠ expected) (b : Bytes) :
    openEnvelope expected (found :: b) = .error (.packetType (.unexpected found expected)) :=
  if_neg h

end Packet

open Packet

/-! ## The three types -/

namespace Prepare

variable {p : Prepare}

/-- The expiry is one that a timestamp can tell. -/
structure Timely (p : Prepare) : Prop where
  year : 0 ≤ (Timestamp.Fields.ofInstant p.expiresAt).date.year ∧
    (Timestamp.Fields.ofInstant p.expiresAt).date.year ≤ 9999
  whole : p.expiresAt.truncateToMillis = p.expiresAt

/-- The content of a request, with any text in the place of its expiry. -/
def contentAs (p : Prepare) (stamp : String) : Bytes :=
  writeUInt64 p.amount ++ Utf8.encode stamp ++ p.condition.toList
    ++ writeString p.destination.bytes ++ writeString p.data

theorem content_eq (p : Prepare) : p.content = p.contentAs (Timestamp.write p.expiresAt) := rfl

theorem length_contentAs (p : Prepare) (stamp : String) :
    (p.contentAs stamp).length + timestampSize = p.contentSize + (Utf8.encode stamp).length := by
  simp only [contentAs, contentSize, List.length_append, length_writeString,
    p.condition.length_eq, writeUInt64, Bytes.length_ofNatBE]
  omega

/-- A request is read from its octets with any text of seventeen octets that is read as its
expiry. -/
theorem decode_contentAs {stamp : String} (hstamp : (Utf8.encode stamp).length = timestampSize)
    (hread : Timestamp.read stamp = .ok p.expiresAt) (hsize : p.contentSize < 2 ^ 64) :
    decode (prepareType :: writeString (p.contentAs stamp)) = .ok p := by
  have hlength : (p.contentAs stamp).length = p.contentSize :=
    Nat.add_right_cancel (hstamp ▸ p.length_contentAs stamp)
  have hdestination := le_stringSize p.destination.bytes.length
  have hdata := le_stringSize p.data.length
  have hopen := openEnvelope_writeString prepareType (hlength ▸ hsize)
  unfold contentSize at hsize
  have hamount := fun rest => asPacket_of_ok (readUInt64_writeUInt64 rest p.amount)
  have hexpiry : ∀ rest, readExpiry (Utf8.encode stamp ++ rest) = .ok (p.expiresAt, rest) := by
    intro rest
    simp only [readExpiry, asPacket_of_ok (readBytes_append rest hstamp), bind, Except.bind,
      Utf8.decode_encode, Except.mapError, hread]
    rfl
  have hcondition := fun rest => asPacket_of_ok (readField_append rest p.condition)
  have hto := fun rest =>
    asPacket_of_ok (readString_writeString rest (b := p.destination.bytes) (by omega))
  have hrest := asPacket_of_ok (readString_writeString [] (b := p.data) (by omega))
  rw [List.append_nil] at hrest
  simp only [decode, hopen, bind, Except.bind]
  simp only [contentAs, List.append_assoc, hamount, hexpiry, hcondition, hto,
    Address.ofBytes_bytes, Except.mapError, hrest, ensureEnd, List.isEmpty_nil, if_true]
  rfl

theorem encode_eq (h : p.Timely) : p.encode = prepareType :: writeString p.content := by
  have hlength := p.length_contentAs (Timestamp.write p.expiresAt)
  rw [(Timestamp.length_encode_write p.expiresAt).2.mpr h.year] at hlength
  exact envelope_append prepareType (Nat.add_right_cancel hlength)

theorem decode_encode (h : p.Timely) (hsize : p.contentSize < 2 ^ 64) :
    decode p.encode = .ok p := by
  rw [encode_eq h, content_eq]
  refine decode_contentAs ((Timestamp.length_encode_write p.expiresAt).2.mpr h.year) ?_ hsize
  rw [Timestamp.read_write h.year, h.whole]

theorem decode_of_ne {type : UInt8} (h : type ≠ prepareType) (b : Bytes) :
    decode (type :: b) = .error (.packetType (.unexpected type prepareType)) := by
  rw [decode, openEnvelope_of_ne h]
  rfl

end Prepare

namespace Fulfill

variable {f : Fulfill}

theorem length_content : f.content.length = f.contentSize := by
  simp only [content, contentSize, List.length_append, length_writeString, f.fulfillment.length_eq]

theorem encode_eq : f.encode = fulfillType :: writeString f.content :=
  envelope_append fulfillType length_content

theorem decode_encode (hsize : f.contentSize < 2 ^ 64) : decode f.encode = .ok f := by
  have hdata := le_stringSize f.data.length
  have hopen := openEnvelope_writeString fulfillType (length_content ▸ hsize)
  unfold contentSize at hsize
  have hfulfillment := fun rest => asPacket_of_ok (readField_append rest f.fulfillment)
  have hrest := asPacket_of_ok (readString_writeString [] (b := f.data) (by omega))
  rw [List.append_nil] at hrest
  simp only [encode_eq, decode, hopen, bind, Except.bind]
  simp only [content, hfulfillment, hrest, ensureEnd, List.isEmpty_nil, if_true]
  rfl

theorem decode_of_ne {type : UInt8} (h : type ≠ fulfillType) (b : Bytes) :
    decode (type :: b) = .error (.packetType (.unexpected type fulfillType)) := by
  rw [decode, openEnvelope_of_ne h]
  rfl

end Fulfill

namespace Reject

variable {r : Reject}

theorem length_content : r.content.length = r.contentSize := by
  simp only [content, contentSize, List.length_append, length_writeString, r.code.octets.length_eq]

theorem encode_eq : r.encode = rejectType :: writeString r.content :=
  envelope_append rejectType length_content

/-- Who refused a packet is read back, nobody from no octets. -/
theorem triggeredByOf_triggeredByBytes (r : Reject) :
    triggeredByOf r.triggeredByBytes = .ok r.triggeredBy := by
  unfold triggeredByOf triggeredByBytes
  cases r.triggeredBy with
  | none => rfl
  | some a =>
    dsimp only
    rw [if_neg (by rw [List.isEmpty_iff]; exact a.bytes_ne_nil), a.ofBytes_bytes]
    rfl

theorem decode_encode (hsize : r.contentSize < 2 ^ 64) : decode r.encode = .ok r := by
  have htriggered := le_stringSize r.triggeredByBytes.length
  have hmessage := le_stringSize r.message.length
  have hdata := le_stringSize r.data.length
  have hopen := openEnvelope_writeString rejectType (length_content ▸ hsize)
  unfold contentSize at hsize
  have hcode := fun rest => asPacket_of_ok (readField_append rest r.code.octets)
  have hby := fun rest =>
    asPacket_of_ok (readString_writeString rest (b := r.triggeredByBytes) (by omega))
  have hwhy := fun rest => asPacket_of_ok (readString_writeString rest (b := r.message) (by omega))
  have hrest := asPacket_of_ok (readString_writeString [] (b := r.data) (by omega))
  rw [List.append_nil] at hrest
  simp only [encode_eq, decode, hopen, bind, Except.bind]
  simp only [content, List.append_assoc, hcode, hby, triggeredByOf_triggeredByBytes, hwhy, hrest,
    ensureEnd, List.isEmpty_nil, if_true]
  rfl

theorem decode_of_ne {type : UInt8} (h : type ≠ rejectType) (b : Bytes) :
    decode (type :: b) = .error (.packetType (.unexpected type rejectType)) := by
  rw [decode, openEnvelope_of_ne h]
  rfl

end Reject

namespace Packet

/-- Whatever its parts are, a packet is read as it was written by the reader of its type and by the
one of all types, and refused by the readers of the other types, as a packet of this one.  A request
has kept the last whole millisecond that is not after the expiry asked for. -/
theorem round_trip :
    (∀ amount requested condition destination data,
      let p := Prepare.build amount requested condition destination data
      let year := (Timestamp.Fields.ofInstant requested.truncateToMillis).date.year
      0 ≤ year ∧ year ≤ 9999 → p.contentSize < 2 ^ 64 →
        Prepare.decode p.encode = .ok p ∧ decode p.encode = .ok (.prepare p) ∧
        Fulfill.decode p.encode = .error (.packetType (.unexpected prepareType fulfillType)) ∧
        Reject.decode p.encode = .error (.packetType (.unexpected prepareType rejectType))) ∧
    (∀ f : Fulfill, f.contentSize < 2 ^ 64 →
      Fulfill.decode f.encode = .ok f ∧ decode f.encode = .ok (.fulfill f) ∧
      Prepare.decode f.encode = .error (.packetType (.unexpected fulfillType prepareType)) ∧
      Reject.decode f.encode = .error (.packetType (.unexpected fulfillType rejectType))) ∧
    (∀ r : Reject, r.contentSize < 2 ^ 64 →
      Reject.decode r.encode = .ok r ∧ decode r.encode = .ok (.reject r) ∧
      Prepare.decode r.encode = .error (.packetType (.unexpected rejectType prepareType)) ∧
      Fulfill.decode r.encode = .error (.packetType (.unexpected rejectType fulfillType))) ∧
    ∀ amount requested condition destination data,
      let stored := (Prepare.build amount requested condition destination data).expiresAt
      (∃ millis, stored = .ofMillis millis) ∧ stored ≤ requested ∧
        ∀ millis, .ofMillis millis ≤ requested → .ofMillis millis ≤ stored := by
  refine ⟨fun amount requested condition destination data => ?_, fun f hsize => ?_,
    fun r hsize => ?_, fun amount requested condition destination data => ?_⟩
  · intro p year hyear hsize
    have htimely : p.Timely := ⟨hyear, requested.truncateToMillis_truncateToMillis⟩
    have hown := Prepare.decode_encode htimely hsize
    rw [Prepare.encode_eq htimely] at hown ⊢
    refine ⟨hown, ?_, Fulfill.decode_of_ne (by decide) _, Reject.decode_of_ne (by decide) _⟩
    rw [decode, if_pos rfl, hown]
    rfl
  · have hown := Fulfill.decode_encode hsize
    rw [Fulfill.encode_eq] at hown ⊢
    refine ⟨hown, ?_, Prepare.decode_of_ne (by decide) _, Reject.decode_of_ne (by decide) _⟩
    rw [decode, if_neg (by decide), if_pos rfl, hown]
    rfl
  · have hown := Reject.decode_encode hsize
    rw [Reject.encode_eq] at hown ⊢
    refine ⟨hown, ?_, Prepare.decode_of_ne (by decide) _, Fulfill.decode_of_ne (by decide) _⟩
    rw [decode, if_neg (by decide), if_neg (by decide), if_pos rfl, hown]
    rfl
  · exact ⟨⟨_, rfl⟩, requested.truncateToMillis_spec⟩

/-- A request with more octets of data than a short length tells, that expires a nanosecond before
1970. -/
def early : Prepare :=
  .build 107 ⟨-1⟩ (.replicate 32 0) ⟨"example.alice", by decide +kernel⟩ (List.replicate 300 7)

def paid : Fulfill := ⟨.replicate 32 1, []⟩

/-- A refusal by nobody, whose code is no text. -/
def anonymous : Reject := ⟨⟨.replicate 3 0xFF⟩, none, [], List.replicate 128 0⟩

theorem round_trip_early :
    (Timestamp.Fields.ofInstant early.expiresAt).date.year = 1969 ∧
      early.contentSize = 374 ∧ paid.contentSize = 33 ∧ anonymous.contentSize = 135 ∧
      Prepare.decode early.encode = .ok early ∧ Fulfill.decode paid.encode = .ok paid ∧
      Reject.decode anonymous.encode = .ok anonymous := by
  have hyear : (Timestamp.Fields.ofInstant early.expiresAt).date.year = 1969 := by decide +kernel
  have hearly : early.contentSize = 374 := by decide +kernel
  have hpaid : paid.contentSize = 33 := by decide +kernel
  have hanonymous : anonymous.contentSize = 135 := by decide +kernel
  obtain ⟨hprepare, hfulfill, hreject, -⟩ := round_trip
  refine ⟨hyear, hearly, hpaid, hanonymous, (hprepare 107 ⟨-1⟩ _ _ _ ?_ ?_).1,
    (hfulfill paid ?_).1, (hreject anonymous ?_).1⟩
  · exact hyear ▸ by decide
  · exact hearly ▸ by decide
  · exact hpaid ▸ by decide
  · exact hanonymous ▸ by decide

end Packet

theorem AmountLimit.decode_encode (d : AmountLimit) : decode d.encode = .ok d := by
  have hmaximum := readUInt64_writeUInt64 [] d.maximum
  rw [List.append_nil] at hmaximum
  simp only [decode, encode, readUInt64_writeUInt64, hmaximum, bind, Except.bind]
  rfl

end IlpConnector
