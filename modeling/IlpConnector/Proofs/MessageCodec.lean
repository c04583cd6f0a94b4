import IlpConnector.Ccp.Codec
import IlpConnector.Proofs.PacketCodec

/-!
# Route messages are read as they were written

Each part of a route message is read from the front of what its writer has put there (`ReadsBack`),
and so is a list of such parts after their number (`ReadsBack.list`).  A message then comes out of
the packet that carries it, if that has not expired, and never as one of the other kind
(`messages_round_trip`).

What is written has to be shorter than the longest string that there can be, of `2 ^ 64` octets.
-/

namespace IlpConnector

open Oer

theorem AddressPrefix.ofBytes_bytes (p : AddressPrefix) : ofBytes p.bytes = .ok p := by
  rw [ofBytes, bytes, Utf8.decode_encode]
  dsimp only
  unfold ofText
  split
  · rfl
  · rename_i e h
    rw [p.valid] at h
    cases h

/-! ## Parts of a message -/

/-- What is written is read back, and what follows it is left. -/
def ReadsBack {α : Type} (read : Reader PacketError α) (write : α → Bytes) : Prop :=
  ∀ (a : α) (rest : Bytes), (write a).length < 2 ^ 64 → read (write a ++ rest) = .ok (a, rest)

theorem readString_of_lt {b : Bytes} (h : (writeString b).length < 2 ^ 64) (rest : Bytes) :
    asPacket readString (writeString b ++ rest) = .ok (b, rest) := by
  have hle := le_stringSize b.length
  rw [length_writeString] at h
  exact asPacket_of_ok (readString_writeString rest (by omega))

theorem readsBack_text : ReadsBack readText fun s => writeString (Utf8.encode s) := by
  intro s rest h
  simp only [readText, readString_of_lt h, bind, Except.bind, Utf8.decode_encode, Except.mapError]
  rfl

theorem readsBack_address : ReadsBack readAddress fun a => writeString a.bytes := by
  intro a rest h
  simp only [readAddress, readString_of_lt h, bind, Except.bind, Address.ofBytes_bytes,
    Except.mapError]
  rfl

theorem readsBack_addressPrefix : ReadsBack readAddressPrefix fun p => writeString p.bytes := by
  intro p rest h
  simp only [readAddressPrefix, readString_of_lt h, bind, Except.bind,
    AddressPrefix.ofBytes_bytes, Except.mapError]
  rfl

theorem readTableId_append (t : TableId) (rest : Bytes) :
    readTableId (t.octets.toList ++ rest) = .ok (t, rest) := by
  rw [readTableId, asPacket_of_ok (readOctets_append rest t.octets)]
  rfl

/-! ## Lists -/

section Lists

variable {α : Type} {read : Reader PacketError α} {write : α → Bytes}

theorem ReadsBack.many (h : ReadsBack read write) (as : List α) (rest : Bytes)
    (hsize : (as.flatMap write).length < 2 ^ 64) :
    readMany read as.length (as.flatMap write ++ rest) = .ok (as, rest) := by
  induction as with
  | nil => rfl
  | cons a as ih =>
    rw [List.flatMap_cons, List.length_append] at hsize
    rw [List.flatMap_cons, List.append_assoc, List.length_cons, readMany, h a _ (by omega)]
    dsimp only
    rw [ih (by omega)]

/-- Items that are written with one octet at least are no more than the octets. -/
theorem length_le_flatMap (hwrite : ∀ a, write a ≠ []) (as : List α) :
    as.length ≤ (as.flatMap write).length := by
  induction as with
  | nil => exact Nat.le_refl _
  | cons a as ih =>
    have hpos := List.length_pos_of_ne_nil (hwrite a)
    rw [List.flatMap_cons, List.length_append, List.length_cons]
    omega

theorem ReadsBack.list (h : ReadsBack read write) (hwrite : ∀ a, write a ≠ []) :
    ReadsBack (readList read) (writeList write) := by
  intro as rest hsize
  have hcount := length_le_flatMap hwrite as
  rw [writeList, List.length_append] at hsize
  have hnat : (UInt64.ofNat as.length).toNat = as.length := by
    rw [UInt64.toNat_ofNat', Nat.mod_eq_of_lt (by omega)]
  have hnumber := fun rest => asPacket_of_ok (readVarUInt_writeVarUInt rest (.ofNat as.length))
  simp only [readList, writeList, List.append_assoc, hnumber, bind, Except.bind, hnat,
    h.many as rest (by omega)]

end Lists

/-! ## Routes -/

/-- The flags are told apart in the octet that holds them. -/
theorem RouteProp.flags_spec (p : RouteProp) :
    (p.flags &&& optionalFlag != 0) = p.isOptional ∧
      (p.flags &&& transitiveFlag != 0) = p.isTransitive ∧
      (p.flags &&& partialFlag != 0) = p.isPartial ∧ (p.flags &&& textFlag != 0) = p.isText := by
  have hbits : ∀ o t q x : Bool,
      let f := (if o then optionalFlag else 0) ||| (if t then transitiveFlag else 0)
        ||| (if q then partialFlag else 0) ||| (if x then textFlag else 0)
      (f &&& optionalFlag != 0) = o ∧ (f &&& transitiveFlag != 0) = t ∧
        (f &&& partialFlag != 0) = q ∧ (f &&& textFlag != 0) = x := by decide
  exact hbits p.isOptional p.isTransitive p.isPartial p.isText

theorem readsBack_routeProp : ReadsBack RouteProp.read RouteProp.write := by
  intro p rest h
  obtain ⟨hoptional, htransitive, hpartial, htext⟩ := p.flags_spec
  have hflags := fun rest => asPacket_of_ok (readUInt8_writeUInt8 rest p.flags)
  have hid := fun rest => asPacket_of_ok (readUInt16_writeUInt16 rest p.id)
  have hvalue : (writeString p.value).length < 2 ^ 64 := by
    rw [RouteProp.write, List.length_append] at h
    omega
  simp only [RouteProp.read, RouteProp.write, List.append_assoc, hflags, hid,
    readString_of_lt hvalue, bind, Except.bind, hoptional, htransitive, hpartial, htext]
  rfl

theorem routeProp_write_ne_nil (p : RouteProp) : p.write ≠ [] := List.cons_ne_nil _ _

theorem readsBack_announcement : ReadsBack Announcement.read Announcement.write := by
  intro a rest h
  have hlength := h
  simp only [Announcement.write, List.length_append] at hlength
  have htarget := fun rest => readsBack_addressPrefix a.target rest (by dsimp only; omega)
  have hpath := fun rest => readsBack_address.list (fun _ => writeString_ne_nil _) a.path rest
    (by omega)
  have hauth := fun rest => asPacket_of_ok (readOctets_append rest a.auth)
  have hprops := fun rest => readsBack_routeProp.list routeProp_write_ne_nil a.props rest (by omega)
  simp only [Announcement.read, Announcement.write, List.append_assoc, htarget, hpath, hauth,
    hprops, bind, Except.bind]
  rfl

theorem announcement_write_ne_nil (a : Announcement) : a.write ≠ [] := by
  have hne := writeString_ne_nil a.target.bytes
  simp only [Announcement.write, ne_eq, List.append_eq_nil_iff, hne, false_and, not_false_iff]

/-! ## Messages -/

theorem readMode_octet (m : RouteMode) (rest : Bytes) :
    RouteControl.readMode (writeUInt8 m.octet ++ rest) = .ok (m, rest) := by
  cases m <;> rfl

theorem readsBack_routeControl : ReadsBack RouteControl.read RouteControl.content := by
  intro c rest h
  have hlength := h
  simp only [RouteControl.content, List.length_append] at hlength
  have hepoch := fun rest => asPacket_of_ok (readUInt32_writeUInt32 rest c.epoch)
  have hfeatures := fun rest => readsBack_text.list (fun _ => writeString_ne_nil _) c.features rest
    (by omega)
  simp only [RouteControl.read, RouteControl.content, List.append_assoc, readMode_octet,
    readTableId_append, hepoch, hfeatures, bind, Except.bind]
  rfl

theorem readsBack_routeUpdate : ReadsBack RouteUpdate.read RouteUpdate.content := by
  intro u rest h
  have hlength := h
  simp only [RouteUpdate.content, List.length_append] at hlength
  have hnumber := fun rest v => asPacket_of_ok (readUInt32_writeUInt32 rest v)
  have hspeaker := fun rest => readsBack_address u.speaker rest (by dsimp only; omega)
  have hannounced := fun rest =>
    readsBack_announcement.list announcement_write_ne_nil u.announced rest (by omega)
  have hwithdrawn := fun rest =>
    readsBack_addressPrefix.list (fun _ => writeString_ne_nil _) u.withdrawn rest (by omega)
  simp only [RouteUpdate.read, RouteUpdate.content, List.append_assoc, readTableId_append, hnumber,
    hspeaker, hannounced, hwithdrawn, bind, Except.bind]
  rfl

/-! ## In packets -/

section Packets

variable {destination : Address} {expiresAt now : Instant} {data : Bytes}

theorem checkMessage_messagePacket :
    checkMessage destination (messagePacket destination expiresAt data) = .ok () := by
  have hto : (messagePacket destination expiresAt data).destination = destination := rfl
  have hunder : (messagePacket destination expiresAt data).condition = peerCondition := rfl
  rw [checkMessage, if_neg (not_not.mpr hto), if_neg (not_not.mpr hunder)]

theorem checkMessage_of_ne {other : Address} (h : other ≠ destination) :
    checkMessage destination (messagePacket other expiresAt data)
      = .error (.otherDestination other) := by
  rw [checkMessage]
  exact if_pos h

theorem checkExpiry_messagePacket (h : ¬ expiresAt.truncateToMillis < now) :
    checkExpiry now (messagePacket destination expiresAt data) = .ok () := if_neg h

theorem decode_messagePacket
    (hyear : 0 ≤ (Timestamp.Fields.ofInstant expiresAt.truncateToMillis).date.year ∧
      (Timestamp.Fields.ofInstant expiresAt.truncateToMillis).date.year ≤ 9999)
    (hsize : (messagePacket destination expiresAt data).contentSize < 2 ^ 64) :
    Prepare.decode (messagePacket destination expiresAt data).encode
      = .ok (messagePacket destination expiresAt data) :=
  Prepare.decode_encode ⟨hyear, expiresAt.truncateToMillis_truncateToMillis⟩ hsize

theorem length_data_lt (hsize : (messagePacket destination expiresAt data).contentSize < 2 ^ 64) :
    data.length < 2 ^ 64 := by
  have hdata := le_stringSize data.length
  have hdef : (messagePacket destination expiresAt data).data = data := rfl
  rw [Prepare.contentSize, hdef] at hsize
  omega

end Packets

namespace RouteControl

theorem ofPrepare_toPrepare {c : RouteControl} {expiresAt now : Instant}
    (hnow : ¬ expiresAt.truncateToMillis < now)
    (hsize : (c.toPrepare expiresAt).contentSize < 2 ^ 64) :
    ofPrepare now (c.toPrepare expiresAt) = .ok c := by
  have hread := readsBack_routeControl c [] (length_data_lt hsize)
  rw [List.append_nil] at hread
  have hdata : (messagePacket controlDestination expiresAt c.content).data = c.content := rfl
  simp only [ofPrepare, ofPrepareAnyTime, toPrepare, checkExpiry_messagePacket hnow,
    checkMessage_messagePacket, hdata, hread, Except.mapError, bind, Except.bind]
  rfl

/-- No update is read as a control message. -/
theorem ofPrepare_routeUpdate (u : RouteUpdate) {expiresAt now : Instant}
    (hnow : ¬ expiresAt.truncateToMillis < now) :
    ofPrepare now (u.toPrepare expiresAt)
      = .error (.defect (.otherDestination updateDestination)) := by
  simp only [ofPrepare, ofPrepareAnyTime, RouteUpdate.toPrepare, checkExpiry_messagePacket hnow,
    checkMessage_of_ne (show updateDestination ≠ controlDestination by decide +kernel),
    Except.mapError, bind, Except.bind]

end RouteControl

namespace RouteUpdate

theorem ofPrepare_toPrepare {u : RouteUpdate} {expiresAt now : Instant}
    (hnow : ¬ expiresAt.truncateToMillis < now)
    (hsize : (u.toPrepare expiresAt).contentSize < 2 ^ 64) :
    ofPrepare now (u.toPrepare expiresAt) = .ok u := by
  have hread := readsBack_routeUpdate u [] (length_data_lt hsize)
  rw [List.append_nil] at hread
  have hdata : (messagePacket updateDestination expiresAt u.content).data = u.content := rfl
  simp only [ofPrepare, ofPrepareAnyTime, toPrepare, checkExpiry_messagePacket hnow,
    checkMessage_messagePacket, hdata, hread, Except.mapError, bind, Except.bind]
  rfl

/-- No control message is read as an update. -/
theorem ofPrepare_routeControl (c : RouteControl) {expiresAt now : Instant}
    (hnow : ¬ expiresAt.truncateToMillis < now) :
    ofPrepare now (c.toPrepare expiresAt)
      = .error (.defect (.otherDestination controlDestination)) := by
  simp only [ofPrepare, ofPrepareAnyTime, RouteControl.toPrepare, checkExpiry_messagePacket hnow,
    checkMessage_of_ne (show controlDestination ≠ updateDestination by decide +kernel),
    Except.mapError, bind, Except.bind]

end RouteUpdate

/-- Whatever its parts are, a route message comes out of the octets of the packet that carries it,
if the whole milliseconds of the expiry asked for are in the years that a timestamp can tell and
have not passed; as a message of the other kind it is refused.  An announced route is read from the
front of any octets that start with it. -/
theorem messages_round_trip :
    (∀ (c : RouteControl) (expiresAt now : Instant),
      let p := c.toPrepare expiresAt
      let year := (Timestamp.Fields.ofInstant expiresAt.truncateToMillis).date.year
      0 ≤ year ∧ year ≤ 9999 → ¬ expiresAt.truncateToMillis < now → p.contentSize < 2 ^ 64 →
        Prepare.decode p.encode = .ok p ∧ RouteControl.ofPrepare now p = .ok c ∧
        RouteUpdate.ofPrepare now p = .error (.defect (.otherDestination controlDestination))) ∧
    (∀ (u : RouteUpdate) (expiresAt now : Instant),
      let p := u.toPrepare expiresAt
      let year := (Timestamp.Fields.ofInstant expiresAt.truncateToMillis).date.year
      0 ≤ year ∧ year ≤ 9999 → ¬ expiresAt.truncateToMillis < now → p.contentSize < 2 ^ 64 →
        Prepare.decode p.encode = .ok p ∧ RouteUpdate.ofPrepare now p = .ok u ∧
        RouteControl.ofPrepare now p = .error (.defect (.otherDestination updateDestination))) ∧
    ∀ (a : Announcement) (rest : Bytes), a.write.length < 2 ^ 64 →
      Announcement.read (a.write ++ rest) = .ok (a, rest) := by
  refine ⟨fun c expiresAt now => ?_, fun u expiresAt now => ?_, readsBack_announcement⟩
  · intro p year hyear hnow hsize
    exact ⟨decode_messagePacket hyear hsize, RouteControl.ofPrepare_toPrepare hnow hsize,
      RouteUpdate.ofPrepare_routeControl c hnow⟩
  · intro p year hyear hnow hsize
    exact ⟨decode_messagePacket hyear hsize, RouteUpdate.ofPrepare_toPrepare hnow hsize,
      RouteControl.ofPrepare_routeUpdate u hnow⟩

/-- An offer with a path, and with a property of more octets than a short length tells. -/
def Announcement.marked : Announcement where
  target := ⟨"example.far", by decide +kernel⟩
  path := [⟨"example.near", by decide +kernel⟩, ⟨"example.far.away", by decide +kernel⟩]
  auth := Octets.replicate 32 3
  props := [⟨true, false, true, 258, false, List.replicate 200 9⟩,
    ⟨false, true, false, 7, true, []⟩]

def RouteControl.restart : RouteControl :=
  ⟨.sync, ⟨Octets.replicate 16 1⟩, 4294967295, ["", "détour", "x"]⟩

def RouteUpdate.marked : RouteUpdate where
  tableId := ⟨Octets.replicate 16 2⟩
  currentEpoch := 9
  fromEpoch := 3
  toEpoch := 5
  holdDown := 45000
  speaker := ⟨"example.near", by decide +kernel⟩
  announced := [.marked, .marked]
  withdrawn := [⟨"g", by decide +kernel⟩]

theorem messages_round_trip_marked :
    (Timestamp.Fields.ofInstant (Instant.truncateToMillis ⟨1999999⟩)).date.year = 1970 ∧
      (RouteControl.restart.toPrepare ⟨1999999⟩).contentSize = 111 ∧
      (RouteUpdate.marked.toPrepare ⟨1999999⟩).contentSize = 703 ∧
      RouteControl.ofPrepare ⟨1000000⟩ (RouteControl.restart.toPrepare ⟨1999999⟩)
        = .ok .restart ∧
      RouteUpdate.ofPrepare ⟨1000000⟩ (RouteUpdate.marked.toPrepare ⟨1999999⟩) = .ok .marked ∧
      Announcement.read (Announcement.marked.write ++ [1, 2]) = .ok (.marked, [1, 2]) := by
  have hyear : (Timestamp.Fields.ofInstant (Instant.truncateToMillis ⟨1999999⟩)).date.year = 1970 :=
    by decide +kernel
  have hnow : ¬ Instant.truncateToMillis ⟨1999999⟩ < ⟨1000000⟩ := by decide +kernel
  have hcontrol : (RouteControl.restart.toPrepare ⟨1999999⟩).contentSize = 111 := by decide +kernel
  have hupdate : (RouteUpdate.marked.toPrepare ⟨1999999⟩).contentSize = 703 := by decide +kernel
  have hroute : Announcement.marked.write.length = 287 := by decide +kernel
  obtain ⟨hcontrols, hupdates, hroutes⟩ := messages_round_trip
  refine ⟨hyear, hcontrol, hupdate, (hcontrols _ ⟨1999999⟩ ⟨1000000⟩ ?_ hnow ?_).2.1,
    (hupdates _ ⟨1999999⟩ ⟨1000000⟩ ?_ hnow ?_).2.1, hroutes _ [1, 2] ?_⟩
  · exact hyear ▸ by decide
  · exact hcontrol ▸ by decide
  · exact hyear ▸ by decide
  · exact hupdate ▸ by decide
  · exact hroute ▸ by decide

end IlpConnector
