import IlpConnector.Proofs.Reencoding

/-!
# Where a packet ends

A packet is its type, the length of its content, and the content; the content is fields of fixed
size and then strings, each behind its length.  The readers take just the octets that are put
together so, with any forms of the lengths (`Packet.Assembled`).  The lengths leave no choice where
a packet ends: nothing that is cut off is a packet, and of what is appended the readers tell how
much it is (`Packet.framed_all`).
-/

namespace IlpConnector

/-! ## Results of steps -/

section Steps

variable {ε ε' α β : Type} {x : Except ε α} {a : α}

theorem bind_eq_ok_iff {f : α → Except ε β} {r : β} :
    x >>= f = .ok r ↔ ∃ a, x = .ok a ∧ f a = .ok r := by
  refine ⟨exists_of_bind_eq_ok, ?_⟩
  rintro ⟨a, rfl, h⟩
  exact h

theorem mapError_eq_ok_iff {f : ε → ε'} : x.mapError f = .ok a ↔ x = .ok a := by
  refine ⟨of_mapError_eq_ok, ?_⟩
  rintro rfl
  rfl

end Steps

theorem Oer.asPacket_eq_ok_iff {α : Type} {r : Reader ReadError α} {b : Bytes} {x : α × Bytes} :
    asPacket r b = .ok x ↔ r b = .ok x := mapError_eq_ok_iff

theorem Address.ofBytes_eq_ok_iff {b : Bytes} {a : Address} : ofBytes b = .ok a ↔ b = a.bytes := by
  refine ⟨fun h => (bytes_of_ofBytes h).symm, ?_⟩
  rintro rfl
  exact a.ofBytes_bytes

/-! ## How packets are put together -/

/-- Some strings, one after the other, each behind a form of its length. -/
inductive Oer.Strings : List Bytes → List Bytes → Bytes → Prop where
  | nil : Strings [] [] []
  | cons {s l b : Bytes} {ss ls : List Bytes} (hl : LengthForm s.length l) (hs : Strings ss ls b) :
    Strings (s :: ss) (l :: ls) (l ++ (s ++ b))

open Oer

namespace Packet

variable {type : UInt8} {b content rest s : Bytes}

/-- A packet of a type, whose content is some octets and then some strings, with these forms of its
lengths: that of the content, and those of the strings. -/
inductive Assembled (type : UInt8) (fixed : Bytes) (strings : List Bytes) :
    List Bytes → Bytes → Prop where
  | intro {outer content : Bytes} {inner : List Bytes} (hs : Strings strings inner content)
    (ho : LengthForm (fixed ++ content).length outer) :
    Assembled type fixed strings (outer :: inner) (type :: (outer ++ (fixed ++ content)))

theorem ensureEnd_eq_ok_iff {u : Unit} : ensureEnd rest = .ok u ↔ rest = [] := by
  cases rest with
  | nil => exact iff_of_true rfl rfl
  | cons o rest => exact iff_of_false (fun h => by cases h) (List.cons_ne_nil o rest)

theorem ensureEnd_of_ne_nil (h : rest ≠ []) :
    ensureEnd rest = .error (.trailing rest.length) := by
  cases rest with
  | nil => exact absurd rfl h
  | cons o rest => rfl

theorem openEnvelope_append {outer : Bytes} (ho : LengthForm content.length outer)
    (rest : Bytes) : openEnvelope type (type :: (outer ++ (content ++ rest)))
      = (ensureEnd rest).map fun _ => content := by
  rw [openEnvelope, if_pos rfl, asPacket_of_ok (readString_eq_ok_iff.mpr ⟨outer, ho, rfl⟩)]
  cases rest <;> rfl

theorem openEnvelope_eq_ok_iff : openEnvelope type b = .ok content ↔
    ∃ outer, LengthForm content.length outer ∧ b = type :: (outer ++ content) := by
  refine ⟨fun h => ?_, ?_⟩
  · cases b with
    | nil => cases h
    | cons found b =>
      rw [openEnvelope] at h
      split_ifs at h with hfound
      obtain ⟨⟨s, rest⟩, hread, h⟩ := exists_of_bind_eq_ok h
      obtain ⟨u, hend, h⟩ := exists_of_bind_eq_ok h
      obtain rfl := Except.ok.inj h
      obtain rfl := ensureEnd_eq_ok_iff.mp hend
      obtain ⟨outer, ho, rfl⟩ := readString_eq_ok_iff.mp (asPacket_eq_ok_iff.mp hread)
      exact ⟨outer, ho, by rw [hfound, List.append_nil]⟩
  · rintro ⟨outer, ho, rfl⟩
    have hopen : openEnvelope type (type :: (outer ++ (content ++ []))) = .ok content :=
      openEnvelope_append ho []
    rwa [List.append_nil] at hopen

/-- Of octets after the announced length it is told how many they are. -/
theorem openEnvelope_trailing (h : openEnvelope type b = .ok content) (hs : s ≠ []) :
    openEnvelope type (b ++ s) = .error (.trailing s.length) := by
  obtain ⟨outer, ho, rfl⟩ := openEnvelope_eq_ok_iff.mp h
  rw [List.cons_append, List.append_assoc, openEnvelope_append ho, ensureEnd_of_ne_nil hs]
  rfl

/-- A reader takes just the octets of some forms, none of which is the beginning of another one. -/
structure Framed {α : Type} (decode : Bytes → Except PacketError α) (Form : α → Bytes → Prop) :
    Prop where
  takes : ∀ b a, decode b = .ok a ↔ Form a b
  cut : ∀ b a, decode b = .ok a → ∀ c, c <+: b → c ≠ b → ∃ e, decode c = .error e
  appended : ∀ b a, decode b = .ok a → ∀ s, s ≠ [] →
    decode (b ++ s) = .error (.trailing s.length)

/-- What is refused for its end has no beginning that is taken. -/
theorem Framed.of_appended {α : Type} {decode : Bytes → Except PacketError α}
    {Form : α → Bytes → Prop} (takes : ∀ b a, decode b = .ok a ↔ Form a b)
    (appended : ∀ b a, decode b = .ok a → ∀ s, s ≠ [] →
      decode (b ++ s) = .error (.trailing s.length)) : Framed decode Form where
  takes := takes
  appended := appended
  cut b a h c hcb hne := by
    obtain ⟨s, rfl⟩ := hcb
    have hs : s ≠ [] := fun hs => hne (by rw [hs, List.append_nil])
    cases hc : decode c with
    | error e => exact ⟨e, rfl⟩
    | ok a' =>
      rw [appended c a' hc s hs] at h
      cases h

/-- A reader that goes on with the content of an envelope. -/
theorem Framed.of_envelope {α : Type} {decode k : Bytes → Except PacketError α}
    {Form : α → Bytes → Prop} (hdecode : ∀ b, decode b = openEnvelope type b >>= k)
    (takes : ∀ b a, decode b = .ok a ↔ Form a b) : Framed decode Form := by
  refine .of_appended takes fun b a h s hs => ?_
  obtain ⟨content, hopen, -⟩ := exists_of_bind_eq_ok (hdecode b ▸ h)
  rw [hdecode, openEnvelope_trailing hopen hs]
  rfl

end Packet

open Packet

/-! ## The three types -/

namespace Prepare

variable {b : Bytes} {p : Prepare}

/-- The octets that stand for a request. -/
def Form (p : Prepare) (b : Bytes) : Prop :=
  ∃ stamp lengths, (Utf8.encode stamp).length = timestampSize ∧
    Timestamp.read stamp = .ok p.expiresAt ∧
    Assembled prepareType
      (writeUInt64 p.amount ++ (Utf8.encode stamp ++ p.condition.toList))
      [p.destination.bytes, p.data] lengths b

theorem readExpiry_eq_ok_iff {t : Instant} {rest : Bytes} : readExpiry b = .ok (t, rest) ↔
    ∃ stamp, (Utf8.encode stamp).length = timestampSize ∧ Timestamp.read stamp = .ok t ∧
      b = Utf8.encode stamp ++ rest := by
  simp only [readExpiry, bind_eq_ok_iff, asPacket_eq_ok_iff, readBytes_eq_ok_iff,
    mapError_eq_ok_iff, Prod.exists]
  constructor
  · rintro ⟨octets, b₁, ⟨hlength, rfl⟩, stamp, hstamp, t', ht, h⟩
    obtain ⟨rfl, rfl⟩ := Prod.mk.inj (Except.ok.inj h)
    obtain rfl := Utf8.encode_of_decode hstamp
    exact ⟨stamp, hlength, ht, rfl⟩
  · rintro ⟨stamp, hlength, ht, rfl⟩
    exact ⟨_, _, ⟨hlength, rfl⟩, stamp, Utf8.decode_encode stamp, t, ht, rfl⟩

theorem decode_eq_ok_iff : decode b = .ok p ↔ p.Form b := by
  simp only [decode, bind_eq_ok_iff, openEnvelope_eq_ok_iff, asPacket_eq_ok_iff,
    readUInt64_eq_ok_iff, readExpiry_eq_ok_iff, readField_eq_ok_iff, readString_eq_ok_iff,
    mapError_eq_ok_iff, Address.ofBytes_eq_ok_iff, ensureEnd_eq_ok_iff, Prod.exists]
  constructor
  · rintro ⟨content, ⟨outer, ho, rfl⟩, amount, b₁, rfl, t, b₂, ⟨stamp, hlength, ht, rfl⟩, condition,
      b₃, rfl, octets, b₄, ⟨l, hl, rfl⟩, destination, rfl, data, b₅, ⟨l', hl', rfl⟩, -, rfl, h⟩
    obtain rfl := Except.ok.inj h
    refine ⟨stamp, outer :: [l, l'], hlength, ht, ?_⟩
    have h : Assembled prepareType (writeUInt64 amount ++ (Utf8.encode stamp ++ condition.toList))
        [destination.bytes, data] (outer :: [l, l']) _ :=
      .intro (.cons hl (.cons hl' .nil)) (by simpa only [List.append_assoc] using ho)
    simpa only [List.append_assoc] using h
  · rintro ⟨stamp, _, hlength, ht, ⟨_ | ⟨hl, _ | ⟨hl', _ | _⟩⟩, ho⟩⟩
    simp only [List.append_assoc] at ho ⊢
    exact ⟨_, ⟨_, ho, rfl⟩, _, _, rfl, _, _, ⟨stamp, hlength, ht, rfl⟩, _, _, rfl, _, _,
      ⟨_, hl, rfl⟩, _, rfl, _, _, ⟨_, hl', rfl⟩, (), rfl, rfl⟩

theorem framed : Framed decode Form :=
  .of_envelope (fun _ => rfl) fun _ _ => decode_eq_ok_iff

end Prepare

namespace Fulfill

variable {b : Bytes} {f : Fulfill}

/-- The octets that stand for a fulfillment, with these forms of its lengths. -/
def FormWith (f : Fulfill) (lengths : List Bytes) (b : Bytes) : Prop :=
  Assembled fulfillType f.fulfillment.toList [f.data] lengths b

def Form (f : Fulfill) (b : Bytes) : Prop := ∃ lengths, f.FormWith lengths b

theorem decode_eq_ok_iff : decode b = .ok f ↔ f.Form b := by
  simp only [decode, bind_eq_ok_iff, openEnvelope_eq_ok_iff, asPacket_eq_ok_iff,
    readField_eq_ok_iff, readString_eq_ok_iff, ensureEnd_eq_ok_iff, Prod.exists]
  constructor
  · rintro ⟨content, ⟨outer, ho, rfl⟩, fulfillment, b₁, rfl, data, b₂, ⟨l, hl, rfl⟩, -, rfl, h⟩
    obtain rfl := Except.ok.inj h
    exact ⟨_, .intro (.cons hl .nil) ho⟩
  · rintro ⟨_, ⟨_ | ⟨hl, _ | _⟩, ho⟩⟩
    exact ⟨_, ⟨_, ho, rfl⟩, _, _, rfl, _, _, ⟨_, hl, rfl⟩, (), rfl, rfl⟩

theorem framed : Framed decode Form :=
  .of_envelope (fun _ => rfl) fun _ _ => decode_eq_ok_iff

end Fulfill

namespace Reject

variable {b : Bytes} {r : Reject}

/-- The octets that stand for a refusal, with these forms of its lengths. -/
def FormWith (r : Reject) (lengths : List Bytes) (b : Bytes) : Prop :=
  Assembled rejectType r.code.octets.toList [r.triggeredByBytes, r.message, r.data] lengths b

def Form (r : Reject) (b : Bytes) : Prop := ∃ lengths, r.FormWith lengths b

/-- Who refused is read from the octets of an address, or from none. -/
theorem triggeredByOf_eq_ok_iff {a : Option Address} :
    triggeredByOf b = .ok a ↔ b = (match a with | some a => a.bytes | none => []) := by
  rw [triggeredByOf]
  split_ifs with hb
  · obtain rfl := List.isEmpty_iff.mp hb
    cases a with
    | none => exact iff_of_true rfl rfl
    | some a => exact iff_of_false nofun fun h => a.bytes_ne_nil h.symm
  · cases a with
    | none =>
      refine iff_of_false (fun h => ?_) fun h => hb (by rw [h]; rfl)
      obtain ⟨a, -, h⟩ := exists_of_map_eq_ok h
      cases h
    | some a =>
      rw [← Address.ofBytes_eq_ok_iff, ← mapError_eq_ok_iff (f := PacketError.address)]
      refine ⟨fun h => ?_, fun h => by rw [h]; rfl⟩
      obtain ⟨a', ha', h⟩ := exists_of_map_eq_ok h
      rw [ha', Option.some.inj h]

theorem decode_eq_ok_iff : decode b = .ok r ↔ r.Form b := by
  simp only [decode, bind_eq_ok_iff, openEnvelope_eq_ok_iff, asPacket_eq_ok_iff,
    readField_eq_ok_iff, readString_eq_ok_iff, triggeredByOf_eq_ok_iff, ensureEnd_eq_ok_iff,
    Prod.exists]
  constructor
  · rintro ⟨content, ⟨outer, ho, rfl⟩, code, b₁, rfl, octets, b₂, ⟨l, hl, rfl⟩, triggeredBy, rfl,
      message, b₃, ⟨l', hl', rfl⟩, data, b₄, ⟨l'', hl'', rfl⟩, -, rfl, h⟩
    obtain rfl := Except.ok.inj h
    exact ⟨_, .intro (.cons hl (.cons hl' (.cons hl'' .nil))) ho⟩
  · rintro ⟨_, ⟨_ | ⟨hl, _ | ⟨hl', _ | ⟨hl'', _ | _⟩⟩⟩, ho⟩⟩
    exact ⟨_, ⟨_, ho, rfl⟩, _, _, rfl, _, _, ⟨_, hl, rfl⟩, r.triggeredBy, rfl, _, _,
      ⟨_, hl', rfl⟩, _, _, ⟨_, hl'', rfl⟩, (), rfl, rfl⟩

theorem framed : Framed decode Form :=
  .of_envelope (fun _ => rfl) fun _ _ => decode_eq_ok_iff

end Reject

/-! ## All types -/

namespace Packet

variable {b : Bytes} {p : Packet}

/-- The octets that stand for a packet. -/
def Form : Packet → Bytes → Prop
  | prepare p, b => p.Form b
  | fulfill f, b => f.Form b
  | reject r, b => r.Form b

theorem Assembled.exists_eq_cons {type : UInt8} {fixed : Bytes} {strings lengths : List Bytes}
    (h : Assembled type fixed strings lengths b) : ∃ rest, b = type :: rest := by
  cases h with
  | intro hs ho => exact ⟨_, rfl⟩

/-- The first octet tells whose reader takes the packet. -/
theorem decode_cons (type : UInt8) (b : Bytes) : decode (type :: b) =
    if type = prepareType then (Prepare.decode (type :: b)).map prepare
    else if type = fulfillType then (Fulfill.decode (type :: b)).map fulfill
    else if type = rejectType then (Reject.decode (type :: b)).map reject
    else .error (.packetType (.unsupported type)) := rfl

/-- The octets of a packet are read by the reader of its type, whatever follows them. -/
theorem Form.decode_append (h : p.Form b) (s : Bytes) : decode (b ++ s) =
    match p with
    | prepare _ => (Prepare.decode (b ++ s)).map prepare
    | fulfill _ => (Fulfill.decode (b ++ s)).map fulfill
    | reject _ => (Reject.decode (b ++ s)).map reject := by
  cases p with
  | prepare p =>
    obtain ⟨-, -, -, -, h⟩ := h
    obtain ⟨rest, rfl⟩ := h.exists_eq_cons
    rw [List.cons_append, decode_cons, if_pos rfl]
  | fulfill f =>
    obtain ⟨-, h⟩ := h
    obtain ⟨rest, rfl⟩ := h.exists_eq_cons
    rw [List.cons_append, decode_cons, if_neg (by decide), if_pos rfl]
  | reject r =>
    obtain ⟨-, h⟩ := h
    obtain ⟨rest, rfl⟩ := h.exists_eq_cons
    rw [List.cons_append, decode_cons, if_neg (by decide), if_neg (by decide), if_pos rfl]

theorem decode_eq_ok_iff : decode b = .ok p ↔ p.Form b := by
  refine ⟨fun h => ?_, fun h => ?_⟩
  · cases b with
    | nil => cases h
    | cons type b =>
      rw [decode_cons] at h
      split_ifs at h
      · obtain ⟨p, hp, rfl⟩ := exists_of_map_eq_ok h
        exact Prepare.decode_eq_ok_iff.mp hp
      · obtain ⟨f, hf, rfl⟩ := exists_of_map_eq_ok h
        exact Fulfill.decode_eq_ok_iff.mp hf
      · obtain ⟨r, hr, rfl⟩ := exists_of_map_eq_ok h
        exact Reject.decode_eq_ok_iff.mp hr
  · have hdecode := h.decode_append []
    rw [List.append_nil] at hdecode
    rw [hdecode]
    cases p with
    | prepare p => rw [Prepare.decode_eq_ok_iff.mpr h]; rfl
    | fulfill f => rw [Fulfill.decode_eq_ok_iff.mpr h]; rfl
    | reject r => rw [Reject.decode_eq_ok_iff.mpr h]; rfl

theorem framed : Framed decode Form := by
  refine .of_appended (fun _ _ => decode_eq_ok_iff) fun b p h s hs => ?_
  have h := decode_eq_ok_iff.mp h
  rw [h.decode_append]
  cases p with
  | prepare p => rw [Prepare.framed.appended b p (Prepare.decode_eq_ok_iff.mpr h) s hs]; rfl
  | fulfill f => rw [Fulfill.framed.appended b f (Fulfill.decode_eq_ok_iff.mpr h) s hs]; rfl
  | reject r => rw [Reject.framed.appended b r (Reject.decode_eq_ok_iff.mpr h) s hs]; rfl

/-- Each of the four readers takes just the octets that are put together from the fields of a packet
and any forms of its lengths.  It refuses whatever is cut off from such octets at their end, and
whatever is longer, for as many octets as it is longer. -/
theorem framed_all :
    Framed Prepare.decode Prepare.Form ∧ Framed Fulfill.decode Fulfill.Form ∧
      Framed Reject.decode Reject.Form ∧ Framed decode Form :=
  ⟨Prepare.framed, Fulfill.framed, Reject.framed, framed⟩

/-- The octets of `paid` with zeros before both lengths. -/
def padded : Bytes :=
  fulfillType :: ([0x82, 0, 36] ++ (paid.fulfillment.toList ++ [0x83, 0, 0, 0]))

theorem framed_all_padded :
    Fulfill.decode padded = .ok paid ∧ padded ≠ paid.encode ∧
      (∃ e, Fulfill.decode padded.dropLast = .error e) ∧
      decode (padded ++ [0, 0]) = .error (.trailing 2) := by
  obtain ⟨-, hfulfill, -, hpacket⟩ := framed_all
  have hread : Fulfill.decode padded = .ok paid := by decide +kernel
  have hany : decode padded = .ok (.fulfill paid) := by decide +kernel
  refine ⟨hread, by decide +kernel, ?_, hpacket.appended _ _ hany [0, 0] (by decide)⟩
  exact hfulfill.cut _ _ hread _ (List.dropLast_prefix _) (by decide +kernel)

end Packet

end IlpConnector
