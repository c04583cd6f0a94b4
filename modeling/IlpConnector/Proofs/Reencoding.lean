import IlpConnector.Proofs.PacketCodec

/-!
# Requests that were read are written again

The reader of a request takes more than its writer makes: longer forms of the lengths, and an expiry
with blanks, with fewer digits, or with a sign before its year.  What it reads is still a whole
millisecond and fits the lengths that can be told (`Prepare.fits_of_decode`), so that the request is
read again from what its writer makes of it, if the year of its expiry is one of the years 0 to
9999.  In any other year the timestamp is longer than the seventeen octets that the writer announces
for it, and what it writes is refused for the octets at its end (`Prepare.decode_encode_iff`).
Seventeen octets can tell such an expiry: a sign leaves room for a year before the year 0, and the
second 60 of the last minute of the year 9999 is in the next year.
-/

namespace IlpConnector

open Oer Packet

/-- Whatever form it has, what is read is a whole millisecond. -/
theorem Timestamp.truncateToMillis_of_read {s : String} {t : Instant} (h : read s = .ok t) :
    t.truncateToMillis = t := by
  obtain ⟨⟨y, cs⟩, -, h⟩ := exists_of_bind_eq_ok h
  obtain ⟨⟨mo, cs⟩, -, h⟩ := exists_of_bind_eq_ok h
  obtain ⟨⟨d, cs⟩, -, h⟩ := exists_of_bind_eq_ok h
  obtain ⟨⟨hour, cs⟩, -, h⟩ := exists_of_bind_eq_ok h
  obtain ⟨⟨mi, cs⟩, -, h⟩ := exists_of_bind_eq_ok h
  obtain ⟨⟨sec, cs⟩, -, h⟩ := exists_of_bind_eq_ok h
  obtain ⟨⟨ms, cs⟩, -, h⟩ := exists_of_bind_eq_ok h
  dsimp only at h
  split_ifs at h
  · rw [← Except.ok.inj h]
    simp only [Fields.toInstant, Instant.ofSeconds, Instant.truncateToMillis, Instant.ofMillis,
      Instant.millis, Instant.nanosPerMilli, Instant.nanosPerSecond, Instant.mk.injEq]
    omega
  · cases h
  · cases h

/-- An address has the octets that it was read from. -/
theorem Address.bytes_of_ofBytes {b : Bytes} {a : Address} (h : ofBytes b = .ok a) :
    a.bytes = b := by
  unfold ofBytes at h
  split at h
  · rename_i s hs
    unfold ofText at h
    split at h
    · rw [← Except.ok.inj h]
      exact Utf8.encode_of_decode hs
    · cases h
  · cases h

namespace Packet

variable {type : UInt8} {content b : Bytes} {size : Nat}

/-- What is opened has a length that can be told. -/
theorem length_of_openEnvelope (h : openEnvelope type b = .ok content) :
    content.length < 2 ^ 64 := by
  cases b with
  | nil => cases h
  | cons found b =>
    dsimp only [openEnvelope] at h
    split_ifs at h
    obtain ⟨⟨s, rest⟩, hread, h⟩ := exists_of_bind_eq_ok h
    obtain ⟨-, -, h⟩ := exists_of_bind_eq_ok h
    rw [← Except.ok.inj h]
    exact (stringSize_le_of_readString (of_mapError_eq_ok hread)).1

/-- Octets beyond the announced length are left, and refused. -/
theorem openEnvelope_of_lt (hsize : size < 2 ^ 64) (h : size < content.length) :
    openEnvelope type (envelope type size ++ content)
      = .error (.trailing (content.length - size)) := by
  have hread : readString (writeLength size ++ content)
      = .ok (content.take size, content.drop size) := by
    rw [readString, readLength_writeLength content hsize]
    exact if_neg (Nat.not_lt.mpr h.le)
  have hrest : (content.drop size).isEmpty = false := by
    rw [List.isEmpty_eq_false_iff_exists_mem]
    exact List.exists_mem_of_length_pos (by rw [List.length_drop]; omega)
  rw [envelope, List.cons_append, openEnvelope, if_pos rfl, asPacket_of_ok hread]
  simp only [bind, Except.bind, ensureEnd, hrest, List.length_drop]
  rfl

end Packet

namespace Prepare

variable {p : Prepare} {b : Bytes}

theorem whole_of_readExpiry {t : Instant} {rest : Bytes} (h : readExpiry b = .ok (t, rest)) :
    t.truncateToMillis = t ∧ b.length = timestampSize + rest.length := by
  obtain ⟨⟨stamp, b'⟩, hstamp, h⟩ := exists_of_bind_eq_ok h
  obtain ⟨s, -, h⟩ := exists_of_bind_eq_ok h
  obtain ⟨t', ht, h⟩ := exists_of_bind_eq_ok h
  obtain ⟨rfl, rfl⟩ := Prod.mk.inj (Except.ok.inj h)
  obtain ⟨hlength, rfl⟩ := readBytes_eq_ok_iff.mp (of_mapError_eq_ok hstamp)
  rw [List.length_append, hlength]
  exact ⟨Timestamp.truncateToMillis_of_read (of_mapError_eq_ok ht), rfl⟩

/-- A request that is read expires at a whole millisecond, and its parts take no more room in their
shortest forms than in those they were read from. -/
theorem fits_of_decode (h : decode b = .ok p) :
    p.expiresAt.truncateToMillis = p.expiresAt ∧ p.contentSize < 2 ^ 64 := by
  obtain ⟨content, hopen, h⟩ := exists_of_bind_eq_ok h
  obtain ⟨⟨amount, b₁⟩, hamount, h⟩ := exists_of_bind_eq_ok h
  obtain ⟨⟨expiresAt, b₂⟩, hexpiry, h⟩ := exists_of_bind_eq_ok h
  obtain ⟨⟨condition, b₃⟩, hcondition, h⟩ := exists_of_bind_eq_ok h
  obtain ⟨⟨text, b₄⟩, hto, h⟩ := exists_of_bind_eq_ok h
  obtain ⟨destination, haddress, h⟩ := exists_of_bind_eq_ok h
  obtain ⟨⟨data, b₅⟩, hdata, h⟩ := exists_of_bind_eq_ok h
  obtain ⟨-, -, h⟩ := exists_of_bind_eq_ok h
  obtain ⟨hwhole, h₂⟩ := whole_of_readExpiry hexpiry
  rw [← Except.ok.inj h]
  refine ⟨hwhole, ?_⟩
  have hcontent := length_of_openEnvelope hopen
  have h₁ := congrArg List.length (readUInt64_eq_ok_iff.mp (of_mapError_eq_ok hamount))
  have h₃ := congrArg List.length (readField_eq_ok_iff.mp (of_mapError_eq_ok hcondition))
  rw [List.length_append, writeUInt64, Bytes.length_ofNatBE] at h₁
  rw [List.length_append, condition.length_eq] at h₃
  have h₄ := (stringSize_le_of_readString (of_mapError_eq_ok hto)).2
  have h₅ := (stringSize_le_of_readString (of_mapError_eq_ok hdata)).2
  rw [← Address.bytes_of_ofBytes (of_mapError_eq_ok haddress)] at h₄
  unfold contentSize
  dsimp only
  omega

/-- The octets by which the expiry is longer than announced. -/
def surplus (p : Prepare) : Nat :=
  (Utf8.encode (Timestamp.write p.expiresAt)).length - timestampSize

theorem decode_encode_of_surplus (hsize : p.contentSize < 2 ^ 64) (h : 0 < p.surplus) :
    decode p.encode = .error (.trailing p.surplus) := by
  have hlength := p.length_contentAs (Timestamp.write p.expiresAt)
  have hsurplus : p.content.length - p.contentSize = p.surplus := by
    rw [content_eq]
    unfold surplus at h ⊢
    omega
  rw [decode, encode, openEnvelope_of_lt hsize (by omega), hsurplus]
  rfl

/-- A request that was read is read again from what is written for it if and only if the year of its
expiry has four digits; otherwise what is written is refused. -/
theorem decode_encode_iff (h : decode b = .ok p) :
    let year := (Timestamp.Fields.ofInstant p.expiresAt).date.year
    (decode p.encode = .ok p ↔ 0 ≤ year ∧ year ≤ 9999) ∧
      (¬ (0 ≤ year ∧ year ≤ 9999) →
        0 < p.surplus ∧ decode p.encode = .error (.trailing p.surplus)) := by
  intro year
  obtain ⟨hwhole, hsize⟩ := fits_of_decode h
  obtain ⟨hle, heq⟩ := Timestamp.length_encode_write p.expiresAt
  have hrefused (hyear : ¬ (0 ≤ year ∧ year ≤ 9999)) :
      0 < p.surplus ∧ decode p.encode = .error (.trailing p.surplus) := by
    have hpos : 0 < p.surplus := by
      have hne := mt heq.mp hyear
      unfold surplus timestampSize
      omega
    exact ⟨hpos, decode_encode_of_surplus hsize hpos⟩
  refine ⟨⟨fun hread => ?_, fun hyear => decode_encode ⟨hyear, hwhole⟩ hsize⟩, hrefused⟩
  by_contra hyear
  rw [(hrefused hyear).2] at hread
  cases hread

/-- A request for nothing. -/
def expiring (t : Instant) : Prepare :=
  ⟨0, t, .replicate 32 0, Packet.early.destination, []⟩

/-- The first instant of the year 10000, told as the second 60 of the last minute before it. -/
theorem decode_encode_second_sixty :
    let p := expiring (.ofSeconds 253402300800 0)
    decode (prepareType :: writeString (p.contentAs "99991231235960000")) = .ok p ∧
      decode p.encode = .error (.trailing 2) := by
  intro p
  have hsize : p.contentSize = 72 := by decide +kernel
  have hsurplus : p.surplus = 2 := by decide +kernel
  refine ⟨decode_contentAs (by decide +kernel) (by decide +kernel) (hsize ▸ by decide), ?_⟩
  rw [← hsurplus]
  exact decode_encode_of_surplus (hsize ▸ by decide) (hsurplus ▸ by decide)

/-- The year 99 with a sign and with blanks before the fields: what is written has neither, and is
read as the same request. -/
theorem decode_encode_iff_signed :
    let p := expiring (.ofSeconds (-59042991540) 0)
    let b := prepareType :: writeString (p.contentAs "+99 1 1 1 1 00000")
    decode b = .ok p ∧ p.encode ≠ b ∧ decode p.encode = .ok p := by
  intro p b
  have hsize : p.contentSize = 72 := by decide +kernel
  have hyear : (Timestamp.Fields.ofInstant p.expiresAt).date.year = 99 := by decide +kernel
  have hread : decode b = .ok p :=
    decode_contentAs (by decide +kernel) (by decide +kernel) (hsize ▸ by decide)
  exact ⟨hread, by decide +kernel, (decode_encode_iff hread).1.mpr (hyear ▸ by decide)⟩

end Prepare

end IlpConnector
