import IlpConnector.Proofs.Framing
import Mathlib.Order.Monotone.Basic

/-!
# The shortest octets of a packet

Octets that are read as the same fulfillment or the same refusal are put together from the same
fields, and differ in the forms of the lengths only.  What is written has all lengths in their
shortest forms.  A longer form of a string's length makes the content longer, and with it perhaps the
form of the content's own length, but never shorter: so what is written is no longer than any octets
that are read as the same packet, and the only ones of its size (`Packet.written_shortest`).
-/

namespace IlpConnector

namespace Oer

variable {m n : ℕ} {l b b' : Bytes} {ss ls : List Bytes}

/-! ## Lengths -/

/-- The length that these octets stand for has no shorter form. -/
def Shortest (l : Bytes) : Prop :=
  ∀ n l', LengthForm n l → LengthForm n l' → l.length ≤ l'.length

theorem LengthForm.unique (h : LengthForm m l) (h' : LengthForm n l) : m = n := by
  have hread := h.readLength_append []
  rw [h'.readLength_append []] at hread
  exact (Prod.mk.inj (Except.ok.inj hread)).1.symm

theorem LengthForm.shortest_iff (h : LengthForm n l) : Shortest l ↔ l = writeLength n := by
  obtain ⟨hn, hle, heq⟩ := h.writeLength_le
  refine ⟨fun hl => heq (Nat.le_antisymm hle (hl n _ h (lengthForm_writeLength hn))), ?_⟩
  rintro rfl m l' hm hl'
  obtain rfl := hm.unique h
  exact hl'.writeLength_le.2.1

theorem numberSize_le (h : m ≤ n) : numberSize m ≤ numberSize n :=
  (numberSize_le_iff (numberSize_pos n) m).mpr (Nat.lt_of_le_of_lt h (lt_pow_numberSize n))

theorem stringSize_strictMono : StrictMono stringSize := by
  intro m n h
  have hnumber := numberSize_le h.le
  unfold stringSize
  split_ifs <;> omega

/-! ## Strings one after the other -/

/-- The forms of the lengths decide all octets. -/
theorem Strings.unique (h : Strings ss ls b) (h' : Strings ss ls b') : b = b' := by
  induction h generalizing b' with
  | nil => cases h'; rfl
  | cons hl hs ih =>
    cases h' with
    | cons hl' hs' => rw [ih hs']

theorem Strings.exists_written (h : Strings ss ls b) :
    ∃ ls', Strings ss ls' (ss.flatMap writeString) := by
  induction h with
  | nil => exact ⟨[], .nil⟩
  | @cons s l b ss ls hl hs ih =>
    obtain ⟨ls', hls'⟩ := ih
    have hwritten := Strings.cons (lengthForm_writeLength hl.writeLength_le.1) hls'
    rw [← List.append_assoc] at hwritten
    exact ⟨_, hwritten⟩

/-- Strings take no fewer octets than with the shortest forms of their lengths, and as many only if
they have these. -/
theorem Strings.written_le (h : Strings ss ls b) :
    (ss.flatMap writeString).length ≤ b.length ∧
      ((ss.flatMap writeString).length = b.length → ∀ l ∈ ls, Shortest l) ∧
      ((∀ l ∈ ls, Shortest l) → b = ss.flatMap writeString) := by
  induction h with
  | nil => exact ⟨Nat.le_refl _, fun _ => by simp, fun _ => rfl⟩
  | @cons s l b ss ls hl hs ih =>
    obtain ⟨hle, heq, hshortest⟩ := ih
    obtain ⟨-, hlength, hform⟩ := hl.writeLength_le
    have hwritten : ((s :: ss).flatMap writeString).length
        = (writeLength s.length).length + (s.length + (ss.flatMap writeString).length) := by
      rw [List.flatMap_cons, List.length_append, length_writeString, stringSize_eq, Nat.add_assoc]
    rw [hwritten, List.length_append, List.length_append]
    refine ⟨by omega, fun h => ?_, fun h => ?_⟩
    · exact List.forall_mem_cons.mpr
        ⟨hl.shortest_iff.mpr (hform (by omega)), heq (by omega)⟩
    · obtain ⟨hfirst, hrest⟩ := List.forall_mem_cons.mp h
      rw [hshortest hrest, hl.shortest_iff.mp hfirst, List.flatMap_cons, writeString,
        List.append_assoc]

end Oer

open Oer

/-! ## Packets -/

namespace Packet

variable {type : UInt8} {fixed b b' : Bytes} {strings lengths : List Bytes}

theorem Assembled.unique (h : Assembled type fixed strings lengths b)
    (h' : Assembled type fixed strings lengths b') : b = b' := by
  cases h with
  | intro hs ho =>
    cases h' with
    | intro hs' ho' => rw [hs.unique hs']

theorem Assembled.exists_written (h : Assembled type fixed strings lengths b) :
    ∃ lengths', Assembled type fixed strings lengths'
      (type :: writeString (fixed ++ strings.flatMap writeString)) := by
  cases h with
  | @intro outer content inner hs ho =>
    obtain ⟨inner', hinner⟩ := hs.exists_written
    have hlt := ho.writeLength_le.1
    have hle := hs.written_le.1
    rw [List.length_append] at hlt
    exact ⟨_, .intro hinner (lengthForm_writeLength (by rw [List.length_append]; omega))⟩

/-- The content's length has no shorter form if the content is longer than it needs to be. -/
theorem Assembled.written_le (h : Assembled type fixed strings lengths b) :
    let written := type :: writeString (fixed ++ strings.flatMap writeString)
    written.length ≤ b.length ∧
      (written.length = b.length → ∀ l ∈ lengths, Shortest l) ∧
      ((∀ l ∈ lengths, Shortest l) → b = written) := by
  intro written
  cases h with
  | @intro outer content inner hs ho =>
    obtain ⟨hle, heq, hshortest⟩ := hs.written_le
    obtain ⟨-, hlength, hform⟩ := ho.writeLength_le
    have hsize : written.length = stringSize (fixed ++ strings.flatMap writeString).length + 1 := by
      rw [List.length_cons, length_writeString]
    have hcontent : (fixed ++ strings.flatMap writeString).length ≤ (fixed ++ content).length := by
      rw [List.length_append, List.length_append]
      omega
    have hmono := stringSize_strictMono.monotone hcontent
    have houter := stringSize_eq (fixed ++ content).length
    have htaken : (type :: (outer ++ (fixed ++ content))).length
        = outer.length + (fixed ++ content).length + 1 := by
      rw [List.length_cons, List.length_append]
    rw [hsize, htaken]
    refine ⟨by omega, fun h => ?_, fun h => ?_⟩
    · have hsame := stringSize_strictMono.injective
        (Nat.le_antisymm hmono (by omega) : stringSize _ = stringSize _)
      rw [List.length_append, List.length_append, Nat.add_left_cancel_iff] at hsame
      exact List.forall_mem_cons.mpr ⟨ho.shortest_iff.mpr (hform (by omega)), heq hsame⟩
    · obtain ⟨hfirst, hrest⟩ := List.forall_mem_cons.mp h
      obtain rfl := hshortest hrest
      rw [ho.shortest_iff.mp hfirst]
      rfl

/-- What is written for a packet is read again, is no longer than any octets that are read as the
packet, and is the only one of its length among them.  So octets are read as one packet just if the
same is written for them, and differ only by lengths that are not in their shortest forms. -/
structure Shortens {α : Type} (decode : Bytes → Except PacketError α) (encode : α → Bytes)
    (FormWith : α → List Bytes → Bytes → Prop) : Prop where
  read_written : ∀ b a, decode b = .ok a → decode (encode a) = .ok a
  length_le : ∀ b a, decode b = .ok a → (encode a).length ≤ b.length
  length_eq_iff : ∀ b a, decode b = .ok a → ((encode a).length = b.length ↔ encode a = b)
  same_iff : ∀ b b' a a', decode b = .ok a → decode b' = .ok a' →
    (a = a' ↔ encode a = encode a')
  shortest_iff : ∀ b a, decode b = .ok a →
    ∃ lengths, FormWith a lengths b ∧ (b = encode a ↔ ∀ l ∈ lengths, Shortest l)
  differ : ∀ b b' a, decode b = .ok a → decode b' = .ok a → b ≠ b' →
    ∃ lengths lengths', FormWith a lengths b ∧ FormWith a lengths' b' ∧ lengths ≠ lengths' ∧
      ∃ l ∈ lengths ++ lengths', ¬ Shortest l

theorem Shortens.of_takes {α : Type} {decode : Bytes → Except PacketError α} {encode : α → Bytes}
    {fixed : α → Bytes} {strings : α → List Bytes}
    (takes : ∀ b a, decode b = .ok a ↔ ∃ ls, Assembled type (fixed a) (strings a) ls b)
    (written : ∀ a,
      encode a = type :: writeString (fixed a ++ (strings a).flatMap writeString)) :
    Shortens decode encode fun a => Assembled type (fixed a) (strings a) := by
  have read_written : ∀ b a, decode b = .ok a → decode (encode a) = .ok a := by
    intro b a h
    obtain ⟨ls, hls⟩ := (takes b a).mp h
    rw [takes, written]
    exact hls.exists_written
  refine ⟨read_written, fun b a h => ?_, fun b a h => ⟨fun hlength => ?_, fun h => h ▸ rfl⟩,
    fun b b' a a' h h' => ⟨fun h => h ▸ rfl, fun hsame => ?_⟩, fun b a h => ?_,
    fun b b' a h h' hne => ?_⟩
  · obtain ⟨ls, hls⟩ := (takes b a).mp h
    exact written a ▸ hls.written_le.1
  · obtain ⟨ls, hls⟩ := (takes b a).mp h
    obtain ⟨-, hshortest, heq⟩ := hls.written_le
    rw [written] at hlength ⊢
    exact (heq (hshortest hlength)).symm
  · have hread := read_written b a h
    rw [hsame, read_written b' a' h'] at hread
    exact (Except.ok.inj hread).symm
  · obtain ⟨ls, hls⟩ := (takes b a).mp h
    obtain ⟨-, hshortest, heq⟩ := hls.written_le
    rw [← written] at hshortest heq
    exact ⟨ls, hls, fun h => hshortest (h ▸ rfl), heq⟩
  · obtain ⟨ls, hls⟩ := (takes b a).mp h
    obtain ⟨ls', hls'⟩ := (takes b' a).mp h'
    refine ⟨ls, ls', hls, hls', fun hsame => hne (hls.unique (hsame ▸ hls')), ?_⟩
    by_contra hall
    push Not at hall
    obtain ⟨h₁, h₂⟩ := List.forall_mem_append.mp hall
    exact hne ((hls.written_le.2.2 h₁).trans (hls'.written_le.2.2 h₂).symm)

/-- What is written for a fulfillment or a refusal is the shortest of all that is read so. -/
theorem written_shortest :
    Shortens Fulfill.decode Fulfill.encode Fulfill.FormWith ∧
      Shortens Reject.decode Reject.encode Reject.FormWith := by
  refine ⟨.of_takes (fun b f => Fulfill.decode_eq_ok_iff) fun f => ?_,
    .of_takes (fun b r => Reject.decode_eq_ok_iff) fun r => ?_⟩
  · simp only [Fulfill.encode_eq, Fulfill.content, List.flatMap_cons, List.flatMap_nil,
      List.append_nil]
  · simp only [Reject.encode_eq, Reject.content, List.flatMap_cons, List.flatMap_nil,
      List.append_nil, List.append_assoc]

theorem written_shortest_padded :
    Fulfill.decode padded = .ok paid ∧ Fulfill.decode paid.encode = .ok paid ∧
      paid.encode.length < padded.length ∧
      ∃ lengths, paid.FormWith lengths padded ∧ ∃ l ∈ lengths, ¬ Shortest l := by
  have hread : Fulfill.decode padded = .ok paid := by decide +kernel
  obtain ⟨hfulfill, -⟩ := written_shortest
  obtain ⟨lengths, hform, hiff⟩ := hfulfill.shortest_iff _ _ hread
  have hne : ¬ padded = paid.encode := by decide +kernel
  rw [hiff] at hne
  push Not at hne
  exact ⟨hread, hfulfill.read_written _ _ hread, by decide +kernel, lengths, hform, hne⟩

end Packet

end IlpConnector
