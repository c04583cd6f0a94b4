import IlpConnector.Oer.Read
import IlpConnector.Oer.Write
import Mathlib.Algebra.Ring.Nat
import Mathlib.Tactic.Common

/-!
# Fields are read as they were written

Every reader takes from the front what its writer has put there, and leaves the rest, whatever that
is (`Oer.readNat_ofNatBE`, `Oer.readLength_writeLength`, `Oer.readString_writeString`).  Lengths fit
if they have eight octets at most, and the sizes that are announced beforehand are those of what is
written (`Oer.length_writeString`).  Readers take other forms too, but none that is shorter
(`Oer.stringSize_le_of_readString`).
-/

namespace IlpConnector

theorem Octets.ofTake_append {n : Nat} (o : Octets n) (rest : Bytes)
    (h : n ≤ (o.toList ++ rest).length) : ofTake n (o.toList ++ rest) h = o := by
  apply ext
  change (o.toList ++ rest).take n = o.toList
  exact List.take_left' o.length_eq

theorem Octets.le_length_append {n : Nat} (o : Octets n) (rest : Bytes) :
    n ≤ (o.toList ++ rest).length := by
  rw [List.length_append, o.length_eq]
  exact Nat.le_add_right _ _

/-! ## Results of steps -/

/-- A result of two steps is what the second one makes of a result of the first. -/
theorem exists_of_bind_eq_ok {ε α β : Type} {x : Except ε α} {f : α → Except ε β} {r : β}
    (h : x >>= f = .ok r) : ∃ a, x = .ok a ∧ f a = .ok r := by
  cases x with
  | error e => cases h
  | ok a => exact ⟨a, rfl, h⟩

theorem of_mapError_eq_ok {ε ε' α : Type} {x : Except ε α} {f : ε → ε'} {a : α}
    (h : x.mapError f = .ok a) : x = .ok a := by
  cases x with
  | error e => cases h
  | ok a => exact congrArg Except.ok (Except.ok.inj h)

theorem exists_of_map_eq_ok {ε α β : Type} {x : Except ε α} {f : α → β} {r : β}
    (h : x.map f = .ok r) : ∃ a, x = .ok a ∧ f a = r := by
  cases x with
  | error e => cases h
  | ok a => exact ⟨a, rfl, Except.ok.inj h⟩

namespace Oer

variable {n : Nat} (rest : Bytes)

/-! ## Fields of fixed size -/

theorem readExact_append {b : Bytes} (hb : b.length = n) :
    readExact n (b ++ rest) = .ok (b, rest) := by
  rw [readExact, if_neg (by rw [List.length_append]; omega), List.take_left' hb,
    List.drop_left' hb]

theorem readBytes_append {b : Bytes} (hb : b.length = n) :
    readBytes n (b ++ rest) = .ok (b, rest) := by
  rw [readBytes, if_neg (by rw [List.length_append]; omega), List.take_left' hb,
    List.drop_left' hb]

theorem readField_append (o : Octets n) : readField n (o.toList ++ rest) = .ok (o, rest) := by
  rw [readField, dif_pos (o.le_length_append rest), o.ofTake_append, List.drop_left' o.length_eq]

theorem readOctets_append (o : Octets n) : readOctets n (o.toList ++ rest) = .ok (o, rest) := by
  rw [readOctets, dif_pos (o.le_length_append rest), o.ofTake_append, List.drop_left' o.length_eq]

theorem readNat_ofNatBE {v : Nat} (hv : v < 256 ^ n) :
    readNat n (Bytes.ofNatBE n v ++ rest) = .ok (v, rest) := by
  rw [readNat, readExact_append rest (Bytes.length_ofNatBE n v)]
  exact congrArg (fun v => Except.ok (v, rest)) (Bytes.toNatBE_ofNatBE hv)

theorem readUInt8_writeUInt8 (v : UInt8) : readUInt8 (writeUInt8 v ++ rest) = .ok (v, rest) := rfl

theorem readUInt16_writeUInt16 (v : UInt16) :
    readUInt16 (writeUInt16 v ++ rest) = .ok (v, rest) := by
  rw [readUInt16, writeUInt16, readNat_ofNatBE rest v.toNat_lt]
  exact congrArg (fun v => Except.ok (v, rest)) UInt16.ofNat_toNat

theorem readUInt32_writeUInt32 (v : UInt32) :
    readUInt32 (writeUInt32 v ++ rest) = .ok (v, rest) := by
  rw [readUInt32, writeUInt32, readNat_ofNatBE rest v.toNat_lt]
  exact congrArg (fun v => Except.ok (v, rest)) UInt32.ofNat_toNat

theorem readUInt64_writeUInt64 (v : UInt64) :
    readUInt64 (writeUInt64 v ++ rest) = .ok (v, rest) := by
  rw [readUInt64, writeUInt64, readNat_ofNatBE rest v.toNat_lt]
  exact congrArg (fun v => Except.ok (v, rest)) UInt64.ofNat_toNat

/-! ## Lengths and strings -/

theorem numberSize_pos (v : Nat) : 0 < numberSize v := by
  rw [numberSize]
  split_ifs <;> omega

/-- A number fits so many octets just if it needs no more. -/
theorem numberSize_le_iff (hn : 0 < n) (v : Nat) : numberSize v ≤ n ↔ v < 256 ^ n := by
  induction n generalizing v with
  | zero => cases hn
  | succ k ih =>
    rw [numberSize]
    split_ifs with hv
    · have hpow : 256 ^ 1 ≤ 256 ^ (k + 1) := Nat.pow_le_pow_right (by decide) (by omega)
      exact iff_of_true (by omega) (Nat.lt_of_lt_of_le hv hpow)
    · cases k with
      | zero =>
        have hpos := numberSize_pos (v / 256)
        exact iff_of_false (by omega) hv
      | succ k =>
        rw [Nat.add_le_add_iff_right, ih (Nat.succ_pos k), Nat.div_lt_iff_lt_mul (by decide),
          ← Nat.pow_succ]

theorem lt_pow_numberSize (v : Nat) : v < 256 ^ numberSize v :=
  (numberSize_le_iff (numberSize_pos v) v).mp (Nat.le_refl _)

/-- The forms of a length: one octet below 128, or an octet that tells how many octets follow, eight
at most, and the length in these, with zeros at the front or without. -/
inductive LengthForm : Nat → Bytes → Prop where
  | short {o : UInt8} (h : o < 0x80) : LengthForm o.toNat [o]
  | long {digits : Bytes} (hpos : 0 < digits.length) (hsize : digits.length ≤ 8) :
    LengthForm (Bytes.toNatBE digits) (.ofNat (128 + digits.length) :: digits)

theorem LengthForm.readLength_append {l : Bytes} (h : LengthForm n l) (rest : Bytes) :
    readLength (l ++ rest) = .ok (n, rest) := by
  cases h with
  | short h => exact if_pos h
  | @long digits hpos hsize =>
    have hnat : (UInt8.ofNat (128 + digits.length)).toNat = 128 + digits.length := by
      rw [UInt8.toNat_ofNat', Nat.mod_eq_of_lt (by omega)]
    have hlong : ¬ UInt8.ofNat (128 + digits.length) < 0x80 := by
      rw [UInt8.lt_iff_toNat_lt, hnat]
      exact Nat.not_lt.mpr (Nat.le_add_right 128 _)
    have hwidth : (128 + digits.length) % 128 = digits.length := by omega
    rw [List.cons_append, readLength, if_neg hlong, hnat, hwidth]
    dsimp only
    rw [if_neg (by omega), readNat, readExact_append rest rfl]
    rfl

theorem lengthForm_writeLength (hn : n < 2 ^ 64) : LengthForm n (writeLength n) := by
  unfold writeLength
  split_ifs with hshort
  · have hnat : (UInt8.ofNat n).toNat = n := by
      rw [UInt8.toNat_ofNat', Nat.mod_eq_of_lt (by omega)]
    have hlt : UInt8.ofNat n < 0x80 := by
      rw [UInt8.lt_iff_toNat_lt, hnat]
      exact hshort
    have hform := LengthForm.short hlt
    rwa [hnat] at hform
  · have hsize : numberSize n ≤ 8 := (numberSize_le_iff (by decide) n).mpr hn
    have hform : LengthForm _ (_ :: Bytes.ofNatBE (numberSize n) n) :=
      .long (by rw [Bytes.length_ofNatBE]; exact numberSize_pos n) (by rwa [Bytes.length_ofNatBE])
    rwa [Bytes.toNatBE_ofNatBE (lt_pow_numberSize n), Bytes.length_ofNatBE] at hform

/-- A length is read if it has eight octets at most. -/
theorem readLength_writeLength (hn : n < 2 ^ 64) :
    readLength (writeLength n ++ rest) = .ok (n, rest) :=
  (lengthForm_writeLength hn).readLength_append rest

theorem stringSize_eq (n : Nat) : stringSize n = (writeLength n).length + n := by
  rw [writeLength, stringSize]
  split_ifs with hshort
  · rw [List.length_singleton]
  · rw [List.length_cons, Bytes.length_ofNatBE, Nat.add_comm 1]

/-- The size of a string is known beforehand. -/
theorem length_writeString (b : Bytes) : (writeString b).length = stringSize b.length := by
  rw [writeString, List.length_append, stringSize_eq]

theorem le_stringSize (n : Nat) : n ≤ stringSize n := by
  rw [stringSize]
  split_ifs <;> omega

/-- A string is read if its length has eight octets at most. -/
theorem readString_writeString {b : Bytes} (hb : b.length < 2 ^ 64) :
    readString (writeString b ++ rest) = .ok (b, rest) := by
  rw [readString, writeString, List.append_assoc, readLength_writeLength _ hb]
  exact readBytes_append rest rfl

theorem writeString_ne_nil (b : Bytes) : writeString b ≠ [] := by
  rw [writeString, writeLength]
  split_ifs <;> exact List.cons_ne_nil _ _

/-! ## What a reader takes -/

section Taken

variable {v : Nat} {b s rest : Bytes}

theorem readBytes_eq_ok_iff : readBytes n b = .ok (s, rest) ↔ s.length = n ∧ b = s ++ rest := by
  refine ⟨fun h => ?_, fun ⟨hs, hb⟩ => hb ▸ readBytes_append rest hs⟩
  unfold readBytes at h
  split_ifs at h with hn
  obtain ⟨rfl, rfl⟩ := Prod.mk.inj (Except.ok.inj h)
  exact ⟨List.length_take_of_le (Nat.not_lt.mp hn), (List.take_append_drop n b).symm⟩

theorem readField_eq_ok_iff {o : Octets n} :
    readField n b = .ok (o, rest) ↔ b = o.toList ++ rest := by
  refine ⟨fun h => ?_, fun hb => hb ▸ readField_append rest o⟩
  unfold readField at h
  split_ifs at h with hn
  obtain ⟨rfl, rfl⟩ := Prod.mk.inj (Except.ok.inj h)
  exact (List.take_append_drop n b).symm

theorem readExact_eq_ok_iff : readExact n b = .ok (s, rest) ↔ s.length = n ∧ b = s ++ rest := by
  refine ⟨fun h => ?_, fun ⟨hs, hb⟩ => hb ▸ readExact_append rest hs⟩
  unfold readExact at h
  split_ifs at h with hn
  obtain ⟨rfl, rfl⟩ := Prod.mk.inj (Except.ok.inj h)
  exact ⟨List.length_take_of_le (Nat.not_lt.mp hn), (List.take_append_drop n b).symm⟩

theorem readUInt64_eq_ok_iff {v : UInt64} :
    readUInt64 b = .ok (v, rest) ↔ b = writeUInt64 v ++ rest := by
  refine ⟨fun h => ?_, fun hb => hb ▸ readUInt64_writeUInt64 rest v⟩
  obtain ⟨r, hread, hr⟩ := exists_of_map_eq_ok h
  obtain ⟨⟨digits, rest⟩, hdigits, rfl⟩ := exists_of_map_eq_ok hread
  obtain ⟨hlength, rfl⟩ := readExact_eq_ok_iff.mp hdigits
  obtain ⟨rfl, rfl⟩ := Prod.mk.inj hr
  dsimp only
  have hlt := Bytes.toNatBE_lt digits
  rw [hlength] at hlt
  rw [writeUInt64, UInt64.toNat_ofNat_of_lt' hlt, ← hlength, Bytes.ofNatBE_toNatBE]

/-- A length is read from its forms only. -/
theorem readLength_eq_ok_iff :
    readLength b = .ok (n, rest) ↔ ∃ l, LengthForm n l ∧ b = l ++ rest := by
  refine ⟨fun h => ?_, fun ⟨l, hl, hb⟩ => hb ▸ hl.readLength_append rest⟩
  cases b with
  | nil => cases h
  | cons o b =>
    dsimp only [readLength] at h
    split_ifs at h with hshort hwidth
    · obtain ⟨rfl, rfl⟩ := Prod.mk.inj (Except.ok.inj h)
      exact ⟨[o], .short hshort, rfl⟩
    · obtain ⟨⟨digits, rest⟩, hread, h⟩ := exists_of_map_eq_ok h
      obtain ⟨rfl, rfl⟩ := Prod.mk.inj h
      obtain ⟨hlength, rfl⟩ := readExact_eq_ok_iff.mp hread
      dsimp only at hlength hwidth ⊢
      have ho : o = .ofNat (128 + digits.length) := by
        have hlt := o.toNat_lt
        have hge : 128 ≤ o.toNat := Nat.not_lt.mp fun hlt => hshort (UInt8.lt_iff_toNat_lt.mpr hlt)
        rw [hlength, ← UInt8.toNat_inj, UInt8.toNat_ofNat']
        omega
      exact ⟨o :: digits, ho ▸ .long (by omega) (by omega), rfl⟩

/-- A length has eight octets at most, and its forms no fewer than the one that is written, which is
the only one of its size. -/
theorem LengthForm.writeLength_le {l : Bytes} (h : LengthForm n l) :
    n < 2 ^ 64 ∧ (writeLength n).length ≤ l.length ∧
      ((writeLength n).length = l.length → l = writeLength n) := by
  cases h with
  | @short o h =>
    have ho : o.toNat < 128 := UInt8.lt_iff_toNat_lt.mp h
    have hwritten : writeLength o.toNat = [o] := by
      rw [writeLength, if_pos ho, UInt8.ofNat_toNat]
    rw [hwritten]
    exact ⟨by omega, Nat.le_refl _, fun _ => rfl⟩
  | @long digits hpos hsize =>
    have hlt := Bytes.toNatBE_lt digits
    have hnumber := (numberSize_le_iff hpos _).mpr hlt
    have hpow : 256 ^ digits.length ≤ 256 ^ 8 := Nat.pow_le_pow_right (by decide) hsize
    rw [writeLength]
    split_ifs with hshort
    · rw [List.length_singleton, List.length_cons]
      exact ⟨Nat.lt_of_lt_of_le hlt hpow, by omega, fun heq => by omega⟩
    · rw [List.length_cons, List.length_cons, Bytes.length_ofNatBE]
      refine ⟨Nat.lt_of_lt_of_le hlt hpow, by omega, fun heq => ?_⟩
      rw [Nat.add_right_cancel heq, Bytes.ofNatBE_toNatBE]

/-- A string is read from one of the forms of its length and its own octets. -/
theorem readString_eq_ok_iff :
    readString b = .ok (s, rest) ↔ ∃ l, LengthForm s.length l ∧ b = l ++ (s ++ rest) := by
  refine ⟨fun h => ?_, fun ⟨l, hl, hb⟩ => ?_⟩
  · obtain ⟨⟨n, b'⟩, hn, hs⟩ := exists_of_bind_eq_ok h
    obtain ⟨l, hl, rfl⟩ := readLength_eq_ok_iff.mp hn
    obtain ⟨rfl, rfl⟩ := readBytes_eq_ok_iff.mp hs
    exact ⟨l, hl, rfl⟩
  · rw [hb, readString, hl.readLength_append]
    exact readBytes_append rest rfl

/-- A string that is read takes no fewer octets than its shortest form. -/
theorem stringSize_le_of_readString (h : readString b = .ok (s, rest)) :
    s.length < 2 ^ 64 ∧ stringSize s.length + rest.length ≤ b.length := by
  obtain ⟨l, hl, rfl⟩ := readString_eq_ok_iff.mp h
  obtain ⟨hlt, hle, -⟩ := hl.writeLength_le
  rw [stringSize_eq, List.length_append, List.length_append]
  exact ⟨hlt, by omega⟩

end Taken

/-! ## Numbers of any length -/

theorem readVarUInt_writeVarUInt (v : UInt64) :
    readVarUInt (writeVarUInt v ++ rest) = .ok (v, rest) := by
  have hpos := numberSize_pos v.toNat
  have hsize : numberSize v.toNat ≤ 8 := (numberSize_le_iff (by decide) _).mpr v.toNat_lt
  rw [readVarUInt, writeVarUInt, List.append_assoc, readLength_writeLength _ (by omega)]
  simp only [bind, Except.bind]
  rw [if_neg (by omega), if_neg (by omega), readNat_ofNatBE rest (lt_pow_numberSize _)]
  exact congrArg (fun v => Except.ok (v, rest)) UInt64.ofNat_toNat

end Oer

end IlpConnector
