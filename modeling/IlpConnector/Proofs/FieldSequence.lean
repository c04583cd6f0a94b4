import IlpConnector.Proofs.Oer
import Mathlib.Data.Nat.Size
import Mathlib.Order.Bounds.Basic

/-!
# Fields that follow one another

What is written as a sequence of strings and numbers is read as that sequence, whatever comes after
it, and every field is as large as announced (`Oer.readFields_write`).  So the layout of a message
is settled by the kinds of its fields alone: no separator is needed between them, and no reader has
to know where its neighbours begin.
-/

namespace IlpConnector.Oer

/-- A field of variable length. -/
inductive Field where
  | string (b : Bytes)
  | number (v : UInt64)
deriving DecidableEq

/-- What a reader has to know of a field. -/
inductive FieldKind where
  | string
  | number
deriving DecidableEq

namespace Field

def kind : Field → FieldKind
  | string _ => .string
  | number _ => .number

def write : Field → Bytes
  | string b => writeString b
  | number v => writeVarUInt v

/-- The octets that are set aside for a field before it is written. -/
def size : Field → Nat
  | string b => stringSize b.length
  | number v => 1 + numberSize v.toNat

/-- A string that a machine of 64 bits can hold; every number fits. -/
def Fits : Field → Prop
  | string b => b.length < 2 ^ 63
  | number _ => True

end Field

def FieldKind.read : FieldKind → Reader ReadError Field
  | string, b => (readString b).map fun r => (.string r.1, r.2)
  | number, b => (readVarUInt b).map fun r => (.number r.1, r.2)

/-- One field of each kind, one after the other. -/
def readFields : List FieldKind → Reader ReadError (List Field)
  | [], b => .ok ([], b)
  | k :: ks, b => do
    let (f, b) ← k.read b
    let (fs, b) ← readFields ks b
    return (f :: fs, b)

/-! ## One field -/

theorem numberSize_le_eight (v : UInt64) : numberSize v.toNat ≤ 8 :=
  (numberSize_le_iff (by decide) _).mpr v.toNat_lt

/-- The size of a number is the least number of octets that hold it, and at least one. -/
theorem isLeast_numberSize (v : Nat) : IsLeast {k | 1 ≤ k ∧ v < 256 ^ k} (numberSize v) :=
  ⟨⟨numberSize_pos v, lt_pow_numberSize v⟩, fun _ hk => (numberSize_le_iff hk.1 v).mpr hk.2⟩

/-- The size of a number from the number of its bits, rounded up to whole octets. -/
theorem numberSize_eq_max_size (v : Nat) : numberSize v = max 1 ((v.size + 7) / 8) := by
  have hfits (k : Nat) : v < 256 ^ k ↔ v.size ≤ 8 * k := by
    rw [Nat.size_le, Nat.pow_mul]
  refine (isLeast_numberSize v).unique ⟨⟨le_max_left _ _, (hfits _).mpr ?_⟩, fun k hk => ?_⟩
  · omega
  · have hsize := (hfits k).mp hk.2
    exact max_le hk.1 (by omega)

/-- Eight octets at most follow the one that tells how many they are. -/
theorem length_writeVarUInt (v : UInt64) : (writeVarUInt v).length = 1 + numberSize v.toNat := by
  have hsize := numberSize_le_eight v
  rw [writeVarUInt, writeLength, if_pos (by omega), List.length_append, List.length_singleton,
    Bytes.length_ofNatBE]

theorem Field.length_write (f : Field) : f.write.length = f.size := by
  cases f with
  | string b => exact length_writeString b
  | number v => exact length_writeVarUInt v

/-- Sizes of fields that fit are numbers of 64 bits themselves. -/
theorem Field.Fits.size_lt {f : Field} (h : f.Fits) : f.size < 2 ^ 64 := by
  cases f with
  | string b =>
    have hb : b.length < 2 ^ 63 := h
    have hsize : numberSize b.length ≤ 8 := (numberSize_le_iff (by decide) _).mpr (by omega)
    rw [Field.size, stringSize]
    split_ifs <;> omega
  | number v =>
    have hsize := numberSize_le_eight v
    rw [Field.size]
    omega

theorem Field.Fits.read_write {f : Field} (h : f.Fits) (rest : Bytes) :
    f.kind.read (f.write ++ rest) = .ok (f, rest) := by
  cases f with
  | string b =>
    have hb : b.length < 2 ^ 63 := h
    rw [Field.kind, Field.write, FieldKind.read, readString_writeString rest (by omega)]
    rfl
  | number v =>
    rw [Field.kind, Field.write, FieldKind.read, readVarUInt_writeVarUInt]
    rfl

theorem LengthForm.length_pos {n : Nat} {l : Bytes} (h : LengthForm n l) : 0 < l.length := by
  cases h <;> exact Nat.succ_pos _

/-- Whatever its form, a length takes an octet. -/
theorem length_lt_of_readLength {n : Nat} {b rest : Bytes} (h : readLength b = .ok (n, rest)) :
    rest.length < b.length := by
  obtain ⟨l, hl, rfl⟩ := readLength_eq_ok_iff.mp h
  rw [List.length_append]
  exact Nat.lt_add_of_pos_left hl.length_pos

/-! ## Sequences -/

theorem readFields_flatMap_write {fs : List Field} (h : ∀ f ∈ fs, f.Fits) (rest : Bytes) :
    readFields (fs.map Field.kind) (fs.flatMap Field.write ++ rest) = .ok (fs, rest) := by
  induction fs with
  | nil => rfl
  | cons f fs ih =>
    obtain ⟨hf, hfs⟩ := List.forall_mem_cons.mp h
    rw [List.map_cons, List.flatMap_cons, List.append_assoc, readFields, hf.read_write]
    simp only [bind, Except.bind, ih hfs]
    rfl

/-- Any sequence of strings and numbers is read as it was written and leaves what comes after it,
each of its fields has the announced size, a number as few octets as hold it, and a length that is
read is taken from the front. -/
theorem readFields_write :
    (∀ (fs : List Field) (rest : Bytes), (∀ f ∈ fs, f.Fits) →
        readFields (fs.map Field.kind) (fs.flatMap Field.write ++ rest) = .ok (fs, rest)) ∧
      (∀ f : Field, f.write.length = f.size ∧ (f.Fits → f.size < 2 ^ 64)) ∧
      (∀ v : UInt64, IsLeast {k | 1 ≤ k ∧ v.toNat < 256 ^ k} (numberSize v.toNat) ∧
        numberSize v.toNat = max 1 ((v.toNat.size + 7) / 8)) ∧
      ∀ (b : Bytes) (n : Nat) (rest : Bytes), readLength b = .ok (n, rest) →
        rest.length < b.length :=
  ⟨fun _ rest h => readFields_flatMap_write h rest,
    fun f => ⟨f.length_write, Field.Fits.size_lt⟩,
    fun v => ⟨isLeast_numberSize v.toNat, numberSize_eq_max_size v.toNat⟩,
    fun _ _ _ h => length_lt_of_readLength h⟩

/-- A string in the long form between the least and the greatest number, and an empty one. -/
theorem readFields_write_long :
    let fs : List Field :=
      [.number 0, .string (List.replicate 200 7), .number 0xffffffffffffffff, .string []]
    (∀ f ∈ fs, f.Fits) ∧
      readFields (fs.map Field.kind) (fs.flatMap Field.write ++ [1, 2]) = .ok (fs, [1, 2]) ∧
      readLength [0x82, 1, 44, 7] = .ok (300, [7]) ∧ [7].length < [0x82, 1, 44, 7].length := by
  intro fs
  have hfits : ∀ f ∈ fs, f.Fits := by
    simp only [fs, List.forall_mem_cons, Field.Fits, List.length_replicate, List.length_nil]
    exact ⟨trivial, by decide, trivial, by decide, List.forall_mem_nil _⟩
  have hlength : readLength [0x82, 1, 44, 7] = .ok (300, [7]) := rfl
  exact ⟨hfits, readFields_write.1 fs [1, 2] hfits, hlength,
    readFields_write.2.2.2 [0x82, 1, 44, 7] 300 [7] hlength⟩

end IlpConnector.Oer
