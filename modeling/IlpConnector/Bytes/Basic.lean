/-!
# Octets and big-endian numbers

A string of octets is a list, so that the readers and writers of this library are functions on
lists.  `Octets n` is a field of exactly `n` octets: hashes, conditions and table ids.

`ofNatBE` writes a number in a given number of octets, the most significant first, and `toNatBE`
reads one back (`toNatBE_ofNatBE`).
-/

namespace IlpConnector

abbrev Bytes := List UInt8

namespace Bytes

/-- The number that octets stand for, the most significant first. -/
def toNatBE (b : Bytes) : Nat :=
  b.foldl (fun n o => n * 256 + o.toNat) 0

/-- The lowest `width` octets of a number, the most significant first. -/
def ofNatBE : (width n : Nat) → Bytes
  | 0, _ => []
  | width + 1, n => UInt8.ofNat (n / Nat.pow 256 width) :: ofNatBE width n

@[simp] theorem length_ofNatBE (width n : Nat) : (ofNatBE width n).length = width := by
  induction width with
  | zero => rfl
  | succ width ih => simp [ofNatBE, ih]

theorem foldl_toNatBE (b : Bytes) (acc : Nat) :
    b.foldl (fun n o => n * 256 + o.toNat) acc = acc * Nat.pow 256 b.length + toNatBE b := by
  simp only [Nat.pow_eq]
  induction b generalizing acc with
  | nil => simp [toNatBE]
  | cons o b ih =>
    rw [List.foldl_cons, ih, show toNatBE (o :: b) = o.toNat * 256 ^ b.length + toNatBE b by
      rw [toNatBE, List.foldl_cons, ih, Nat.zero_mul, Nat.zero_add], List.length_cons,
      Nat.pow_succ, Nat.add_mul, Nat.mul_assoc, Nat.mul_comm 256, Nat.add_assoc]

theorem toNatBE_cons (o : UInt8) (b : Bytes) :
    toNatBE (o :: b) = o.toNat * Nat.pow 256 b.length + toNatBE b := by
  rw [toNatBE, List.foldl_cons, foldl_toNatBE]
  simp

theorem toNatBE_lt (b : Bytes) : toNatBE b < Nat.pow 256 b.length := by
  simp only [Nat.pow_eq]
  induction b with
  | nil => simp [toNatBE]
  | cons o b ih =>
    rw [toNatBE_cons, Nat.pow_eq, List.length_cons, Nat.pow_succ]
    have ho : o.toNat + 1 ≤ 256 := o.toNat_lt
    have := Nat.mul_le_mul_right (256 ^ b.length) ho
    rw [Nat.add_mul, Nat.one_mul] at this
    rw [Nat.mul_comm (256 ^ b.length)]
    omega

/-- A number that fits its octets is read back. -/
theorem toNatBE_ofNatBE {width n : Nat} (h : n < Nat.pow 256 width) :
    toNatBE (ofNatBE width n) = n := by
  have hmod : ∀ width n, toNatBE (ofNatBE width n) = n % 256 ^ width := by
    intro width n
    induction width with
    | zero => simp [ofNatBE, toNatBE, Nat.mod_one]
    | succ width ih =>
      rw [ofNatBE, toNatBE_cons, ih, length_ofNatBE, Nat.pow_eq, Nat.pow_succ, Nat.mod_mul]
      have : (UInt8.ofNat (n / 256 ^ width)).toNat = n / 256 ^ width % 256 := by
        simp [UInt8.toNat_ofNat']
      rw [this, Nat.mul_comm]
      omega
  rw [Nat.pow_eq] at h
  rw [hmod, Nat.mod_eq_of_lt h]

/-- Octets are the big-endian form of the number they stand for. -/
theorem ofNatBE_toNatBE (b : Bytes) : ofNatBE b.length (toNatBE b) = b := by
  have hgen : ∀ (b : Bytes) (hi : Nat), ofNatBE b.length (hi * 256 ^ b.length + toNatBE b) = b := by
    intro b
    induction b with
    | nil => intro hi; rfl
    | cons o b ih =>
      intro hi
      rw [List.length_cons, ofNatBE, toNatBE_cons, Nat.pow_eq]
      have hlt := toNatBE_lt b
      rw [Nat.pow_eq] at hlt
      have hpos : 0 < 256 ^ b.length := Nat.pow_pos (by decide)
      have hassoc : hi * 256 ^ (b.length + 1) + (o.toNat * 256 ^ b.length + toNatBE b)
          = (hi * 256 + o.toNat) * 256 ^ b.length + toNatBE b := by
        rw [Nat.pow_succ, Nat.add_mul, Nat.mul_assoc, Nat.mul_comm 256, Nat.add_assoc]
      rw [hassoc, ih]
      congr 1
      rw [Nat.add_comm, Nat.add_mul_div_right _ _ hpos, Nat.div_eq_of_lt hlt, Nat.zero_add]
      apply UInt8.toNat_inj.mp
      rw [UInt8.toNat_ofNat', Nat.mul_comm, Nat.mul_add_mod]
      exact Nat.mod_eq_of_lt o.toNat_lt
  simpa using hgen b 0

end Bytes

/-- A field of exactly `n` octets. -/
structure Octets (n : Nat) where
  toList : Bytes
  length_eq : toList.length = n := by simp
deriving DecidableEq

namespace Octets

variable {n : Nat}

@[ext] theorem ext {a b : Octets n} (h : a.toList = b.toList) : a = b := by
  cases a
  cases b
  simp_all

/-- The same octet `n` times. -/
def replicate (n : Nat) (o : UInt8) : Octets n where
  toList := List.replicate n o

/-- The first `n` octets of a list that has as many. -/
def ofTake (n : Nat) (b : Bytes) (h : n ≤ b.length) : Octets n where
  toList := b.take n
  length_eq := by simp [h]

/-- The field that a list of exactly `n` octets fills. -/
def ofList? (b : Bytes) : Option (Octets n) :=
  if h : b.length = n then some ⟨b, h⟩ else none

/-- The octets of a big-endian number. -/
def ofNatBE (n value : Nat) : Octets n where
  toList := Bytes.ofNatBE n value

instance : Inhabited (Octets n) := ⟨replicate n 0⟩

end Octets

end IlpConnector
