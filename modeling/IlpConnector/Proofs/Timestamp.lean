import IlpConnector.Time.Timestamp
import IlpConnector.Proofs.Calendar
import IlpConnector.Proofs.Utf8
import Mathlib.Data.List.TakeWhile

/-!
# Timestamps are read as they were written

A whole millisecond of the years 0 to 9999 is written with seventeen characters of one octet each
(`Timestamp.length_encode_write`), and read back from them (`Timestamp.read_write`).  Before the
year 0 and after the year 9999 the year is written with a sign, which makes more characters than
that, and an instant within a millisecond loses what is left of it.
-/

namespace IlpConnector

namespace Timestamp

variable {min width n low high : Nat} (rest : List Char)

/-! ## Digits -/

@[simp] theorem length_digits (width n : Nat) : (digits width n).length = width := by
  induction width with
  | zero => rfl
  | succ width ih => rw [digits, List.length_cons, ih]

theorem digit_spec : ∀ d < 10,
    (Char.ofNat (48 + d)).isDigit = true ∧ (Char.ofNat (48 + d)).toNat = 48 + d := by
  decide

theorem isDigit_of_mem_digits {c : Char} (h : c ∈ digits width n) : c.isDigit = true := by
  induction width with
  | zero => cases h
  | succ width ih =>
    rw [digits, List.mem_cons] at h
    rcases h with rfl | h
    · exact (digit_spec _ (Nat.mod_lt _ (by decide))).1
    · exact ih h

/-- The digits stand for the number, as far as they go. -/
theorem foldl_digits (width n acc : Nat) :
    (digits width n).foldl (fun n c => n * 10 + (c.toNat - 48)) acc
      = acc * 10 ^ width + n % 10 ^ width := by
  induction width generalizing acc with
  | zero => simp [digits, Nat.mod_one]
  | succ width ih =>
    have hdigit := (digit_spec (n / Nat.pow 10 width % 10) (Nat.mod_lt _ (by decide))).2
    rw [digits, List.foldl_cons, ih, hdigit, Nat.add_sub_cancel_left, Nat.pow_eq, Nat.pow_succ,
      Nat.mod_mul, Nat.add_mul, Nat.mul_assoc, Nat.mul_comm 10, Nat.mul_comm (10 ^ width) (_ % 10)]
    omega

theorem toNat_of_isDigit {c : Char} (h : c.isDigit = true) : 48 ≤ c.toNat ∧ c.toNat ≤ 57 := by
  simp only [Char.isDigit, Bool.and_eq_true, decide_eq_true_eq] at h
  exact h

theorem isBlank_of_isDigit {c : Char} (h : c.isDigit = true) : Text.isBlank c = false := by
  have hc := toNat_of_isDigit h
  simp only [Text.isBlank, Bool.or_eq_false_iff, Bool.and_eq_false_iff, decide_eq_false_iff_not,
    beq_eq_false_iff_ne]
  omega

theorem length_le_foldl_utf8Size (cs : List Char) (acc : Nat) :
    acc + cs.length ≤ cs.foldl (fun n c => n + c.utf8Size) acc := by
  induction cs generalizing acc with
  | nil => exact Nat.le_refl _
  | cons c cs ih =>
    have hpos := c.utf8Size_pos
    have hrest := ih (acc + c.utf8Size)
    rw [List.foldl_cons, List.length_cons]
    omega

/-! ## Fields -/

/-- A number of all its digits is read, whatever follows. -/
theorem number_digits (hmin : min ≤ width) (hn : n < 10 ^ width) :
    number min width (digits width n ++ rest) = .ok (n, rest) := by
  have hrun : ((digits width n ++ rest).take width).takeWhile Char.isDigit = digits width n := by
    rw [List.take_left' (length_digits width n), List.takeWhile_eq_self_iff]
    exact fun c hc => isDigit_of_mem_digits hc
  have hsize := length_le_foldl_utf8Size (digits width n ++ rest) 0
  rw [List.length_append, length_digits] at hsize
  unfold number
  dsimp only
  rw [hrun, if_neg (by omega), if_neg (by rw [length_digits]; omega), foldl_digits,
    Nat.mod_eq_of_lt hn, List.drop_left' rfl, Nat.zero_mul, Nat.zero_add]

/-- A number starts with a digit. -/
theorem exists_digits_append (n : Nat) (hwidth : 0 < width) :
    ∃ c cs, digits width n ++ rest = c :: cs ∧ c.isDigit = true := by
  cases width with
  | zero => cases hwidth
  | succ width =>
    have hc : Char.ofNat (48 + n / Nat.pow 10 width % 10) ∈ digits (width + 1) n :=
      List.mem_cons_self
    exact ⟨_, _, rfl, isDigit_of_mem_digits hc⟩

theorem dropWhile_digits (hwidth : 0 < width) :
    (digits width n ++ rest).dropWhile Text.isBlank = digits width n ++ rest := by
  obtain ⟨c, cs, hcs, hc⟩ := exists_digits_append rest n hwidth
  rw [hcs, List.dropWhile_cons_of_neg (by rw [isBlank_of_isDigit hc]; simp)]

theorem field_digits (hwidth : 0 < width) (hn : n < 10 ^ width) (hlow : low ≤ n)
    (hhigh : n ≤ high) : field width low high (digits width n ++ rest) = .ok (n, rest) := by
  rw [field, dropWhile_digits rest hwidth, number_digits rest hwidth hn]
  exact if_pos ⟨hlow, hhigh⟩

theorem year_yearDigits {y : Int} (hy : 0 ≤ y ∧ y ≤ 9999) :
    year (yearDigits y ++ rest) = .ok (y, rest) := by
  have hnumber : number 1 4 (digits 4 y.toNat ++ rest) = .ok (y.toNat, rest) :=
    number_digits rest (by decide) (by omega)
  obtain ⟨c, cs, hcs, hc⟩ := exists_digits_append rest y.toNat (show 0 < 4 by decide)
  rw [yearDigits, if_pos hy, year, dropWhile_digits rest (by decide)]
  rw [hcs] at hnumber ⊢
  split
  · rename_i h
    rw [(List.cons.inj h).1] at hc
    exact absurd hc (by decide)
  · rename_i h
    rw [(List.cons.inj h).1] at hc
    exact absurd hc (by decide)
  · rw [hnumber]
    have hcast : (y.toNat : Int) = y := Int.toNat_of_nonneg hy.1
    simp only [Except.map, hcast]
    exact if_pos ⟨by omega, by omega⟩

/-! ## Whole timestamps -/

theorem bounds_of_ofInstant (t : Instant) :
    let f := Fields.ofInstant t
    f.hour ≤ 23 ∧ f.minute ≤ 59 ∧ f.second ≤ 59 ∧ f.nanos < 1000000000 := by
  simp only [Fields.ofInstant, Instant.subsecond, Instant.nanosPerSecond]
  omega

/-- An instant without what is left of its millisecond is what its fields say, down to the
millisecond. -/
theorem toInstant_millis (t : Instant) :
    let f := Fields.ofInstant t
    Fields.toInstant { f with nanos := f.nanos / 1000000 * 1000000 } = t.truncateToMillis := by
  simp only [Fields.ofInstant, Fields.toInstant, (Date.ofDayNumber_spec _).2, Instant.ofSeconds,
    Instant.truncateToMillis, Instant.ofMillis, Instant.millis, Instant.seconds, Instant.subsecond,
    Instant.nanosPerMilli, Instant.nanosPerSecond, Instant.mk.injEq]
  omega

/-- In the years 0 to 9999, what is written is read back, down to the millisecond. -/
theorem read_write {t : Instant}
    (hy : 0 ≤ (Fields.ofInstant t).date.year ∧ (Fields.ofInstant t).date.year ≤ 9999) :
    read (write t) = .ok t.truncateToMillis := by
  have hinstant := toInstant_millis t
  obtain ⟨hhour, hminute, hsecond, hnanos⟩ := bounds_of_ofInstant t
  have hvalid : (Fields.ofInstant t).date.isValid = true := (Date.ofDayNumber_spec _).1
  obtain ⟨hmonth, hmonth', hday, hday'⟩ := Date.bounds_of_isValid hvalid
  dsimp only at hinstant hhour hminute hsecond hnanos
  rw [read, write, String.toList_ofList, writeChars]
  generalize Fields.ofInstant t = f at *
  have hfield : ∀ {n low high} rest, low ≤ n → n ≤ high → n < 10 ^ 2 →
      field 2 low high (digits 2 n ++ rest) = .ok (n, rest) := fun rest hlow hhigh hn =>
    field_digits rest (by decide) hn hlow hhigh
  have hmonths := fun rest => hfield rest hmonth hmonth' (by omega)
  have hdays := fun rest => hfield rest hday hday' (by omega)
  have hhours := fun rest => hfield rest (Nat.zero_le _) hhour (by omega)
  have hminutes := fun rest => hfield rest (Nat.zero_le _) hminute (by omega)
  have hseconds := fun rest => hfield rest (Nat.zero_le _)
    (Nat.le_trans hsecond (Nat.le_succ 59)) (by omega)
  have hmillis : number 3 3 (digits 3 (f.nanos / 1000000)) = .ok (f.nanos / 1000000, []) := by
    rw [← List.append_nil (digits 3 _)]
    exact number_digits [] (Nat.le_refl 3) (by omega)
  have hrange : isYearInRange f.date.year = true := by
    simp only [isYearInRange, Bool.and_eq_true, decide_eq_true_eq]
    omega
  simp only [List.append_assoc, bind, Except.bind, year_yearDigits _ hy, hmonths, hdays, hhours,
    hminutes, hseconds, hmillis, List.isEmpty_nil, hrange, hvalid, Bool.and_true, if_true]
  exact congrArg Except.ok hinstant

/-! ## Sizes -/

theorem toNat_lt_of_isDigit {c : Char} (h : c.isDigit = true) : c.toNat < 128 :=
  Nat.lt_of_le_of_lt (toNat_of_isDigit h).2 (by decide)

/-- Outside the years 0 to 9999, a year is a sign and four digits or more. -/
theorem exists_yearDigits {y : Int} (hy : ¬ (0 ≤ y ∧ y ≤ 9999)) :
    ∃ sign digits, yearDigits y = sign :: digits ∧ sign.toNat < 128 ∧ 4 ≤ digits.length ∧
      ∀ c ∈ digits, c.isDigit = true := by
  rw [yearDigits, if_neg hy]
  refine ⟨_, _, rfl, by split_ifs <;> decide, ?_⟩
  split_ifs with hfour
  · rw [length_digits]
    exact ⟨Nat.le_refl 4, fun c => isDigit_of_mem_digits⟩
  · have hdigits : ¬ (Nat.toDigits 10 y.natAbs).length ≤ 4 := by
      rw [Nat.length_toDigits_le_iff (by decide) (by decide)]
      exact hfour
    exact ⟨by omega, fun c => Nat.isDigit_of_mem_toDigits (by decide) (by decide)⟩

/-- A year of the years 0 to 9999 has four characters, and any other year has more; all of them are
ASCII. -/
theorem yearDigits_spec (y : Int) : 4 ≤ (yearDigits y).length ∧
    ((yearDigits y).length = 4 ↔ 0 ≤ y ∧ y ≤ 9999) ∧ ∀ c ∈ yearDigits y, c.toNat < 128 := by
  by_cases hy : 0 ≤ y ∧ y ≤ 9999
  · rw [yearDigits, if_pos hy, length_digits]
    exact ⟨Nat.le_refl 4, iff_of_true rfl hy,
      fun c hc => toNat_lt_of_isDigit (isDigit_of_mem_digits hc)⟩
  · obtain ⟨sign, digits, heq, hsign, hlength, hdigits⟩ := exists_yearDigits hy
    rw [heq, List.length_cons, List.forall_mem_cons]
    exact ⟨by omega, iff_of_false (by omega) hy, hsign,
      fun c hc => toNat_lt_of_isDigit (hdigits c hc)⟩

/-- A timestamp has seventeen octets in the years 0 to 9999, and more in all others. -/
theorem length_encode_write (t : Instant) : 17 ≤ (Utf8.encode (write t)).length ∧
    ((Utf8.encode (write t)).length = 17 ↔
      0 ≤ (Fields.ofInstant t).date.year ∧ (Fields.ofInstant t).date.year ≤ 9999) := by
  obtain ⟨hle, heq, hyear⟩ := yearDigits_spec (Fields.ofInstant t).date.year
  have hascii : ∀ c ∈ writeChars t, c.toNat < 128 := by
    intro c hc
    simp only [writeChars, List.mem_append] at hc
    rcases hc with (((((hc | hc) | hc) | hc) | hc) | hc) | hc
    · exact hyear c hc
    all_goals exact toNat_lt_of_isDigit (isDigit_of_mem_digits hc)
  have hlength : (Utf8.encode (write t)).length
      = (yearDigits (Fields.ofInstant t).date.year).length + 13 := by
    rw [write, Utf8.length_encode_ascii hascii]
    simp only [writeChars, List.length_append, length_digits]
  rw [hlength, ← heq]
  omega

end Timestamp

namespace Instant

/-- Of the whole milliseconds not after an instant, the one that is kept is the last one. -/
theorem truncateToMillis_spec (t : Instant) : t.truncateToMillis ≤ t ∧
    ∀ millis, ofMillis millis ≤ t → ofMillis millis ≤ t.truncateToMillis := by
  have hle : ∀ a b : Instant, a ≤ b ↔ a.nanos ≤ b.nanos := fun _ _ => Iff.rfl
  simp only [hle, truncateToMillis, ofMillis, millis, nanosPerMilli]
  refine ⟨by omega, fun k hk => ?_⟩
  omega

theorem truncateToMillis_truncateToMillis (t : Instant) :
    t.truncateToMillis.truncateToMillis = t.truncateToMillis := by
  simp only [truncateToMillis, ofMillis, millis, nanosPerMilli, mk.injEq]
  omega

end Instant

end IlpConnector
