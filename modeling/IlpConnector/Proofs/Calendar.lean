import IlpConnector.Time.Calendar
import Mathlib.Algebra.BigOperators.Group.List.Basic
import Mathlib.Algebra.Ring.Nat
import Mathlib.Tactic.Common

/-!
# Days and dates

Every day has a date that the calendar has, and the date tells the day (`Date.ofDayNumber_spec`).
-/

namespace IlpConnector.Date

/-! ## Years -/

/-- A leap year has one day more than other years. -/
theorem daysBeforeYear_succ (year : Int) : daysBeforeYear (year + 1)
    = daysBeforeYear year + if isLeapYear year = true then 366 else 365 := by
  unfold daysBeforeYear isLeapYear
  simp only [Bool.and_eq_true, Bool.or_eq_true, beq_iff_eq, bne_iff_ne]
  split_ifs with h <;> omega

theorem yearOfDay_spec (n : Int) :
    daysBeforeYear (yearOfDay n) ≤ n ∧ n < daysBeforeYear (yearOfDay n + 1) := by
  unfold yearOfDay
  dsimp only
  split_ifs with h₁ h₂ <;> simp only [daysBeforeYear] at * <;> omega

/-! ## Months -/

theorem sum_monthLengths (leap : Bool) :
    (monthLengths leap).sum = if leap = true then 366 else 365 := by
  cases leap <;> rfl

/-- A day of so many months is in one of them. -/
theorem monthAndDay_spec (month : Nat) (lengths : List Nat) (n : Nat) (h : n < lengths.sum) :
    ∃ k day, monthAndDay month lengths n = (month + k, day + 1) ∧ k < lengths.length ∧
      day < lengths.getD k 0 ∧ n = (lengths.take k).sum + day := by
  induction lengths generalizing month n with
  | nil => cases h
  | cons l ls ih =>
    rw [monthAndDay]
    split_ifs with hl
    · exact ⟨0, n, rfl, Nat.succ_pos _, hl, by simp⟩
    · rw [List.sum_cons] at h
      obtain ⟨k, day, hmd, hk, hday, hn⟩ := ih (month + 1) (n - l) (by omega)
      refine ⟨k + 1, day, ?_, Nat.succ_lt_succ hk, hday, ?_⟩
      · rw [hmd, Nat.add_assoc, Nat.add_comm 1 k]
      · rw [List.take_succ_cons, List.sum_cons, Nat.add_assoc, ← hn]
        omega

/-! ## Dates -/

theorem monthLength_le (year : Int) (month : Nat) : monthLength year month ≤ 31 := by
  have hall : ∀ leap, ∀ l ∈ monthLengths leap, l ≤ 31 := by decide
  unfold monthLength
  rw [List.getD_eq_getElem?_getD]
  cases h : (monthLengths (isLeapYear year))[month - 1]? with
  | none => exact Nat.zero_le _
  | some l => exact hall _ l (List.mem_of_getElem? h)

theorem bounds_of_isValid {d : Date} (h : d.isValid = true) :
    1 ≤ d.month ∧ d.month ≤ 12 ∧ 1 ≤ d.day ∧ d.day ≤ 31 := by
  simp only [isValid, Bool.and_eq_true, decide_eq_true_eq] at h
  have hle := monthLength_le d.year d.month
  omega

/-- The date of a day is one that the calendar has, and it tells the day. -/
theorem ofDayNumber_spec (n : Int) :
    (ofDayNumber n).isValid = true ∧ (ofDayNumber n).dayNumber = n := by
  obtain ⟨hstart, hend⟩ := yearOfDay_spec (n + epochDay)
  set year := yearOfDay (n + epochDay) with hyear
  rw [daysBeforeYear_succ] at hend
  obtain ⟨k, day, hmd, hk, hday, hn⟩ := monthAndDay_spec 1 (monthLengths (isLeapYear year))
    (n + epochDay - daysBeforeYear year).toNat (by
      rw [sum_monthLengths]
      split_ifs at hend ⊢ <;> omega)
  have hdate : ofDayNumber n = ⟨year, 1 + k, day + 1⟩ := by
    unfold ofDayNumber
    dsimp only
    rw [← hyear, hmd]
  have hlength : (monthLengths (isLeapYear year)).length = 12 := rfl
  rw [hdate]
  constructor
  · simp only [isValid, monthLength, Bool.and_eq_true, decide_eq_true_eq, Nat.add_sub_cancel_left]
    omega
  · unfold dayNumber daysBeforeMonth
    dsimp only
    rw [← List.sum_eq_foldl, Nat.add_sub_cancel_left]
    omega

end IlpConnector.Date
