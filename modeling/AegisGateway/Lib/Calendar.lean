import Mathlib.Data.Nat.Find
import Mathlib.Tactic.IntervalCases

/-!
# The Gregorian calendar

The days from 1 January of the year 1 on, as the `datetime` of Python counts them: that
day has the ordinal 1. A date is one of the years 1 to 9999.
-/

namespace Calendar

/-! ## Years and months -/

def isLeap (y : Nat) : Bool := y % 4 = 0 && (y % 100 ≠ 0 || y % 400 = 0)

def daysInYear (y : Nat) : Nat := if isLeap y then 366 else 365

def daysBeforeYear (y : Nat) : Nat :=
  (y - 1) * 365 + (y - 1) / 4 - (y - 1) / 100 + (y - 1) / 400

def daysInMonth (y m : Nat) : Nat :=
  if m = 2 then if isLeap y then 29 else 28
  else if m = 4 ∨ m = 6 ∨ m = 9 ∨ m = 11 then 30 else 31

theorem daysInMonth_le (y m : Nat) : daysInMonth y m ≤ 31 := by
  unfold daysInMonth
  split_ifs <;> omega

/-- The days of the year before the month, and 365 or 366 for a thirteenth one. -/
def daysBeforeMonth (y : Nat) : Nat → Nat
  | 0 => 0
  | 1 => 0
  | m + 1 => daysBeforeMonth y m + daysInMonth y m

def ordinal (y m d : Nat) : Nat := daysBeforeYear y + daysBeforeMonth y m + d

theorem div_succ (a k : Nat) : (a + 1) / k = a / k + if (a + 1) % k = 0 then 1 else 0 := by
  simp only [Nat.succ_div, Nat.dvd_iff_mod_eq_zero]

theorem daysBeforeYear_succ {y : Nat} (hy : 1 ≤ y) :
    daysBeforeYear (y + 1) = daysBeforeYear y + daysInYear y := by
  obtain ⟨a, rfl⟩ := Nat.exists_eq_add_of_le' hy
  have hcentury : (a + 1) % 100 = 0 → (a + 1) % 4 = 0 := by omega
  have hfourth : (a + 1) % 400 = 0 → (a + 1) % 100 = 0 := by omega
  have hless : a / 100 ≤ a := Nat.div_le_self _ _
  simp only [daysBeforeYear, daysInYear, isLeap, Nat.add_sub_cancel, div_succ a 4, div_succ a 100,
    div_succ a 400]
  generalize a / 4 = q4 at hless ⊢
  generalize a / 100 = q100 at hless ⊢
  generalize a / 400 = q400 at hless ⊢
  by_cases h4 : (a + 1) % 4 = 0
  · by_cases h100 : (a + 1) % 100 = 0
    · by_cases h400 : (a + 1) % 400 = 0
      · simp only [h4, h100, h400, decide_true, decide_false, if_true, Bool.true_and, ne_eq,
          not_true_eq_false, Bool.or_true]
        omega
      · simp only [h4, h100, h400, decide_true, decide_false, if_true, if_false, Bool.true_and,
          ne_eq, not_true_eq_false, Bool.or_false, Bool.false_eq_true]
        omega
    · have h400 := mt hfourth h100
      simp only [h4, h100, h400, decide_true, decide_false, if_true, if_false, Bool.true_and,
        ne_eq, not_false_eq_true, Bool.or_false]
      omega
  · have h100 := mt hcentury h4
    have h400 := mt hfourth h100
    simp only [h4, h100, h400, decide_false, if_false, Bool.false_and, Bool.false_eq_true]
    omega

theorem daysBeforeYear_mono {y y' : Nat} (hy : 1 ≤ y) (h : y ≤ y') :
    daysBeforeYear y ≤ daysBeforeYear y' := by
  induction y', h using Nat.le_induction with
  | base => exact le_rfl
  | succ y' hle ih =>
    rw [daysBeforeYear_succ (hy.trans hle)]
    omega

theorem le_daysBeforeYear (y : Nat) : (y - 1) * 365 ≤ daysBeforeYear y := by
  unfold daysBeforeYear
  omega

theorem daysBeforeMonth_succ {y m : Nat} (hm : 1 ≤ m) :
    daysBeforeMonth y (m + 1) = daysBeforeMonth y m + daysInMonth y m := by
  obtain ⟨m, rfl⟩ := Nat.exists_eq_add_of_le' hm
  rfl

theorem daysBeforeMonth_mono {y m m' : Nat} (hm : 1 ≤ m) (h : m ≤ m') :
    daysBeforeMonth y m ≤ daysBeforeMonth y m' := by
  induction m', h using Nat.le_induction with
  | base => exact le_rfl
  | succ m' hle ih =>
    rw [daysBeforeMonth_succ (hm.trans hle)]
    omega

theorem daysBeforeMonth_year (y : Nat) : daysBeforeMonth y 13 = daysInYear y := by
  unfold daysInYear
  cases h : isLeap y <;> simp [daysBeforeMonth, daysInMonth, h]

/-! ## Dates -/

structure ValidDate (y m d : Nat) : Prop where
  year : 1 ≤ y ∧ y ≤ 9999
  month : 1 ≤ m ∧ m ≤ 12
  day : 1 ≤ d ∧ d ≤ daysInMonth y m

theorem ValidDate.dayOfYear {y m d : Nat} (h : ValidDate y m d) :
    1 ≤ daysBeforeMonth y m + d ∧ daysBeforeMonth y m + d ≤ daysInYear y := by
  have hmonth := @daysBeforeMonth_succ y m h.month.1
  have hyear := @daysBeforeMonth_mono y (m + 1) 13 (by omega) (Nat.succ_le_succ h.month.2)
  have hday := h.day
  rw [daysBeforeMonth_year] at hyear
  omega

theorem ordinal_lt_of_year {y m d y' m' d' : Nat} (h : ValidDate y m d) (h' : ValidDate y' m' d')
    (hlt : y < y') : ordinal y m d < ordinal y' m' d' := by
  have hyear := h.dayOfYear
  have hyear' := h'.dayOfYear
  have hmono := daysBeforeYear_mono (Nat.succ_pos y) (Nat.succ_le_of_lt hlt)
  rw [Nat.succ_eq_add_one, daysBeforeYear_succ h.year.1] at hmono
  unfold ordinal
  omega

theorem ordinal_lt_of_month {y m d m' d' : Nat} (h : ValidDate y m d) (h' : ValidDate y m' d')
    (hlt : m < m') : ordinal y m d < ordinal y m' d' := by
  have hmono := @daysBeforeMonth_mono y (m + 1) m' (Nat.succ_pos m) hlt
  have hday := h.day
  have hday' := h'.day
  rw [daysBeforeMonth_succ h.month.1] at hmono
  unfold ordinal
  omega

def maxOrdinal : Nat := 3652059

theorem maxOrdinal_eq : daysBeforeYear 10000 = maxOrdinal := by decide

theorem ordinal_bounds {y m d : Nat} (h : ValidDate y m d) :
    1 ≤ ordinal y m d ∧ ordinal y m d ≤ maxOrdinal := by
  have hyear := h.dayOfYear
  have hmono := daysBeforeYear_mono (Nat.succ_pos y) (Nat.succ_le_succ h.year.2)
  rw [Nat.succ_eq_add_one, daysBeforeYear_succ h.year.1, maxOrdinal_eq] at hmono
  unfold ordinal
  omega

/-! ## The date of a day -/

def yearOf (n : Nat) : Nat := Nat.findGreatest (fun y => daysBeforeYear y < n) (n / 365 + 1)

def monthOf (y k : Nat) : Nat := Nat.findGreatest (fun m => daysBeforeMonth y m < k) 12

theorem yearOf_spec {n : Nat} (hn : 1 ≤ n) : 1 ≤ yearOf n ∧
    daysBeforeYear (yearOf n) < n ∧ n ≤ daysBeforeYear (yearOf n + 1) := by
  have hone : daysBeforeYear 1 < n := by
    simpa [daysBeforeYear] using Nat.pos_of_ne_zero (Nat.one_le_iff_ne_zero.mp hn)
  have hle : 1 ≤ yearOf n := Nat.le_findGreatest (Nat.succ_pos _) hone
  have hlt : daysBeforeYear (yearOf n) < n :=
    Nat.findGreatest_spec (P := fun y => daysBeforeYear y < n) (Nat.succ_pos (n / 365)) hone
  refine ⟨hle, hlt, ?_⟩
  by_contra hnext
  have hbelow := le_daysBeforeYear (yearOf n + 1)
  have hbound : yearOf n + 1 ≤ n / 365 + 1 := by omega
  have hmax : yearOf n + 1 ≤ yearOf n := Nat.le_findGreatest hbound (by omega)
  omega

theorem monthOf_spec {y k : Nat} (hk : 1 ≤ k) (hk' : k ≤ daysInYear y) :
    (1 ≤ monthOf y k ∧ monthOf y k ≤ 12) ∧
      daysBeforeMonth y (monthOf y k) < k ∧ k ≤ daysBeforeMonth y (monthOf y k + 1) := by
  have hone : daysBeforeMonth y 1 < k := by
    simpa [daysBeforeMonth] using Nat.pos_of_ne_zero (Nat.one_le_iff_ne_zero.mp hk)
  have hle : 1 ≤ monthOf y k := Nat.le_findGreatest (by decide) hone
  have hlt : daysBeforeMonth y (monthOf y k) < k :=
    Nat.findGreatest_spec (P := fun m => daysBeforeMonth y m < k) (by decide) hone
  have hmonth : monthOf y k ≤ 12 := Nat.findGreatest_le 12
  refine ⟨⟨hle, hmonth⟩, hlt, ?_⟩
  by_contra hnext
  rcases Nat.lt_or_ge (monthOf y k) 12 with hless | hlast
  · have hmax : monthOf y k + 1 ≤ monthOf y k := Nat.le_findGreatest hless (by omega)
    omega
  · obtain hlast : monthOf y k = 12 := le_antisymm hmonth hlast
    rw [hlast, daysBeforeMonth_year] at hnext
    exact hnext hk'

theorem exists_date {n : Nat} (hn : 1 ≤ n) (hn' : n ≤ maxOrdinal) :
    let y := yearOf n
    let m := monthOf y (n - daysBeforeYear y)
    let d := n - daysBeforeYear y - daysBeforeMonth y m
    ValidDate y m d ∧ ordinal y m d = n := by
  intro y m d
  obtain ⟨hyear, hlow, hhigh⟩ := yearOf_spec hn
  have hyear' : y ≤ 9999 := by
    by_contra hlarge
    have hmono := daysBeforeYear_mono (y := 10000) (by decide) (show 10000 ≤ y by omega)
    rw [maxOrdinal_eq] at hmono
    have hlow : daysBeforeYear y < n := hlow
    omega
  rw [daysBeforeYear_succ hyear] at hhigh
  obtain ⟨hmonth, hbefore, hafter⟩ := @monthOf_spec y (n - daysBeforeYear y)
    (Nat.sub_pos_of_lt hlow) (Nat.sub_le_iff_le_add'.mpr hhigh)
  rw [daysBeforeMonth_succ hmonth.1] at hafter
  have hbefore : daysBeforeMonth y m < n - daysBeforeYear y := hbefore
  have hafter : n - daysBeforeYear y ≤ daysBeforeMonth y m + daysInMonth y m := hafter
  have hd : d = n - daysBeforeYear y - daysBeforeMonth y m := rfl
  refine ⟨⟨⟨hyear, hyear'⟩, hmonth, by omega⟩, ?_⟩
  unfold ordinal
  omega

end Calendar
