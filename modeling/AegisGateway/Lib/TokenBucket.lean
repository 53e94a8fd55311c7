import Mathlib.Algebra.BigOperators.Group.List.Basic
import Mathlib.Algebra.Order.Field.Basic
import Mathlib.Tactic.Linarith
import Mathlib.Tactic.Ring

/-!
# Token buckets

What a bucket has left depends on the grants made from it only, and is the least that
any window since one of them leaves over.
-/

namespace TokenBucket

variable {K : Type} [Field K]

structure Grant (K : Type) where
  time : K
  amount : K

def total (gs : List (Grant K)) : K := (gs.map (·.amount)).sum

@[simp]
theorem total_nil : total ([] : List (Grant K)) = 0 := rfl

@[simp]
theorem total_cons (g : Grant K) (gs : List (Grant K)) : total (g :: gs) = g.amount + total gs := by
  simp [total]

variable [LinearOrder K] {burst rate : K}

/-- What a level has become after `elapsed`. -/
def refill (burst rate level elapsed : K) : K := min burst (level + elapsed * rate)

/-- What a full bucket has left at `t`, after these grants, the newest first. -/
def room (burst rate : K) : List (Grant K) → K → K
  | [], _ => burst
  | g :: gs, t => refill burst rate (room burst rate gs g.time - g.amount) (t - g.time)

theorem room_le (gs : List (Grant K)) (t : K) : room burst rate gs t ≤ burst := by
  cases gs with
  | nil => exact le_rfl
  | cons g gs => exact min_le_left _ _

/-- Another `x` at `t` keeps every window that begins with one of the grants within its bound. -/
def Fits (burst rate : K) (gs : List (Grant K)) (t x : K) : Prop :=
  ∀ newer g older, gs = newer ++ g :: older →
    x + (total newer + g.amount) ≤ burst + rate * (t - g.time)

theorem fits_nil (t x : K) : Fits burst rate [] t x := by
  intro newer g older h
  simp at h

variable [IsStrictOrderedRing K]

theorem refill_refill (hrate : 0 ≤ rate) {level d d' : K} (hd : 0 ≤ d') :
    refill burst rate (refill burst rate level d) d' = refill burst rate level (d + d') := by
  have hflow : 0 ≤ d' * rate := mul_nonneg hd hrate
  unfold refill
  rw [min_add, ← min_assoc, min_eq_left (le_add_of_nonneg_right hflow), add_mul, add_assoc]

theorem refill_room (hrate : 0 ≤ rate) (gs : List (Grant K)) {t t' : K} (h : t ≤ t') :
    refill burst rate (room burst rate gs t) (t' - t) = room burst rate gs t' := by
  cases gs with
  | nil =>
    have hflow : 0 ≤ (t' - t) * rate := mul_nonneg (sub_nonneg.mpr h) hrate
    exact min_eq_left (le_add_of_nonneg_right hflow)
  | cons g gs =>
    unfold room
    rw [refill_refill hrate (sub_nonneg.mpr h), sub_add_sub_cancel']

theorem fits_cons {g : Grant K} {gs : List (Grant K)} {t x : K} :
    Fits burst rate (g :: gs) t x ↔ x + g.amount ≤ burst + rate * (t - g.time) ∧
      Fits burst rate gs g.time (x + g.amount - rate * (t - g.time)) := by
  constructor
  · intro h
    refine ⟨by simpa using h [] g gs rfl, fun newer g' older hgs => ?_⟩
    have := h (g :: newer) g' older (by simp [hgs])
    rw [total_cons] at this
    linarith
  · rintro ⟨hg, hgs⟩ (_ | ⟨g', newer⟩) g'' older h
    · obtain ⟨rfl, rfl⟩ := List.cons.inj h
      simpa using hg
    · obtain ⟨rfl, hold⟩ := List.cons.inj h
      have := hgs newer g'' older hold
      rw [total_cons]
      linarith

/-- The law of the bucket. -/
theorem le_room_iff {gs : List (Grant K)} {t x : K} :
    x ≤ room burst rate gs t ↔ x ≤ burst ∧ Fits burst rate gs t x := by
  induction gs generalizing t x with
  | nil => simp [room, fits_nil]
  | cons g gs ih =>
    have hflow : x ≤ room burst rate gs g.time - g.amount + (t - g.time) * rate ↔
        x + g.amount - rate * (t - g.time) ≤ room burst rate gs g.time := by
      constructor <;> intro h <;> linarith
    have hburst : x + g.amount - rate * (t - g.time) ≤ burst ↔
        x + g.amount ≤ burst + rate * (t - g.time) := sub_le_iff_le_add
    rw [room, refill, le_min_iff, hflow, ih, hburst, fits_cons]

/-! ## Histories -/

/-- Each grant was there for the taking when it was made, and none is newer than one before it. -/
inductive Granted (burst rate : K) : List (Grant K) → Prop
  | nil : Granted burst rate []
  | cons {g : Grant K} {gs : List (Grant K)} (h : Granted burst rate gs)
      (hle : g.amount ≤ room burst rate gs g.time) (hlast : ∀ g' ∈ gs, g'.time ≤ g.time) :
      Granted burst rate (g :: gs)

theorem room_nonneg (hburst : 0 ≤ burst) (hrate : 0 ≤ rate) {gs : List (Grant K)}
    (h : Granted burst rate gs) {t : K} (ht : ∀ g ∈ gs, g.time ≤ t) : 0 ≤ room burst rate gs t := by
  cases h with
  | nil => exact hburst
  | @cons g gs h hle hlast =>
    have hflow : 0 ≤ (t - g.time) * rate :=
      mul_nonneg (sub_nonneg.mpr (ht g (by simp))) hrate
    exact le_min hburst (add_nonneg (sub_nonneg.mpr hle) hflow)

/-- What is granted from `a` on, with another `x` that fits, is within the bound of that window. -/
theorem window_le_of_fits (hrate : 0 ≤ rate) {gs : List (Grant K)} (h : Granted burst rate gs)
    {a t x : K} (hx : x ≤ burst) (hfits : Fits burst rate gs t x) (hat : a ≤ t) :
    x + total (gs.filter fun g => a ≤ g.time) ≤ burst + rate * (t - a) := by
  induction h generalizing t x with
  | nil =>
    have hflow : 0 ≤ rate * (t - a) := mul_nonneg hrate (sub_nonneg.mpr hat)
    simpa using hx.trans (le_add_of_nonneg_right hflow)
  | @cons g gs h hle hlast ih =>
    obtain ⟨hg, hgs⟩ := fits_cons.mp hfits
    by_cases ha : a ≤ g.time
    · have := ih (sub_le_iff_le_add.mpr hg) hgs ha
      rw [List.filter_cons_of_pos (by simpa using ha), total_cons]
      linarith
    · have hnone : gs.filter (fun g => a ≤ g.time) = [] := by
        rw [List.filter_eq_nil_iff]
        intro g' hg' hag
        exact ha ((of_decide_eq_true hag).trans (hlast g' hg'))
      rw [List.filter_cons_of_neg (by simpa using ha), hnone]
      have hflow : 0 ≤ rate * (t - a) := mul_nonneg hrate (sub_nonneg.mpr hat)
      simpa using hx.trans (le_add_of_nonneg_right hflow)

/-- No window of any length gets more than its bound. -/
theorem window_le (hburst : 0 ≤ burst) (hrate : 0 ≤ rate) {gs : List (Grant K)}
    (h : Granted burst rate gs) {a b : K} (hab : a ≤ b) :
    total (gs.filter fun g => a ≤ g.time ∧ g.time ≤ b) ≤ burst + rate * (b - a) := by
  induction h with
  | nil =>
    have hflow : 0 ≤ rate * (b - a) := mul_nonneg hrate (sub_nonneg.mpr hab)
    simpa using add_nonneg hburst hflow
  | @cons g gs h hle hlast ih =>
    by_cases hg : a ≤ g.time ∧ g.time ≤ b
    · -- from the newest grant of the window on, its end no longer matters
      have hfilter : gs.filter (fun g => a ≤ g.time ∧ g.time ≤ b) =
          gs.filter fun g => a ≤ g.time := by
        apply List.filter_congr
        intro g' hg'
        simp [(hlast g' hg').trans hg.2]
      obtain ⟨hx, hfits⟩ := le_room_iff.mp hle
      have := window_le_of_fits hrate h hx hfits hg.1
      have hlen : rate * (g.time - a) ≤ rate * (b - a) :=
        mul_le_mul_of_nonneg_left (sub_le_sub_right hg.2 a) hrate
      rw [List.filter_cons_of_pos (by simpa using hg), total_cons, hfilter]
      linarith
    · rw [List.filter_cons_of_neg (by simpa using hg)]
      exact ih

end TokenBucket
