import Mathlib.Algebra.Order.Group.MinMax
import Mathlib.Data.List.Chain
import Mathlib.Tactic.Abel

/-! Sampled signals that hold their last level until the next sample. A trace lists its samples
newest first. -/
namespace FfbInterceptor.Library

structure Sample (𝕜 α : Type*) where
  time : 𝕜
  level : α

namespace Holding
variable {𝕜 α : Type*} [AddCommGroup 𝕜] [LinearOrder 𝕜]

/-- How long the levels have been satisfying `p` without a break, up to the newest sample. -/
def lasting (p : α → Bool) : List (Sample 𝕜 α) → 𝕜
  | next :: last :: past =>
    if p last.level then next.time - last.time + lasting p (last :: past) else 0
  | _ => 0

/-- How long the levels satisfied `p` between `start` and the newest sample. -/
def occupied (p : α → Bool) (start : 𝕜) : List (Sample 𝕜 α) → 𝕜
  | next :: last :: past =>
    (if p last.level then max 0 (next.time - max last.time start) else 0) +
      occupied p start (last :: past)
  | _ => 0

def Increasing (trace : List (Sample 𝕜 α)) : Prop := trace.IsChain fun next last => last.time < next.time

variable {p : α → Bool} {start : 𝕜} {trace past : List (Sample 𝕜 α)} {next last : Sample 𝕜 α}

omit [LinearOrder 𝕜] in
@[simp] theorem lasting_single (p : α → Bool) (only : Sample 𝕜 α) : lasting p [only] = 0 := rfl

@[simp] theorem occupied_single (p : α → Bool) (start : 𝕜) (only : Sample 𝕜 α) :
    occupied p start [only] = 0 := rfl

omit [LinearOrder 𝕜] in
theorem lasting_cons (p : α → Bool) (next last : Sample 𝕜 α) (past : List (Sample 𝕜 α)) :
    lasting p (next :: last :: past) =
      if p last.level then next.time - last.time + lasting p (last :: past) else 0 := rfl

theorem occupied_cons (p : α → Bool) (start : 𝕜) (next last : Sample 𝕜 α) (past : List (Sample 𝕜 α)) :
    occupied p start (next :: last :: past) =
      (if p last.level then max 0 (next.time - max last.time start) else 0) +
        occupied p start (last :: past) := rfl

omit [AddCommGroup 𝕜] in
theorem Increasing.tail (h : Increasing (next :: past)) : Increasing past := List.IsChain.tail h

omit [AddCommGroup 𝕜] in
theorem Increasing.lt (h : Increasing (next :: last :: past)) : last.time < next.time :=
  (List.isChain_cons_cons.mp h).1

variable [IsOrderedAddMonoid 𝕜]

theorem occupied_nonneg (p : α → Bool) (start : 𝕜) (trace : List (Sample 𝕜 α)) :
    0 ≤ occupied p start trace := by
  induction trace with
  | nil => exact le_refl 0
  | cons next past ih =>
    cases past with
    | nil => exact le_refl 0
    | cons last past =>
      rw [occupied_cons]
      refine add_nonneg ?_ ih
      split
      · exact le_max_left _ _
      · exact le_refl 0

/-- Nothing counts before the start. -/
theorem occupied_of_le (h : Increasing (next :: past)) (hle : next.time ≤ start) :
    occupied p start (next :: past) = 0 := by
  induction past generalizing next with
  | nil => rfl
  | cons last past ih =>
    rw [occupied_cons, ih h.tail (h.lt.le.trans hle), add_zero]
    split
    · rw [max_eq_left]
      exact sub_nonpos.mpr (hle.trans (le_max_right _ _))
    · rfl

theorem occupied_le (h : Increasing (next :: past)) :
    occupied p start (next :: past) ≤ max 0 (next.time - start) := by
  induction past generalizing next with
  | nil => exact le_max_left _ _
  | cons last past ih =>
    rw [occupied_cons]
    cases le_total last.time start with
    | inl hbefore =>
      rw [occupied_of_le h.tail hbefore, add_zero, max_eq_right hbefore]
      split
      · exact le_refl _
      · exact le_max_left _ _
    | inr hafter =>
      have hrest := ih h.tail
      rw [max_eq_right (sub_nonneg.mpr hafter)] at hrest
      have hnext : 0 ≤ next.time - last.time := sub_nonneg.mpr h.lt.le
      have hsplit : next.time - start = next.time - last.time + (last.time - start) :=
        (sub_add_sub_cancel _ _ _).symm
      rw [max_eq_left hafter, max_eq_right hnext,
        max_eq_right (sub_nonneg.mpr (hafter.trans h.lt.le)), hsplit]
      refine add_le_add ?_ hrest
      split
      · exact le_refl _
      · exact hnext

end Holding

end FfbInterceptor.Library
