import Mathlib.Algebra.Order.Field.Basic
import Mathlib.Algebra.BigOperators.Ring.List
import Mathlib.Algebra.Order.BigOperators.Group.List

/-! Weighted means of lists. -/
namespace FfbInterceptor.Library

variable {K : Type} [Field K] [LinearOrder K] [IsStrictOrderedRing K]

abbrev Weighted (K : Type) := List (K × K)

namespace Weighted

variable {terms : Weighted K} {value bound : K}

def sum (terms : Weighted K) : K := (List.map (fun term => term.1 * term.2) terms).sum

def total (terms : Weighted K) : K := (List.map Prod.fst terms).sum

theorem sum_nonneg (h : ∀ term ∈ terms, 0 ≤ term.1 ∧ 0 ≤ term.2) : 0 ≤ terms.sum := by
  apply List.sum_nonneg
  intro x hx
  obtain ⟨term, hterm, rfl⟩ := List.mem_map.mp hx
  exact mul_nonneg (h term hterm).1 (h term hterm).2

theorem total_nonneg (h : ∀ term ∈ terms, 0 ≤ term.1) : 0 ≤ terms.total := by
  apply List.sum_nonneg
  intro x hx
  obtain ⟨term, hterm, rfl⟩ := List.mem_map.mp hx
  exact h term hterm

theorem sum_le (h : ∀ term ∈ terms, 0 ≤ term.1 ∧ term.2 ≤ bound) : terms.sum ≤ bound * terms.total := by
  have hterms : terms.sum ≤ (List.map (fun term => bound * term.1) terms).sum := by
    apply List.sum_le_sum
    intro term hterm
    rw [mul_comm bound]
    exact mul_le_mul_of_nonneg_left (h term hterm).2 (h term hterm).1
  rwa [List.sum_map_mul_left] at hterms

omit [LinearOrder K] [IsStrictOrderedRing K] in
theorem sum_of_const (h : ∀ term ∈ terms, term.2 = value) : terms.sum = value * terms.total := by
  have hterms : terms.sum = (List.map (fun term => value * term.1) terms).sum := by
    apply congrArg List.sum
    apply List.map_congr_left
    intro term hterm
    rw [h term hterm, mul_comm]
  rwa [List.sum_map_mul_left] at hterms

/-- A mean lies between zero and every bound of the values. -/
theorem mean_range (h : ∀ term ∈ terms, 0 ≤ term.1 ∧ 0 ≤ term.2 ∧ term.2 ≤ bound)
    (htotal : 0 < terms.total) : 0 ≤ terms.sum / terms.total ∧ terms.sum / terms.total ≤ bound := by
  constructor
  · exact div_nonneg (sum_nonneg fun term hterm => ⟨(h term hterm).1, (h term hterm).2.1⟩) htotal.le
  · rw [div_le_iff₀ htotal]
    exact sum_le fun term hterm => ⟨(h term hterm).1, (h term hterm).2.2⟩

omit [LinearOrder K] [IsStrictOrderedRing K] in
theorem mean_of_const (h : ∀ term ∈ terms, term.2 = value) (htotal : terms.total ≠ 0) :
    terms.sum / terms.total = value := by
  rw [sum_of_const h, mul_div_assoc, div_self htotal, mul_one]

end Weighted

end FfbInterceptor.Library
