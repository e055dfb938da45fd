import Mathlib.Algebra.Order.BigOperators.Group.List
import Mathlib.Algebra.Order.Ring.Abs
import Mathlib.Data.List.MinMax

/-! The greatest of finitely many values that are not negative, and sums cut at a bound. -/
namespace FfbInterceptor.Library
variable {ι α : Type*}

section Greatest

variable [LinearOrder α] [Zero α]

def greatest (values : List α) : α := values.foldr max 0

variable {values values' : List α} {a c : α}

theorem greatest_le_iff (hc : 0 ≤ c) : greatest values ≤ c ↔ ∀ a ∈ values, a ≤ c := by
  induction values with
  | nil => simp [greatest, hc]
  | cons a values ih => simpa [greatest] using fun _ => ih

theorem greatest_nonneg (values : List α) : 0 ≤ greatest values := by
  induction values with
  | nil => exact le_refl _
  | cons a values ih => exact ih.trans (le_max_right _ _)

theorem le_greatest (h : a ∈ values) : a ≤ greatest values :=
  (greatest_le_iff (greatest_nonneg values)).mp (le_refl _) a h

/-- Values that are not negative are the same if the same bounds hold for them. -/
theorem eq_of_bounds {b : α} (ha : 0 ≤ a) (hb : 0 ≤ b) (h : ∀ c, 0 ≤ c → (a ≤ c ↔ b ≤ c)) : a = b :=
  le_antisymm ((h b hb).mpr (le_refl b)) ((h a ha).mp (le_refl a))

theorem greatest_perm (h : values.Perm values') : greatest values = greatest values' := by
  refine eq_of_bounds (greatest_nonneg _) (greatest_nonneg _) ?_
  intro c hc
  simp only [greatest_le_iff hc, h.mem_iff]

theorem greatest_concat (values : List α) (ha : 0 ≤ a) :
    greatest (values ++ [a]) = max (greatest values) a := by
  refine eq_of_bounds (greatest_nonneg _) (ha.trans (le_max_right _ _)) ?_
  intro c hc
  simp only [greatest_le_iff hc, max_le_iff, List.forall_mem_append, List.forall_mem_singleton]

theorem greatest_mem (hne : values ≠ []) (h : ∀ a ∈ values, 0 ≤ a) : greatest values ∈ values := by
  induction values with
  | nil => exact absurd rfl hne
  | cons a values ih =>
    by_cases hlast : values = []
    · have ha : max a 0 = a := max_eq_left (h a List.mem_cons_self)
      subst hlast
      simp [greatest, ha]
    · have hrest := ih hlast fun b hb => h b (List.mem_cons_of_mem a hb)
      have hcons : greatest (a :: values) = max a (greatest values) := rfl
      rw [hcons]
      cases le_total a (greatest values) with
      | inl hle =>
        rw [max_eq_right hle]
        exact List.mem_cons_of_mem a hrest
      | inr hge =>
        rw [max_eq_left hge]
        exact List.mem_cons_self

/-- A bound cuts the greatest value where it cuts every value. -/
theorem min_greatest (hc : 0 ≤ c) (values : List α) :
    min c (greatest values) = greatest (values.map fun a => min c a) := by
  induction values with
  | nil => simp [greatest, hc]
  | cons a values ih =>
    simp only [greatest, List.map_cons, List.foldr_cons] at ih ⊢
    rw [min_max_distrib_left, ih]

end Greatest

section Sums

variable [AddCommMonoid α] [LinearOrder α] [IsOrderedAddMonoid α] {c : α} {f : ι → α}

theorem sum_map_nonneg {xs : List ι} (hf : ∀ x ∈ xs, 0 ≤ f x) : 0 ≤ (xs.map f).sum :=
  List.sum_nonneg (List.forall_mem_map.mpr hf)

theorem le_sum_map {xs : List ι} (hf : ∀ x ∈ xs, 0 ≤ f x) {x : ι} (hx : x ∈ xs) :
    f x ≤ (xs.map f).sum :=
  List.single_le_sum (List.forall_mem_map.mpr hf) (f x) (List.mem_map_of_mem hx)

/-- Terms cut at a bound give the same sum below the bound. -/
theorem min_sum_map_min (hc : 0 ≤ c) {xs : List ι} (hf : ∀ x ∈ xs, 0 ≤ f x) :
    min c (xs.map fun x => min c (f x)).sum = min c (xs.map f).sum := by
  by_cases hall : ∀ x ∈ xs, f x ≤ c
  · have hsame : (xs.map fun x => min c (f x)) = xs.map f :=
      List.map_congr_left fun x hx => min_eq_right (hall x hx)
    rw [hsame]
  · -- one term reaches the bound by itself
    simp only [not_forall, not_le] at hall
    obtain ⟨x, hx, hlarge⟩ := hall
    have hcut : min c (f x) ≤ (xs.map fun y => min c (f y)).sum :=
      le_sum_map (fun y hy => le_min hc (hf y hy)) hx
    rw [min_eq_left hlarge.le] at hcut
    rw [min_eq_left hcut, min_eq_left (hlarge.le.trans (le_sum_map hf hx))]

end Sums

theorem eq_of_sum_map_eq [AddCommMonoid α] [LinearOrder α] [IsOrderedCancelAddMonoid α] {f g : ι → α}
    {xs : List ι} (hle : ∀ x ∈ xs, f x ≤ g x) (hsum : (xs.map f).sum = (xs.map g).sum) :
    ∀ x ∈ xs, f x = g x := by
  induction xs with
  | nil => exact fun x hx => absurd hx List.not_mem_nil
  | cons x xs ih =>
    have hrest : ∀ y ∈ xs, f y ≤ g y := fun y hy => hle y (List.mem_cons_of_mem x hy)
    have hfirst := hle x List.mem_cons_self
    simp only [List.map_cons, List.sum_cons] at hsum
    obtain ⟨hx, htail⟩ :=
      (add_eq_add_iff_eq_and_eq hfirst (List.sum_le_sum hrest)).mp hsum
    intro y hy
    cases List.mem_cons.mp hy with
    | inl hself => exact hself ▸ hx
    | inr hlater => exact ih hrest htail y hlater

theorem abs_sum_map_mul_le [Ring α] [LinearOrder α] [IsStrictOrderedRing α] (weight f : ι → α)
    (hweight : ∀ x, |weight x| ≤ 1) (xs : List ι) :
    |(xs.map fun x => weight x * f x).sum| ≤ (xs.map fun x => |f x|).sum := by
  induction xs with
  | nil => simp
  | cons x xs ih =>
    simp only [List.map_cons, List.sum_cons]
    have hterm : |weight x * f x| ≤ |f x| := by
      rw [abs_mul]
      exact mul_le_of_le_one_left (abs_nonneg _) (hweight x)
    exact (abs_add_le _ _).trans (add_le_add hterm ih)

end FfbInterceptor.Library
