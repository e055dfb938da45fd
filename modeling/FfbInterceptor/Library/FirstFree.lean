import Mathlib.Data.Finset.Card
import Mathlib.Data.Finset.Image
import Mathlib.Data.Finset.Range

/-! Counting up to the first number that is not taken. -/
namespace FfbInterceptor.Library

variable {taken taken' : Nat → Bool}

def firstFree (taken : Nat → Bool) : Nat → Nat → Nat
  | 0, n => n
  | tries + 1, n => if taken n then firstFree taken tries (n + 1) else n

theorem firstFree_below (tries n : Nat) {i : Nat} (hi : n ≤ i) (h : i < firstFree taken tries n) :
    taken i = true := by
  induction tries generalizing n with
  | zero =>
    rw [firstFree] at h
    omega
  | succ tries ih =>
    rw [firstFree] at h
    split at h
    · next htaken =>
      rcases Nat.eq_or_lt_of_le hi with rfl | hlt
      · exact htaken
      · exact ih (n + 1) hlt h
    · omega

theorem taken_of_taken_firstFree (tries n : Nat) (h : taken (firstFree taken tries n) = true)
    {i : Nat} (hi : i ≤ tries) : taken (n + i) = true := by
  induction tries generalizing n i with
  | zero =>
    have hzero : i = 0 := by omega
    rwa [hzero, Nat.add_zero]
  | succ tries ih =>
    rw [firstFree] at h
    split at h
    · next htaken =>
      cases i with
      | zero => exact htaken
      | succ i =>
        have hrest := ih (n + 1) h (i := i) (by omega)
        rwa [Nat.add_right_comm, Nat.add_assoc] at hrest
    · next hfree => exact absurd h hfree

theorem firstFree_free {κ : Type} [DecidableEq κ] {keys : Finset κ} {name : Nat → κ}
    (hname : Function.Injective name) (htaken : ∀ i, taken i = true → name i ∈ keys) :
    taken (firstFree taken keys.card 0) = false := by
  by_contra h
  rw [Bool.not_eq_false] at h
  have hsub : (Finset.range (keys.card + 1)).image name ⊆ keys := by
    intro k hk
    obtain ⟨i, hi, rfl⟩ := Finset.mem_image.mp hk
    have hall := taken_of_taken_firstFree keys.card 0 h (i := i) (by
      rw [Finset.mem_range] at hi
      omega)
    rw [Nat.zero_add] at hall
    exact htaken i hall
  have hcard := Finset.card_le_card hsub
  rw [Finset.card_image_of_injective _ hname, Finset.card_range] at hcard
  omega

/-- How long it may search does not matter once it finds a free number. -/
theorem firstFree_eq {tries tries' : Nat} (hsame : ∀ i, taken i = taken' i)
    (h : taken (firstFree taken tries 0) = false) (h' : taken' (firstFree taken' tries' 0) = false) :
    firstFree taken tries 0 = firstFree taken' tries' 0 := by
  rcases Nat.lt_trichotomy (firstFree taken tries 0) (firstFree taken' tries' 0) with hlt | heq | hlt
  · have htaken := firstFree_below tries' 0 (Nat.zero_le _) hlt
    rw [← hsame, h] at htaken
    cases htaken
  · exact heq
  · have htaken := firstFree_below tries 0 (Nat.zero_le _) hlt
    rw [hsame, h'] at htaken
    cases htaken

end FfbInterceptor.Library
