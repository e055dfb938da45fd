import Mathlib.Algebra.BigOperators.Group.List.Basic
import Mathlib.Algebra.GroupWithZero.Nat
import Mathlib.Data.List.Nodup
import Mathlib.Logic.Function.Basic

/-! Reference-counted objects, some of them named by a list: a counter that wraps, the
references really held, and the one destruction that follows the last of them. -/
namespace FfbInterceptor.Library.Lifetimes

section Totals
variable {α : Type*} (f : α → Nat)

def total (xs : List α) : Nat := (xs.map f).sum

@[simp] theorem total_nil : total f [] = 0 := rfl

@[simp] theorem total_cons (x : α) (xs : List α) : total f (x :: xs) = f x + total f xs := by
  simp only [total, List.map_cons, List.sum_cons]

theorem total_concat (xs : List α) (x : α) : total f (xs ++ [x]) = total f xs + f x := by
  simp only [total, List.map_append, List.map_cons, List.map_nil, List.sum_append, List.sum_cons,
    List.sum_nil, Nat.add_zero]

theorem total_set {xs : List α} {i : Nat} {x : α} (h : xs[i]? = some x) (y : α) :
    total f (xs.set i y) + f x = total f xs + f y := by
  induction xs generalizing i with
  | nil => simp at h
  | cons z zs ih =>
    cases i with
    | zero =>
      simp only [List.getElem?_cons_zero, Option.some.injEq] at h
      simp only [List.set_cons_zero, total_cons, h]
      omega
    | succ i =>
      have hrest := ih (by simpa using h)
      simp only [List.set_cons_succ, total_cons]
      omega

theorem le_total {xs : List α} {x : α} (h : x ∈ xs) : f x ≤ total f xs := by
  induction xs with
  | nil => simp at h
  | cons y ys ih =>
    rw [total_cons]
    cases List.mem_cons.mp h with
    | inl hxy => subst hxy; omega
    | inr hmem => have := ih hmem; omega

theorem add_le_total {xs : List α} {i j : Nat} {x y : α} (hi : xs[i]? = some x) (hj : xs[j]? = some y)
    (hne : i ≠ j) : f x + f y ≤ total f xs := by
  induction xs generalizing i j with
  | nil => simp at hi
  | cons z zs ih =>
    rw [total_cons]
    cases i with
    | zero =>
      cases j with
      | zero => exact absurd rfl hne
      | succ j =>
        have hmem := le_total f (List.mem_of_getElem? (by simpa using hj : zs[j]? = some y))
        simp only [List.getElem?_cons_zero, Option.some.injEq] at hi
        subst hi; omega
    | succ i =>
      cases j with
      | zero =>
        have hmem := le_total f (List.mem_of_getElem? (by simpa using hi : zs[i]? = some x))
        simp only [List.getElem?_cons_zero, Option.some.injEq] at hj
        subst hj; omega
      | succ j =>
        have := ih (by simpa using hi) (by simpa using hj) (by omega)
        omega

theorem total_le {f g : α → Nat} {xs : List α} (h : ∀ x ∈ xs, f x ≤ g x) : total f xs ≤ total g xs := by
  induction xs with
  | nil => exact Nat.le_refl _
  | cons x xs ih =>
    have hhead := h x List.mem_cons_self
    have htail := ih fun y hy => h y (List.mem_cons_of_mem _ hy)
    simp only [total_cons]
    omega

theorem total_eq_zero {xs : List α} (h : ∀ x ∈ xs, f x = 0) : total f xs = 0 := by
  induction xs with
  | nil => rfl
  | cons x xs ih =>
    rw [total_cons, h x List.mem_cons_self, ih fun y hy => h y (List.mem_cons_of_mem _ hy)]

end Totals

section Counters
variable {α : Type*} [DecidableEq α]

/-- What a pointer adds to the count of an object: 1 for its own, 0 for any other and for null. -/
def one (o : Option α) (x : α) : Nat := if o = some x then 1 else 0

@[simp] theorem one_none (x : α) : one none x = 0 := rfl

@[simp] theorem one_self (x : α) : one (some x) x = 1 := if_pos rfl

theorem one_of_ne {a x : α} (h : x ≠ a) : one (some a) x = 0 :=
  if_neg fun heq => h (Option.some.inj heq).symm

theorem one_le {f : α → Nat} {a : α} (h : 0 < f a) (x : α) : one (some a) x ≤ f x := by
  by_cases heq : x = a
  · subst heq; rw [one_self]; exact h
  · rw [one_of_ne heq]; exact Nat.zero_le _

theorem sub_one_of_zero {f : α → Nat} {a : α} (h : f a = 0) (x : α) : f x - one (some a) x = f x := by
  by_cases heq : x = a
  · subst heq; omega
  · rw [one_of_ne heq, Nat.sub_zero]

theorem update_succ (f : α → Nat) (a x : α) : Function.update f a (f a + 1) x = f x + one (some a) x := by
  by_cases h : x = a
  · subst h; rw [Function.update_self, one_self]
  · rw [Function.update_of_ne h, one_of_ne h, Nat.add_zero]

theorem update_pred (f : α → Nat) (a x : α) : Function.update f a (f a - 1) x = f x - one (some a) x := by
  by_cases h : x = a
  · subst h; rw [Function.update_self, one_self]
  · rw [Function.update_of_ne h, one_of_ne h, Nat.sub_zero]

end Counters

/-- Numbered objects: the counter of each, the list that names the published ones, and, as the
observer counts them, the references held, the constructors that still have the object to
themselves, the destructions under way and those over, and the objects started. -/
@[ext] structure Lives where
  count : Nat → UInt32
  listed : List Nat
  held : Nat → Nat
  unlisted : Nat → Nat
  ending : Nat → Nat
  ended : Nat → Nat
  started : Nat

namespace Lives
open Function

variable (l : Lives) (b : Nat)

/-- A constructor makes the next object, with the one reference it holds itself. -/
def start : Lives :=
  { l with
    count := update l.count l.started 1
    held := update l.held l.started 1
    unlisted := update l.unlisted l.started 1
    started := l.started + 1 }

def take : Lives :=
  { l with
    count := update l.count b (l.count b + 1)
    held := update l.held b (l.held b + 1) }

/-- The constructor names its object in the list. -/
def publish : Lives :=
  { l with
    listed := b :: l.listed
    unlisted := update l.unlisted b (l.unlisted b - 1) }

/-- One reference less; the counter that comes to 0 takes the object off the list and starts its
destruction. -/
def give : Lives :=
  { l with
    count := update l.count b (l.count b - 1)
    held := update l.held b (l.held b - 1)
    listed := if l.count b - 1 = 0 then l.listed.erase b else l.listed
    ending := if l.count b - 1 = 0 then update l.ending b (l.ending b + 1) else l.ending }

/-- One reference less; a constructor that gives up its own is over. -/
def abandon : Lives := { l with unlisted := update l.unlisted b (l.unlisted b - 1) }.give b

theorem ending_give (x : Nat) : (l.give b).ending x =
    l.ending x + if l.count b - 1 = 0 then one (some b) x else 0 := by
  unfold give
  by_cases hlast : l.count b - 1 = 0
  · simp only [if_pos hlast, update_succ]
  · simp only [if_neg hlast, Nat.add_zero]

def finish : Lives :=
  { l with
    count := update l.count b 0
    ending := update l.ending b (l.ending b - 1)
    ended := update l.ended b (l.ended b + 1) }

/-- The counters count, listed objects are referenced, and an object is ended once, when nobody
holds it any more. -/
structure Sound : Prop where
  counted : ∀ b, l.count b = UInt32.ofNat (l.held b)
  listed_held : ∀ b ∈ l.listed, 0 < l.held b
  once : ∀ b, l.unlisted b + l.listed.count b ≤ 1
  alone : ∀ b, 0 < l.unlisted b → l.held b = 1
  ends : ∀ b, l.ending b + l.ended b = if b < l.started ∧ l.held b = 0 then 1 else 0
  unstarted : ∀ b, l.started ≤ b → l.held b = 0

variable {l b}

namespace Sound

theorem nodup (h : l.Sound) : l.listed.Nodup := by
  rw [List.nodup_iff_count_le_one]
  intro c
  have := h.once c
  omega

theorem not_listed (h : l.Sound) (hb : 0 < l.unlisted b) : b ∉ l.listed := by
  have := h.once b
  rw [← List.count_eq_zero]
  omega

theorem unlisted_of_listed (h : l.Sound) (hb : b ∈ l.listed) : l.unlisted b = 0 := by
  have := h.once b
  have := List.count_pos_iff.mpr hb
  omega

theorem lt_started (h : l.Sound) (hb : 0 < l.held b) : b < l.started := by
  have := h.unstarted b
  omega

theorem dead_of_ending (h : l.Sound) (hb : 0 < l.ending b) : b < l.started ∧ l.held b = 0 := by
  have hends := h.ends b
  split at hends
  · assumption
  · omega

/-- Nothing is ended, or about to be, while a reference is held or the list names it. -/
theorem living (h : l.Sound) (hb : 0 < l.held b) : l.ending b = 0 ∧ l.ended b = 0 := by
  have hends := h.ends b
  rw [if_neg fun hc => by omega] at hends
  omega

theorem unlinked (h : l.Sound) (hb : 0 < l.ending b + l.ended b) : b ∉ l.listed := by
  intro hlisted
  have := h.living (h.listed_held b hlisted)
  omega

theorem count_eq_zero_iff (h : l.Sound) (hb : l.held b < 2 ^ 32) : l.count b = 0 ↔ l.held b = 0 := by
  rw [h.counted b, ← UInt32.toNat_inj, UInt32.toNat_ofNat', UInt32.toNat_zero, Nat.mod_eq_of_lt hb]

theorem count_give (h : l.Sound) (hpos : 0 < l.held b) :
    l.count b - 1 = UInt32.ofNat (l.held b - 1) := by
  rw [h.counted b]
  have hsum : UInt32.ofNat (l.held b - 1) + 1 = UInt32.ofNat (l.held b) := by
    rw [show (1 : UInt32) = UInt32.ofNat 1 from rfl, ← UInt32.ofNat_add]
    congr 1
    omega
  rw [← hsum, UInt32.add_sub_cancel]

theorem count_give_eq_zero_iff (h : l.Sound) (hpos : 0 < l.held b) (hb : l.held b < 2 ^ 32) :
    l.count b - 1 = 0 ↔ l.held b = 1 := by
  rw [h.count_give hpos, ← UInt32.toNat_inj, UInt32.toNat_ofNat', UInt32.toNat_zero,
    Nat.mod_eq_of_lt (by omega)]
  omega

theorem start (h : l.Sound) : l.start.Sound := by
  have hfresh := h.unstarted l.started (Nat.le_refl _)
  have hends := h.ends l.started
  constructor <;> intro b <;> simp only [Lives.start, update_apply]
  · split
    · rfl
    · exact h.counted b
  · intro hlisted
    have := h.listed_held b hlisted
    split <;> omega
  · have := h.once b
    split
    · next heq =>
      subst heq
      have : l.listed.count l.started = 0 := by
        rw [List.count_eq_zero]
        intro hlisted
        have := h.listed_held _ hlisted
        omega
      omega
    · exact this
  · have := h.alone b
    split
    · intro; rfl
    · exact this
  · have := h.ends b
    split
    · next heq =>
      subst heq
      rw [if_neg (by omega)]
      rw [if_neg (by omega)] at hends
      exact hends
    · next hne =>
      rw [this]
      congr 1
      simp only [eq_iff_iff]
      omega
  · have := h.unstarted b
    split <;> omega

theorem take (h : l.Sound) (hb : 0 < l.held b) (hpublic : l.unlisted b = 0) : (l.take b).Sound := by
  constructor <;> intro c <;> simp only [Lives.take, update_apply]
  · split
    · next heq => rw [h.counted b, UInt32.ofNat_add]; rfl
    · exact h.counted c
  · intro hlisted
    have := h.listed_held c hlisted
    split <;> omega
  · exact h.once c
  · have := h.alone c
    split
    · next heq => subst heq; omega
    · exact this
  · have := h.ends c
    split
    · next heq =>
      subst heq
      rw [this, if_neg (by omega), if_neg (by omega)]
    · exact this
  · have := h.unstarted c
    split
    · next heq => subst heq; omega
    · exact this

theorem publish (h : l.Sound) (hb : 0 < l.unlisted b) : (l.publish b).Sound := by
  have hcount := h.once b
  constructor <;> intro c <;> simp only [Lives.publish, update_apply]
  · exact h.counted c
  · intro hlisted
    cases List.mem_cons.mp hlisted with
    | inl heq => subst heq; rw [h.alone c hb]; exact Nat.one_pos
    | inr hmem => exact h.listed_held c hmem
  · have := h.once c
    rw [List.count_cons]
    split
    · next heq => subst heq; simp only [beq_self_eq_true, if_true]; omega
    · next hne => simp only [beq_iff_eq, Ne.symm hne, if_false]; omega
  · have := h.alone c
    split
    · next heq => subst heq; omega
    · exact this
  · exact h.ends c
  · exact h.unstarted c

theorem finish (h : l.Sound) (hb : 0 < l.ending b) : (l.finish b).Sound := by
  have hheld := (h.dead_of_ending hb).2
  constructor <;> intro c <;> simp only [Lives.finish, update_apply]
  · split
    · next heq => subst heq; rw [hheld]; rfl
    · exact h.counted c
  · exact h.listed_held c
  · exact h.once c
  · exact h.alone c
  · have := h.ends c
    split
    · next heq => subst heq; exact Eq.trans (by omega) this
    · exact this
  · exact h.unstarted c

theorem give (h : l.Sound) (hb : 0 < l.held b) (hsmall : l.held b < 2 ^ 32) (hpublic : l.unlisted b = 0) :
    (l.give b).Sound := by
  have hzero := h.count_give_eq_zero_iff hb hsmall
  have hliving := h.living hb
  have hstarted := h.lt_started hb
  constructor <;> intro c <;> simp only [Lives.give, hzero, update_apply]
  · split
    · next heq => subst heq; exact h.count_give hb
    · exact h.counted c
  · intro hlisted
    by_cases hlast : l.held b = 1
    · rw [if_pos hlast] at hlisted
      have hne : c ≠ b := by
        intro heq
        subst heq
        have := h.once c
        have := List.count_pos_iff.mpr hlisted
        rw [List.count_erase_self] at this
        omega
      rw [if_neg hne]
      exact h.listed_held c (List.mem_of_mem_erase hlisted)
    · rw [if_neg hlast] at hlisted
      have := h.listed_held c hlisted
      split
      · omega
      · exact this
  · have := h.once c
    have : (if l.held b = 1 then l.listed.erase b else l.listed).count c ≤ l.listed.count c := by
      split
      · exact (List.erase_sublist ..).count_le c
      · exact Nat.le_refl _
    omega
  · have := h.alone c
    split
    · next heq => subst heq; omega
    · exact this
  · have := h.ends c
    split
    · next hlast =>
      rw [update_apply]
      split
      · next heq => subst heq; rw [if_pos (by omega)]; omega
      · exact this
    · next hmore =>
      rw [this]
      by_cases heq : c = b
      · subst heq; rw [if_pos rfl, if_neg (by omega), if_neg (by omega)]
      · rw [if_neg heq]
  · have := h.unstarted c
    split
    · next heq => subst heq; omega
    · exact this

theorem leave (h : l.Sound) (hb : 0 < l.unlisted b) :
    { l with unlisted := update l.unlisted b (l.unlisted b - 1) }.Sound := by
  constructor <;> intro c <;> simp only [update_apply]
  · exact h.counted c
  · exact h.listed_held c
  · have := h.once c
    split
    · next heq => subst heq; omega
    · exact this
  · have := h.alone c
    split
    · next heq => subst heq; intro _; exact this hb
    · exact this
  · exact h.ends c
  · exact h.unstarted c

theorem abandon (h : l.Sound) (hb : 0 < l.held b) (hsmall : l.held b < 2 ^ 32) : (l.abandon b).Sound := by
  by_cases hpublic : l.unlisted b = 0
  · have hsame : update l.unlisted b (l.unlisted b - 1) = l.unlisted := by
      rw [show l.unlisted b - 1 = l.unlisted b by omega, update_eq_self]
    rw [Lives.abandon, hsame]
    exact h.give hb hsmall hpublic
  · have hprivate : 0 < l.unlisted b := Nat.pos_of_ne_zero hpublic
    have hone := h.once b
    refine (h.leave hprivate).give hb hsmall ?_
    simp only [update_self]
    omega

end Sound
end Lives
end FfbInterceptor.Library.Lifetimes
