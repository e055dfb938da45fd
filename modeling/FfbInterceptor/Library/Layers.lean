import Mathlib.Data.List.Basic

/-! Changes laid one over the other on a part of a state, where only the top one can be taken off. -/
namespace FfbInterceptor.Library

variable {σ ρ : Type}

/-- The state is, in the part that `agree` compares, the initial one with the changes of the records
made one after the other. -/
inductive Layered (agree : σ → σ → Prop) (change : ρ → σ → σ → Prop) (initial : σ) :
    List ρ → σ → Prop
  | bare {s : σ} : agree initial s → Layered agree change initial [] s
  | push {records : List ρ} {record : ρ} {s s₁ s₂ : σ} : Layered agree change initial records s →
      change record s s₁ → agree s₁ s₂ → Layered agree change initial (records ++ [record]) s₂

namespace Layered

variable {agree : σ → σ → Prop} {change : ρ → σ → σ → Prop} {initial s s' : σ} {records : List ρ}
  {record : ρ}

theorem congr (htrans : ∀ {a b c}, agree a b → agree b c → agree a c)
    (h : Layered agree change initial records s) (hs : agree s s') :
    Layered agree change initial records s' := by
  cases h with
  | bare hinitial => exact bare (htrans hinitial hs)
  | push hbelow hchange hagree => exact push hbelow hchange (htrans hagree hs)

theorem agree_of_nil (h : Layered agree change initial [] s) : agree initial s := by
  generalize hrecords : ([] : List ρ) = records at h
  cases h with
  | bare hinitial => exact hinitial
  | push _ _ _ => cases List.append_ne_nil_of_right_ne_nil _ (List.cons_ne_nil _ []) hrecords.symm

theorem top (h : Layered agree change initial (records ++ [record]) s) :
    ∃ below above, Layered agree change initial records below ∧ change record below above ∧
      agree above s := by
  generalize hall : records ++ [record] = all at h
  cases h with
  | bare _ => cases List.append_ne_nil_of_right_ne_nil _ (List.cons_ne_nil _ []) hall
  | push hbelow hchange hagree =>
    obtain ⟨rfl, hrecord⟩ := List.append_inj' hall rfl
    obtain rfl := List.singleton_injective hrecord
    exact ⟨_, _, hbelow, hchange, hagree⟩

end Layered

end FfbInterceptor.Library
