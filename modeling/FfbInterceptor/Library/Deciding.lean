import Mathlib.Logic.Basic

/-! Checks that accept exactly what they are meant to accept, and refuse all else in good order. -/
namespace FfbInterceptor.Library

variable {ε α β : Type}

/-- The check returns exactly the accepted values; where it fails, it fails with an `ordinary` error. -/
structure Decides (ordinary : ε → Prop) (check : Except ε α) (accepted : α → Prop) : Prop where
  accepts : ∀ a, check = .ok a ↔ accepted a
  refuses : ∀ e, check = .error e → ordinary e

theorem ok_of_bind {check : Except ε α} {next : α → Except ε β} {b : β} (h : check >>= next = .ok b) :
    ∃ a, check = .ok a ∧ next a = .ok b := by
  cases check with
  | error e => cases h
  | ok a => exact ⟨a, rfl, h⟩

namespace Decides

variable {ordinary : ε → Prop} {check : Except ε α} {accepted accepted' : α → Prop}
  {next : α → Except ε β} {accepted'' : β → Prop}

theorem ok (value : α) : Decides ordinary (.ok value : Except ε α) (· = value) where
  accepts a := by
    rw [Except.ok.injEq]
    exact eq_comm
  refuses e h := by cases h

theorem error {e : ε} (he : ordinary e) (hnone : ∀ a, ¬ accepted a) :
    Decides ordinary (.error e : Except ε α) accepted where
  accepts a := by
    constructor
    · intro h
      cases h
    · intro h
      exact absurd h (hnone a)
  refuses e' h := by
    cases h
    exact he

theorem congr (h : Decides ordinary check accepted) (hsame : ∀ a, accepted a ↔ accepted' a) :
    Decides ordinary check accepted' where
  accepts a := (h.accepts a).trans (hsame a)
  refuses := h.refuses

/-- A check that follows another one. -/
theorem bind {following : α → β → Prop} (h : Decides ordinary check accepted)
    (hnext : ∀ a, accepted a → Decides ordinary (next a) (following a)) :
    Decides ordinary (check >>= next) fun b => ∃ a, accepted a ∧ following a b := by
  cases check with
  | error e =>
    refine error (h.refuses e rfl) fun b hb => ?_
    obtain ⟨a, ha, -⟩ := hb
    cases (h.accepts a).mpr ha
  | ok value =>
    have hvalue : accepted value := (h.accepts value).mp rfl
    refine (hnext value hvalue).congr fun b => ⟨fun hb => ⟨value, hvalue, hb⟩, fun hb => ?_⟩
    obtain ⟨a, ha, hb⟩ := hb
    cases (h.accepts a).mpr ha
    exact hb

theorem bind_ok {value : α} (h : check = .ok value) (hnext : Decides ordinary (next value) accepted'') :
    Decides ordinary (check >>= next) accepted'' := by
  rw [h]
  exact hnext

theorem bind_need {condition : Prop} {value : α}
    (h : Decides ordinary check fun a => condition ∧ a = value)
    (hneed : ∀ b, accepted'' b → condition)
    (hnext : condition → Decides ordinary (next value) accepted'') :
    Decides ordinary (check >>= next) accepted'' := by
  have hfollows : ∀ a, condition ∧ a = value → Decides ordinary (next a) accepted'' := by
    intro a ha
    rw [ha.2]
    exact hnext ha.1
  have hboth := h.bind hfollows
  refine hboth.congr fun b => ⟨fun hb => ?_, fun hb => ⟨value, ⟨hneed b hb, rfl⟩, hb⟩⟩
  obtain ⟨a, -, hb⟩ := hb
  exact hb

theorem guarded {condition : Prop} [Decidable condition] {e : ε} {value : α} (he : ordinary e) :
    Decides ordinary (if condition then .ok value else .error e) fun a => condition ∧ a = value := by
  by_cases hcondition : condition
  · rw [if_pos hcondition]
    exact (ok value).congr fun a => ⟨fun ha => ⟨hcondition, ha⟩, fun ha => ha.2⟩
  · rw [if_neg hcondition]
    exact error he fun a ha => hcondition ha.1

end Decides

end FfbInterceptor.Library
