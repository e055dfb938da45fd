import Mathlib.Data.List.Infix

/-! Searching a list for a part of it, and separators no part can cross. -/
namespace FfbInterceptor.Library.Substring

variable {α β : Type} [DecidableEq α] {part text left right : List α} {separator : α}

def find (part : List α) : List α → Option Nat
  | [] => if part = [] then some 0 else none
  | x :: rest => if part.isPrefixOf (x :: rest) then some 0 else (find part rest).map (· + 1)

theorem find_none (h : find part text = none) : ¬ part <:+: text := by
  induction text with
  | nil =>
    intro hoccurs
    rw [find, if_pos (List.infix_nil.mp hoccurs)] at h
    cases h
  | cons x rest ih =>
    rw [find] at h
    split at h
    · cases h
    · rename_i hstart
      intro hoccurs
      cases List.infix_cons_iff.mp hoccurs with
      | inl hstarts => exact hstart (List.isPrefixOf_iff_prefix.mpr hstarts)
      | inr hrest => exact ih (Option.map_eq_none_iff.mp h) hrest

omit [DecidableEq α] in
theorem not_infix_dropLast (h : part ≠ []) : ¬ part <:+: part.dropLast := by
  intro hoccurs
  have hlength := hoccurs.length_le
  have hpositive := List.length_pos_iff.mpr h
  rw [List.length_dropLast] at hlength
  omega

/-- The first occurrence is the one without another that ends before it. -/
theorem find_eq_some_iff {place : Nat} (hne : part ≠ []) : find part text = some place ↔
    ∃ before behind, text = before ++ (part ++ behind) ∧ before.length = place ∧
      ¬ part <:+: (before ++ part).dropLast := by
  have hnonempty : ∀ before : List α, before ++ part ≠ [] := fun before h =>
    hne (List.append_eq_nil_iff.mp h).2
  have hbegins : ∀ (x : α) before behind,
      x :: (before ++ part).dropLast <+: x :: (before ++ (part ++ behind)) := by
    intro x before behind
    rw [List.cons_prefix_cons, ← List.append_assoc]
    exact ⟨rfl, (List.dropLast_prefix _).trans (List.prefix_append _ _)⟩
  constructor
  · intro h
    induction text generalizing place with
    | nil =>
      rw [find, if_neg hne] at h
      cases h
    | cons x rest ih =>
      rw [find] at h
      split at h
      · next hstart =>
        cases h
        obtain ⟨behind, hbehind⟩ := List.isPrefixOf_iff_prefix.mp hstart
        exact ⟨[], behind, hbehind.symm, rfl, not_infix_dropLast hne⟩
      · next hstart =>
        obtain ⟨place, hplace, rfl⟩ := Option.map_eq_some_iff.mp h
        obtain ⟨before, behind, htext, hlength, hfirst⟩ := ih hplace
        subst htext
        refine ⟨x :: before, behind, rfl, congrArg (· + 1) hlength, ?_⟩
        rw [List.cons_append, List.dropLast_cons_of_ne_nil (hnonempty before)]
        intro hoccurs
        cases List.infix_cons_iff.mp hoccurs with
        | inr hlater => exact hfirst hlater
        | inl hstarts =>
          exact hstart (List.isPrefixOf_iff_prefix.mpr (hstarts.trans (hbegins x before behind)))
  · intro h
    obtain ⟨before, behind, rfl, rfl, hfirst⟩ := h
    induction before with
    | nil =>
      cases part with
      | nil => exact absurd rfl hne
      | cons x part =>
        have hstart : (x :: part).isPrefixOf (x :: (part ++ behind)) = true :=
          List.isPrefixOf_iff_prefix.mpr (List.prefix_append (x :: part) behind)
        rw [List.nil_append, List.cons_append, find, if_pos hstart]
        rfl
    | cons x before ih =>
      rw [List.cons_append, List.dropLast_cons_of_ne_nil (hnonempty before)] at hfirst
      have hlater : ¬ part <:+: (before ++ part).dropLast := fun h =>
        hfirst (List.infix_cons_iff.mpr (Or.inr h))
      have hstart : ¬ part.isPrefixOf (x :: (before ++ (part ++ behind))) = true := by
        intro h
        have hshort : part.length ≤ (x :: (before ++ part).dropLast).length := by
          rw [List.length_cons, List.length_dropLast, List.length_append]
          have hpositive := List.length_pos_iff.mpr hne
          omega
        have hstarts := List.prefix_of_prefix_length_le (List.isPrefixOf_iff_prefix.mp h)
          (hbegins x before behind) hshort
        exact hfirst hstarts.isInfix
      rw [List.cons_append, find, if_neg hstart, ih hlater]
      rfl

omit [DecidableEq α] in
/-- A part without the separator lies on one side of it. -/
theorem infix_of_separator (h : separator ∉ part) (hoccurs : part <:+: left ++ separator :: right) :
    part <:+: left ∨ part <:+: right := by
  obtain ⟨front, back, heq⟩ := hoccurs
  rw [List.append_assoc] at heq
  cases List.append_eq_append_iff.mp heq with
  | inl h' =>
    obtain ⟨more, hleft, hback⟩ := h'
    cases List.append_eq_append_iff.mp hback with
    | inl h'' =>
      obtain ⟨rest, hmore, -⟩ := h''
      exact Or.inl ⟨front, rest, by rw [hleft, hmore, List.append_assoc]⟩
    | inr h'' =>
      obtain ⟨rest, hpart, hright⟩ := h''
      cases rest with
      | nil => exact Or.inl ⟨front, [], by rw [hleft, hpart, List.append_nil, List.append_nil]⟩
      | cons x rest =>
        have hx := (List.cons.inj hright).1
        exact absurd (hpart ▸ List.mem_append_right more (hx ▸ List.mem_cons_self)) h
  | inr h' =>
    obtain ⟨more, -, hright⟩ := h'
    cases more with
    | cons x more =>
      rw [List.cons_append, ← List.append_assoc] at hright
      exact Or.inr ⟨more, back, (List.cons.inj hright).2.symm⟩
    | nil =>
      cases part with
      | nil => exact Or.inl List.nil_infix
      | cons x part =>
        have hx := (List.cons.inj hright).1
        exact absurd (hx ▸ List.mem_cons_self) h

end FfbInterceptor.Library.Substring
