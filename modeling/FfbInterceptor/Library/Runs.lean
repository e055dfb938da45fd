import Mathlib.Data.List.Basic

/-! Runs of a machine with a total step function, and the two ways a fact is carried along
a run: an invariant of one machine, a simulation between two. -/
namespace FfbInterceptor.Library.Runs
variable {σ τ ι κ : Type*}

def run (step : σ → ι → σ) (s : σ) (inputs : List ι) : σ := inputs.foldl step s

@[simp] theorem run_nil (step : σ → ι → σ) (s : σ) : run step s [] = s := rfl

@[simp] theorem run_cons (step : σ → ι → σ) (s : σ) (i : ι) (is : List ι) :
    run step s (i :: is) = run step (step s i) is := rfl

theorem run_append (step : σ → ι → σ) (s : σ) (is js : List ι) :
    run step s (is ++ js) = run step (run step s is) js := List.foldl_append

/-- What holds at the start and survives every step holds after every run. -/
theorem run_invariant {step : σ → ι → σ} {P : σ → Prop}
    (hstep : ∀ s i, P s → P (step s i)) {s : σ} (hs : P s) (inputs : List ι) :
    P (run step s inputs) := by
  induction inputs generalizing s with
  | nil => exact hs
  | cons i is ih => exact ih (hstep s i hs)

/-- The same for a machine whose steps keep `P` as long as a growing measure stays below a bound. -/
theorem run_invariant_below {step : σ → ι → σ} {P : σ → Prop} {m : σ → Nat} {bound : Nat}
    (hgrows : ∀ s i, m s ≤ m (step s i))
    (hstep : ∀ s i, m (step s i) < bound → P s → P (step s i)) {s : σ} (hs : P s) (inputs : List ι)
    (hbelow : m (run step s inputs) < bound) : P (run step s inputs) := by
  refine run_invariant (P := fun s => m s < bound → P s) ?_ (fun _ => hs) inputs hbelow
  intro s i h hnext
  exact hstep s i hnext (h (Nat.lt_of_le_of_lt (hgrows s i) hnext))

/-- The same for a machine whose steps keep `P` only where `Q` holds: a run that stays inside `Q`. -/
theorem run_invariant_within {step : σ → ι → σ} {P Q : σ → Prop}
    (hstep : ∀ s i, Q s → P s → P (step s i)) {s : σ} (hs : P s) (inputs : List ι)
    (hwithin : ∀ k, Q (run step s (inputs.take k))) : P (run step s inputs) := by
  induction inputs generalizing s with
  | nil => exact hs
  | cons i is ih => exact ih (hstep s i (hwithin 0) hs) fun k => hwithin (k + 1)

/-- Every input of a run finds a state that suits it. -/
def Throughout (step : σ → ι → σ) (Q : σ → ι → Prop) (s : σ) (inputs : List ι) : Prop :=
  ∀ before i after, inputs = before ++ i :: after → Q (run step s before) i

theorem throughout_cons {step : σ → ι → σ} {Q : σ → ι → Prop} {s : σ} {i : ι} {is : List ι} :
    Throughout step Q s (i :: is) ↔ Q s i ∧ Throughout step Q (step s i) is := by
  constructor
  · intro h
    refine ⟨h [] i is rfl, ?_⟩
    intro before j after hsplit
    exact h (i :: before) j after (congrArg (i :: ·) hsplit)
  · rintro ⟨hfirst, hrest⟩ before j after hsplit
    cases before with
    | nil =>
      obtain ⟨rfl, -⟩ := List.cons.inj hsplit
      exact hfirst
    | cons first before =>
      obtain ⟨rfl, htail⟩ := List.cons.inj hsplit
      exact hrest before j after htail

@[simp] theorem throughout_nil {step : σ → ι → σ} {Q : σ → ι → Prop} {s : σ} :
    Throughout step Q s [] := by
  intro before i after hsplit
  cases List.append_ne_nil_of_right_ne_nil before (List.cons_ne_nil i after) hsplit.symm

def decideThroughout {step : σ → ι → σ} {Q : σ → ι → Prop} [∀ s i, Decidable (Q s i)] :
    (s : σ) → (inputs : List ι) → Decidable (Throughout step Q s inputs)
  | _, [] => isTrue throughout_nil
  | s, i :: is =>
    have : Decidable (Throughout step Q (step s i) is) := decideThroughout (step s i) is
    decidable_of_iff (Q s i ∧ Throughout step Q (step s i) is) throughout_cons.symm

instance {step : σ → ι → σ} {Q : σ → ι → Prop} [∀ s i, Decidable (Q s i)] {s : σ} {inputs : List ι} :
    Decidable (Throughout step Q s inputs) := decideThroughout s inputs

/-- A run whose steps all keep `P` where the input suits the state. -/
theorem Throughout.invariant {step : σ → ι → σ} {P : σ → Prop} {Q : σ → ι → Prop}
    (hstep : ∀ s i, Q s i → P s → P (step s i)) {s : σ} (hs : P s) {inputs : List ι}
    (h : Throughout step Q s inputs) : P (run step s inputs) := by
  induction inputs generalizing s with
  | nil => exact hs
  | cons i is ih =>
    obtain ⟨hfirst, hrest⟩ := throughout_cons.mp h
    exact ih (hstep s i hfirst hs) hrest

/-- What only a suiting input keeps, and nothing restores, holds in the end exactly where every input
suits. -/
theorem final_iff_throughout {step : σ → ι → σ} {I P : σ → Prop} {Q : σ → ι → Prop}
    (hinvariant : ∀ s i, I s → I (step s i)) (hstep : ∀ s i, I s → (P (step s i) ↔ P s ∧ Q s i)) {s : σ}
    (hs : I s) (inputs : List ι) : P (run step s inputs) ↔ P s ∧ Throughout step Q s inputs := by
  induction inputs generalizing s with
  | nil => simp
  | cons i is ih => rw [run_cons, ih (hinvariant s i hs), hstep s i hs, throughout_cons, and_assoc]

/-- What only a suiting input keeps holds all the time exactly where every input suits. -/
theorem always_iff_throughout {step : σ → ι → σ} {P : σ → Prop} {Q : σ → ι → Prop}
    (hstep : ∀ s i, P s → (P (step s i) ↔ Q s i)) {s : σ} (hs : P s) (inputs : List ι) :
    (∀ is, is <+: inputs → P (run step s is)) ↔ Throughout step Q s inputs := by
  induction inputs generalizing s with
  | nil =>
    refine ⟨fun _ => throughout_nil, fun _ is his => ?_⟩
    rw [List.prefix_nil.mp his]
    exact hs
  | cons i is ih =>
    rw [throughout_cons]
    constructor
    · intro h
      have hnext : P (step s i) := h [i] ⟨is, rfl⟩
      refine ⟨(hstep s i hs).mp hnext, (ih hnext).mp fun js hjs => ?_⟩
      exact h (i :: js) (List.cons_prefix_cons.mpr ⟨rfl, hjs⟩)
    · intro h js hjs
      have hnext := (hstep s i hs).mpr h.1
      cases js with
      | nil => exact hs
      | cons j js =>
        obtain ⟨rfl, hrest⟩ := List.cons_prefix_cons.mp hjs
        exact (ih hnext).mpr h.2 js hrest

theorem Throughout.initial {step : σ → ι → σ} {Q : σ → ι → Prop} {s : σ} {is inputs : List ι}
    (h : Throughout step Q s inputs) (hinitial : is <+: inputs) : Throughout step Q s is := by
  obtain ⟨js, rfl⟩ := hinitial
  intro before i after hsplit
  exact h before i (after ++ js) (by rw [hsplit, List.append_assoc, List.cons_append])

end FfbInterceptor.Library.Runs
