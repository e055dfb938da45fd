import FfbInterceptor.Library.Runs

/-! Noninterference by unwinding. Some inputs of a machine are seen by one of its parts; a run
is compared with the run of the seen inputs alone, and two runs that agree on them through it. -/
namespace FfbInterceptor.Library.Runs
variable {σ ι ω : Type*}

/-- As long as the run stays inside `Q`, `R alone s` is kept by an input the part does not see, taken
on the right only, and by one it sees, taken on both sides. -/
structure Unwinding (step : σ → ι → σ) (seen : ι → Bool) (Q : σ → Prop) (R : σ → σ → Prop) :
    Prop where
  before : ∀ {s : σ} {i : ι}, Q (step s i) → Q s
  hidden : ∀ {alone s : σ} {i : ι}, seen i = false → Q (step s i) → R alone s → R alone (step s i)
  shown : ∀ {alone s : σ} {i : ι}, seen i = true → Q (step s i) → R alone s →
    R (step alone i) (step s i)

/-- What the outputs of a run are, input by input. -/
def outputs (step : σ → ι → σ) (out : σ → ι → List ω) : σ → List ι → List ω
  | _, [] => []
  | s, i :: is => out s i ++ outputs step out (step s i) is

variable {step : σ → ι → σ} {seen : ι → Bool} {Q : σ → Prop} {R : σ → σ → Prop}
  {out : σ → ι → List ω}

theorem Unwinding.start (h : Unwinding step seen Q R) {s : σ} {inputs : List ι}
    (hwithin : Q (run step s inputs)) : Q s := by
  induction inputs generalizing s with
  | nil => exact hwithin
  | cons i is ih => exact h.before (ih hwithin)

theorem Unwinding.alone (h : Unwinding step seen Q R) {alone s : σ} (hR : R alone s)
    (inputs : List ι) (hwithin : Q (run step s inputs)) :
    R (run step alone (inputs.filter seen)) (run step s inputs) := by
  induction inputs generalizing alone s with
  | nil => exact hR
  | cons i is ih =>
    cases hi : seen i with
    | false =>
      rw [List.filter_cons_of_neg (by simp [hi])]
      exact ih (h.hidden hi (h.start hwithin) hR) hwithin
    | true =>
      rw [List.filter_cons_of_pos hi]
      exact ih (h.shown hi (h.start hwithin) hR) hwithin

/-- Two runs with the same seen inputs are related to one common run. -/
theorem Unwinding.two_runs (h : Unwinding step seen Q R) {s : σ} (hR : R s s)
    {inputs inputs' : List ι} (same : inputs.filter seen = inputs'.filter seen)
    (hwithin : Q (run step s inputs)) (hwithin' : Q (run step s inputs')) :
    ∃ alone, R alone (run step s inputs) ∧ R alone (run step s inputs') :=
  ⟨_, h.alone hR inputs hwithin, same ▸ h.alone hR inputs' hwithin'⟩

/-- Outputs that hidden inputs do not make and that related states agree on. -/
theorem Unwinding.outputs_alone (h : Unwinding step seen Q R)
    (hhidden : ∀ {s i}, seen i = false → out s i = [])
    (hshown : ∀ {alone s i}, R alone s → seen i = true → out alone i = out s i)
    {alone s : σ} (hR : R alone s) (inputs : List ι) (hwithin : Q (run step s inputs)) :
    outputs step out alone (inputs.filter seen) = outputs step out s inputs := by
  induction inputs generalizing alone s with
  | nil => rfl
  | cons i is ih =>
    cases hi : seen i with
    | false =>
      rw [List.filter_cons_of_neg (by simp [hi]), ih (h.hidden hi (h.start hwithin) hR) hwithin]
      simp only [outputs, hhidden hi, List.nil_append]
    | true =>
      rw [List.filter_cons_of_pos hi]
      simp only [outputs, hshown hR hi, ih (h.shown hi (h.start hwithin) hR) hwithin]

end FfbInterceptor.Library.Runs
