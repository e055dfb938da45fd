import Mathlib.Data.Nat.Basic

/-! Programs over a state that note events, and loops that are left early. -/
namespace FfbInterceptor.Library
variable {σ ε α β : Type}

/-- What a program returns, the state it leaves and the events it has noted. -/
structure Ran (σ ε α : Type) where
  value : α
  state : σ
  events : List ε

def Traced (σ ε α : Type) := σ → Ran σ ε α

instance : Monad (Traced σ ε) where
  pure a := fun s => ⟨a, s, []⟩
  bind m f := fun s =>
    let first := m s
    let second := f first.value first.state
    ⟨second.value, second.state, first.events ++ second.events⟩

namespace Traced
variable {m : Traced σ ε α} {f : α → Traced σ ε β} {s : σ}

@[simp] theorem pure_value (a : α) (s : σ) : ((pure a : Traced σ ε α) s).value = a := rfl

@[simp] theorem pure_state (a : α) (s : σ) : ((pure a : Traced σ ε α) s).state = s := rfl

@[simp] theorem pure_events (a : α) (s : σ) : ((pure a : Traced σ ε α) s).events = [] := rfl

@[simp] theorem bind_value (m : Traced σ ε α) (f : α → Traced σ ε β) (s : σ) :
    ((m >>= f) s).value = (f (m s).value (m s).state).value := rfl

@[simp] theorem bind_state (m : Traced σ ε α) (f : α → Traced σ ε β) (s : σ) :
    ((m >>= f) s).state = (f (m s).value (m s).state).state := rfl

@[simp] theorem bind_events (m : Traced σ ε α) (f : α → Traced σ ε β) (s : σ) :
    ((m >>= f) s).events = (m s).events ++ (f (m s).value (m s).state).events := rfl

/-- A counting loop: its body goes on to the next index or leaves. -/
def loop (body : Nat → α → Traced σ ε (ForInStep α)) : (remaining index : Nat) → α → Traced σ ε α
  | 0, _, a => pure a
  | remaining + 1, index, a => do
    match ← body index a with
    | .done a => pure a
    | .yield a => loop body remaining (index + 1) a

section Notes
variable {P : ε → Prop} {n k : Nat}

/-- From every state, only events with the property, and no more than so many. -/
def Notes (P : ε → Prop) (n : Nat) (m : Traced σ ε α) : Prop :=
  ∀ s, (∀ event ∈ (m s).events, P event) ∧ (m s).events.length ≤ n

theorem Notes.pure (a : α) : Notes P 0 (pure a : Traced σ ε α) := by
  intro s
  simp

/-- The first part notes some of the events, the second no more than the others. -/
theorem Notes.bind (hm : Notes P n m) (hle : n ≤ k) (hf : ∀ s, Notes P (k - n) (f (m s).value)) :
    Notes P k (m >>= f) := by
  intro s
  obtain ⟨hfirst, hn⟩ := hm s
  obtain ⟨hsecond, hk⟩ := hf s (m s).state
  constructor
  · intro event hmem
    cases List.mem_append.mp hmem with
    | inl h => exact hfirst event h
    | inr h => exact hsecond event h
  · rw [bind_events, List.length_append]
    omega

theorem Notes.weaken (h : Notes P n m) (hle : n ≤ k) : Notes P k m :=
  fun s => ⟨(h s).1, Nat.le_trans (h s).2 hle⟩

theorem Notes.returns (a : α) : Notes P n (Pure.pure a : Traced σ ε α) :=
  (Notes.pure a).weaken (Nat.zero_le n)

theorem Notes.ite {p : Prop} [Decidable p] {m' : Traced σ ε α} (hyes : p → Notes P n m)
    (hno : ¬p → Notes P n m') : Notes P n (if p then m else m') := by
  split
  · next h => exact hyes h
  · next h => exact hno h

theorem Notes.loop {body : Nat → α → Traced σ ε (ForInStep α)} {remaining index : Nat} (a : α)
    (h : ∀ i, index ≤ i → i < index + remaining → ∀ a, Notes P n (body i a)) :
    Notes P (remaining * n) (loop body remaining index a) := by
  induction remaining generalizing index a with
  | zero => exact Notes.returns a
  | succ remaining ih =>
    have hrest : ∀ next : ForInStep α, Notes P (remaining * n) (match next with
        | .done a => Pure.pure a
        | .yield a => Traced.loop body remaining (index + 1) a) := by
      intro next
      cases next with
      | done a => exact Notes.returns a
      | yield a => exact ih a fun i hlow hhigh => h i (by omega) (by omega)
    rw [Nat.succ_mul]
    apply (h index (le_refl _) (by omega) a).bind (Nat.le_add_left _ _)
    intro s
    rw [Nat.add_sub_cancel]
    exact hrest _

end Notes

section Leads
variable {Q : α → σ → Prop}

/-- From the state the program comes to a result and a state with the property. -/
structure Leads (m : Traced σ ε α) (s : σ) (Q : α → σ → Prop) : Prop where
  ends : Q (m s).value (m s).state

theorem Leads.pure {a : α} (h : Q a s) : Leads (pure a : Traced σ ε α) s Q := ⟨h⟩

theorem Leads.bind {Q : β → σ → Prop} (h : Leads m s fun a s' => Leads (f a) s' Q) :
    Leads (m >>= f) s Q := ⟨h.ends.ends⟩

theorem Leads.ite {p : Prop} [Decidable p] {m' : Traced σ ε α} (hyes : p → Leads m s Q)
    (hno : ¬p → Leads m' s Q) : Leads (if p then m else m') s Q := by
  split
  · next h => exact hyes h
  · next h => exact hno h

theorem Leads.weaken {R : α → σ → Prop} (h : Leads m s Q) (hweak : ∀ a s', Q a s' → R a s') :
    Leads m s R := ⟨hweak _ _ h.ends⟩

/-- A pass ends the loop with the result or goes on with the invariant. -/
def PassEnds (Q I : α → σ → Prop) : ForInStep α → σ → Prop
  | .done a, s => Q a s
  | .yield a, s => I a s

/-- Where every pass keeps the invariant or leaves with the result, the loop ends with the result. -/
theorem Leads.loop {body : Nat → α → Traced σ ε (ForInStep α)} {I : Nat → α → σ → Prop}
    {remaining index : Nat} {a : α}
    (hpass : ∀ i a s, index ≤ i → i < index + remaining → I i a s →
      Leads (body i a) s (PassEnds Q (I (i + 1))))
    (hend : ∀ a s, I (index + remaining) a s → Q a s) (h : I index a s) :
    Leads (loop body remaining index a) s Q := by
  induction remaining generalizing index a s with
  | zero => exact Leads.pure (hend a s h)
  | succ remaining ih =>
    have hstep := hpass index a s (le_refl _) (by omega) h
    apply Leads.bind
    apply hstep.weaken
    intro step s' hnext
    cases step with
    | done a' => exact Leads.pure hnext
    | yield a' =>
      apply ih _ _ hnext
      · intro i a s hlow hhigh
        exact hpass i a s (by omega) (by omega)
      · intro a s hlast
        apply hend
        rwa [Nat.add_comm remaining 1, ← Nat.add_assoc]

end Leads

end Traced

end FfbInterceptor.Library
