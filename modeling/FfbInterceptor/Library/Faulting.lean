import Mathlib.Logic.Basic

/-! Programs over a state that a faulting read may leave in the middle: what was stored before the
fault stays. -/
namespace FfbInterceptor.Library

variable {σ α β : Type}

structure Fault where
  deriving DecidableEq, Repr

abbrev Faulting (σ α : Type) := ExceptT Fault (StateM σ) α

namespace Faulting

def outcome (m : Faulting σ α) (s : σ) : Except Fault α × σ := m.run s

/-- Reading memory that may be inaccessible. -/
def read : Option α → Faulting σ α
  | some a => pure a
  | none => throw {}

def store (f : σ → σ) : Faulting σ PUnit := modify f

/-- `m` keeps `P`, also where it faults. -/
def Keeps (P : σ → Prop) (m : Faulting σ α) : Prop := ∀ s, P s → P (m.outcome s).2

variable {P : σ → Prop}

theorem Keeps.pure (a : α) : Keeps P (pure a : Faulting σ α) := fun _ h => h

theorem Keeps.read (a : Option α) : Keeps P (read a) := by
  intro s h
  cases a with
  | none => exact h
  | some a => exact h

theorem Keeps.get : Keeps P (get : Faulting σ σ) := fun _ h => h

theorem Keeps.store {f : σ → σ} (hf : ∀ s, P s → P (f s)) : Keeps P (store f) := hf

theorem outcome_bind (m : Faulting σ α) (f : α → Faulting σ β) (s : σ) :
    (m >>= f).outcome s =
      match m.outcome s with
      | (.ok a, s') => (f a).outcome s'
      | (.error e, s') => (.error e, s') := by
  have hbind : (m >>= f).outcome s = ExceptT.bindCont f (m.outcome s).1 (m.outcome s).2 := rfl
  rw [hbind]
  cases m.outcome s with
  | mk result s' => cases result <;> rfl

@[simp] theorem outcome_read_bind (a : α) (f : α → Faulting σ β) (s : σ) :
    (read (some a) >>= f).outcome s = (f a).outcome s := rfl

@[simp] theorem outcome_fault_bind (f : α → Faulting σ β) (s : σ) :
    (read none >>= f).outcome s = (.error {}, s) := rfl

@[simp] theorem outcome_get_bind (f : σ → Faulting σ β) (s : σ) :
    ((get : Faulting σ σ) >>= f).outcome s = (f s).outcome s := rfl

@[simp] theorem outcome_store (f : σ → σ) (s : σ) : (store f).outcome s = (.ok ⟨⟩, f s) := rfl

theorem Keeps.bind {m : Faulting σ α} {f : α → Faulting σ β} (hm : Keeps P m)
    (hf : ∀ a, Keeps P (f a)) : Keeps P (m >>= f) := by
  intro s h
  have hs := hm s h
  rw [outcome_bind]
  cases hresult : m.outcome s with
  | mk result s' =>
    rw [hresult] at hs
    cases result with
    | error e => exact hs
    | ok a => exact hf a s' hs

theorem Keeps.ite {c : Prop} [Decidable c] {m m' : Faulting σ α} (hm : Keeps P m)
    (hm' : Keeps P m') : Keeps P (if c then m else m') := by
  split
  · exact hm
  · exact hm'

theorem Keeps.forM {f : α → Faulting σ PUnit} (hf : ∀ a, Keeps P (f a)) (as : List α) :
    Keeps P (as.forM f) := by
  induction as with
  | nil => exact Keeps.pure _
  | cons a as ih => exact Keeps.bind (hf a) fun _ => ih

/-- `m` does not fault: it ends with `a` and leaves `s'`. -/
def Yields (m : Faulting σ α) (s : σ) (a : α) (s' : σ) : Prop := m.outcome s = (.ok a, s')

variable {s s' s'' : σ} {a : α} {b : β}

theorem Yields.pure (a : α) (s : σ) : Yields (pure a) s a s := rfl

theorem Yields.read (a : α) (s : σ) : Yields (read (some a)) s a s := rfl

theorem Yields.get (s : σ) : Yields get s s s := rfl

theorem Yields.store (f : σ → σ) (s : σ) : Yields (store f) s ⟨⟩ (f s) := rfl

theorem Yields.bind {m : Faulting σ α} {f : α → Faulting σ β} (hm : Yields m s a s')
    (hf : Yields (f a) s' b s'') : Yields (m >>= f) s b s'' := by
  rw [Yields, outcome_bind, hm]
  exact hf

theorem Yields.forM {f : α → Faulting σ PUnit} (as : List α)
    (hf : ∀ a ∈ as, ∀ s, P s → ∃ s', Yields (f a) s ⟨⟩ s' ∧ P s') (hs : P s) :
    ∃ s', Yields (as.forM f) s ⟨⟩ s' ∧ P s' := by
  induction as generalizing s with
  | nil => exact ⟨s, Yields.pure _ s, hs⟩
  | cons a as ih =>
    obtain ⟨s₁, hfirst, hs₁⟩ := hf a List.mem_cons_self s hs
    obtain ⟨s₂, hrest, hs₂⟩ := ih (fun a ha => hf a (List.mem_cons_of_mem _ ha)) hs₁
    exact ⟨s₂, hfirst.bind hrest, hs₂⟩

section TwoRuns

variable {Q R : σ → Prop} {m m' : Faulting σ α} {f f' : α → Faulting σ β}

/-- From every state with `P` the two programs end alike, and where they do not fault with `Q`. -/
def Couples (P Q : σ → Prop) (m m' : Faulting σ α) : Prop :=
  ∀ s, P s → m'.outcome s = m.outcome s ∧ ∀ a s', Yields m s a s' → Q s'

theorem Couples.of_eq (heq : m' = m) (hkeeps : Keeps P m) : Couples P P m m' := by
  intro s hs
  refine ⟨by rw [heq], fun a s' hyields => ?_⟩
  have hafter := hkeeps s hs
  rw [Yields] at hyields
  rw [hyields] at hafter
  exact hafter

theorem Couples.store {g : σ → σ} (hg : ∀ s, P s → Q (g s)) : Couples P Q (store g) (store g) := by
  intro s hs
  refine ⟨rfl, fun a s' hyields => ?_⟩
  obtain ⟨-, rfl⟩ := Prod.mk.inj hyields
  exact hg s hs

/-- Two programs that both fault on their first read. -/
theorem Couples.fault {γ : Type} {g g' : γ → Faulting σ α} :
    Couples P Q (read none >>= g) (read none >>= g') := by
  intro s hs
  refine ⟨rfl, fun a s' hyields => ?_⟩
  rw [Yields, outcome_fault_bind] at hyields
  cases (Prod.mk.inj hyields).1

theorem Couples.bind (hm : Couples P Q m m') (hf : ∀ a, Couples Q R (f a) (f' a)) :
    Couples P R (m >>= f) (m' >>= f') := by
  intro s hs
  obtain ⟨hsame, hends⟩ := hm s hs
  simp only [Yields, outcome_bind, hsame]
  cases hfirst : m.outcome s with
  | mk result between =>
    cases result with
    | error e => exact ⟨rfl, nofun⟩
    | ok a => exact hf a between (hends a between hfirst)

theorem Couples.ite {c : Prop} [Decidable c] {n n' : Faulting σ α} (hm : c → Couples P Q m m')
    (hn : Couples P Q n n') : Couples P Q (if c then m else n) (if c then m' else n') := by
  split
  · next hc => exact hm hc
  · exact hn

end TwoRuns

end Faulting

end FfbInterceptor.Library
