import Mathlib.Data.List.Basic

/-! Programs that call their surroundings, which answer as they like, and loops that need not end. -/
namespace FfbInterceptor.Library
variable {κ : Type} {ρ : κ → Type} {ε α β σ : Type}

abbrev Exchange (ρ : κ → Type) := Sigma ρ

/-- The surroundings know all calls and answers so far. -/
abbrev Surroundings (ρ : κ → Type) := (call : κ) → List (Exchange ρ) → ρ call

/-- How a program stops without a result: with an error, or not yet. -/
inductive Stop (ε : Type) where
  | failed (error : ε)
  | unfinished
  deriving DecidableEq, Repr

/-- A program takes what has been exchanged so far and adds to it. -/
def Dialogue (ρ : κ → Type) (ε α : Type) :=
  Surroundings ρ → List (Exchange ρ) → Except (Stop ε) α × List (Exchange ρ)

namespace Dialogue

def andThen (f : α → Dialogue ρ ε β) (around : Surroundings ρ) :
    Except (Stop ε) α × List (Exchange ρ) → Except (Stop ε) β × List (Exchange ρ)
  | (.ok a, history) => f a around history
  | (.error stop, history) => (.error stop, history)

instance : Monad (Dialogue ρ ε) where
  pure a := fun _ history => (.ok a, history)
  bind m f := fun around history => andThen f around (m around history)

def fail (error : ε) : Dialogue ρ ε α := fun _ history => (.error (.failed error), history)

def ask (call : κ) : Dialogue ρ ε (ρ call) := fun around history =>
  (.ok (around call history), history ++ [⟨call, around call history⟩])

theorem ask_bind_run {call : κ} (f : ρ call → Dialogue ρ ε β) (around : Surroundings ρ)
    (history : List (Exchange ρ)) : (ask call >>= f) around history =
      f (around call history) around (history ++ [⟨call, around call history⟩]) := rfl

theorem bind_run_ok {m : Dialogue ρ ε α} {a : α} {around : Surroundings ρ}
    {history left : List (Exchange ρ)} (f : α → Dialogue ρ ε β) (h : m around history = (.ok a, left)) :
    (m >>= f) around history = f a around left := congrArg (andThen f around) h

/-- The loop that goes on with a new state or ends with a result. -/
def goOn (again : σ → Dialogue ρ ε α) : σ ⊕ α → Dialogue ρ ε α
  | .inl state => again state
  | .inr a => pure a

def loop (body : σ → Dialogue ρ ε (σ ⊕ α)) : Nat → σ → Dialogue ρ ε α
  | 0, _ => fun _ history => (.error .unfinished, history)
  | fuel + 1, state => body state >>= goOn (loop body fuel)

/-- What a scope does on its way out. -/
def cleanUp (cleanup : Dialogue ρ ε PUnit) (around : Surroundings ρ) :
    Except (Stop ε) α × List (Exchange ρ) → Except (Stop ε) α × List (Exchange ρ)
  | (.error (.failed error), left) => (.error (.failed error), (cleanup around left).2)
  | outcome => outcome

/-- The clean-up of a scope that is left by an error. -/
def onFailure (m : Dialogue ρ ε α) (cleanup : Dialogue ρ ε PUnit) : Dialogue ρ ε α :=
  fun around history => cleanUp cleanup around (m around history)

def rewordStop (f : ε → ε) :
    Except (Stop ε) α × List (Exchange ρ) → Except (Stop ε) α × List (Exchange ρ)
  | (.error (.failed error), left) => (.error (.failed (f error)), left)
  | outcome => outcome

def reword (f : ε → ε) (m : Dialogue ρ ε α) : Dialogue ρ ε α :=
  fun around history => rewordStop f (m around history)

section Records

/-- What an outcome satisfies: `Q` a result, `F` a failure, `U` a program that goes on. -/
def Meets (Q : α → List (Exchange ρ) → Prop) (F U : List (Exchange ρ) → Prop) :
    Except (Stop ε) α × List (Exchange ρ) → Prop
  | (.ok a, more) => Q a more
  | (.error (.failed _), more) => F more
  | (.error .unfinished, more) => U more

/-- What `m` adds to the history, whatever it is answered. -/
def Records (m : Dialogue ρ ε α) (Q : α → List (Exchange ρ) → Prop) (F U : List (Exchange ρ) → Prop) :
    Prop :=
  ∀ around history, ∃ more, (m around history).2 = history ++ more ∧
    Meets Q F U ((m around history).1, more)

variable {m : Dialogue ρ ε α} {f : α → Dialogue ρ ε β} {Q Q' : α → List (Exchange ρ) → Prop}
  {R : β → List (Exchange ρ) → Prop} {F F' U U' : List (Exchange ρ) → Prop} {call : κ}

theorem Records.weaken (h : Records m Q F U) (hQ : ∀ a more, Q a more → Q' a more)
    (hF : ∀ more, F more → F' more) (hU : ∀ more, U more → U' more) : Records m Q' F' U' := by
  intro around history
  obtain ⟨more, hleft, hmeets⟩ := h around history
  refine ⟨more, hleft, ?_⟩
  cases houtcome : (m around history).1 with
  | ok a =>
    rw [houtcome] at hmeets
    exact hQ a more hmeets
  | error stop =>
    rw [houtcome] at hmeets
    cases stop with
    | failed error => exact hF more hmeets
    | unfinished => exact hU more hmeets

theorem Records.pure {a : α} (h : Q a []) : Records (pure a : Dialogue ρ ε α) Q F U :=
  fun _ history => ⟨[], (List.append_nil history).symm, h⟩

theorem Records.fail {error : ε} (h : F []) : Records (fail error : Dialogue ρ ε α) Q F U :=
  fun _ history => ⟨[], (List.append_nil history).symm, h⟩

theorem Records.ask {Q : ρ call → List (Exchange ρ) → Prop} (h : ∀ answer, Q answer [⟨call, answer⟩]) :
    Records (ask call : Dialogue ρ ε (ρ call)) Q F U :=
  fun around history => ⟨_, rfl, h (around call history)⟩

/-- What comes after a program starts from all that the program may have recorded. -/
theorem Records.bind (hm : Records m Q F U) (hf : ∀ a more, Q a more → Records (f a)
    (fun b later => R b (more ++ later)) (fun later => F (more ++ later))
    (fun later => U (more ++ later))) : Records (m >>= f) R F U := by
  intro around history
  obtain ⟨more, hleft, hmeets⟩ := hm around history
  have hrun : (m >>= f) around history = andThen f around (m around history) := rfl
  rw [hrun]
  cases houtcome : m around history with
  | mk result left =>
    rw [houtcome] at hleft hmeets
    cases result with
    | ok a =>
      obtain ⟨later, hend, hlater⟩ := hf a more hmeets around left
      refine ⟨more ++ later, ?_, ?_⟩
      · rw [← List.append_assoc, ← hleft]
        exact hend
      · rw [andThen]
        cases hresult : (f a around left).1 with
        | ok b =>
          rw [hresult] at hlater
          exact hlater
        | error stop =>
          rw [hresult] at hlater
          cases stop with
          | failed error => exact hlater
          | unfinished => exact hlater
    | error stop =>
      refine ⟨more, hleft, ?_⟩
      cases stop with
      | failed error => exact hmeets
      | unfinished => exact hmeets

theorem Records.ask_bind {f : ρ call → Dialogue ρ ε β} (h : ∀ answer, Records (f answer)
    (fun b later => R b (⟨call, answer⟩ :: later)) (fun later => F (⟨call, answer⟩ :: later))
    (fun later => U (⟨call, answer⟩ :: later))) : Records (Dialogue.ask call >>= f) R F U := by
  have hask : Records (Dialogue.ask call : Dialogue ρ ε (ρ call))
      (fun answer more => more = [⟨call, answer⟩]) F U := Records.ask fun _ => rfl
  apply hask.bind
  intro answer more hmore
  subst hmore
  exact h answer

theorem Records.ite {c : Prop} [Decidable c] {m' : Dialogue ρ ε α} (hm : c → Records m Q F U)
    (hm' : ¬c → Records m' Q F U) : Records (if c then m else m') Q F U := by
  by_cases h : c
  · rw [if_pos h]
    exact hm h
  · rw [if_neg h]
    exact hm' h

/-- A pass that keeps the invariant of a loop or ends it. -/
def Passes (I : σ → List (Exchange ρ) → Prop) (Q : α → List (Exchange ρ) → Prop) :
    σ ⊕ α → List (Exchange ρ) → Prop
  | .inl state, more => I state more
  | .inr a, more => Q a more

/-- The invariant speaks of all that the loop has recorded so far. -/
theorem Records.loop_from {body : σ → Dialogue ρ ε (σ ⊕ α)} {I : σ → List (Exchange ρ) → Prop}
    {fuel : Nat} {state : σ} {so : List (Exchange ρ)}
    (hpass : ∀ state so, I state so → Records (body state)
      (fun next more => Passes I Q next (so ++ more)) (fun more => F (so ++ more))
      (fun more => U (so ++ more)))
    (hunfinished : ∀ state so, I state so → U so) (h : I state so) :
    Records (loop body fuel state) (fun a more => Q a (so ++ more)) (fun more => F (so ++ more))
      (fun more => U (so ++ more)) := by
  induction fuel generalizing state so with
  | zero =>
    intro around history
    refine ⟨[], (List.append_nil history).symm, ?_⟩
    have hstop := hunfinished state so h
    rw [← List.append_nil so] at hstop
    exact hstop
  | succ fuel ih =>
    apply (hpass state so h).bind
    intro next more hnext
    cases next with
    | inl state =>
      simp only [← List.append_assoc]
      exact ih hnext
    | inr a =>
      apply Records.pure
      rw [List.append_nil]
      exact hnext

theorem Records.loop {body : σ → Dialogue ρ ε (σ ⊕ α)} {I : σ → List (Exchange ρ) → Prop}
    {fuel : Nat} {state : σ} (hpass : ∀ state so, I state so → Records (body state)
      (fun next more => Passes I Q next (so ++ more)) (fun more => F (so ++ more))
      (fun more => U (so ++ more)))
    (hunfinished : ∀ state so, I state so → U so) (h : I state []) :
    Records (loop body fuel state) Q F U := by
  have hrun := @Records.loop_from κ ρ ε α σ Q F U body I fuel state [] hpass hunfinished h
  exact hrun

theorem Records.onFailure {cleanup : Dialogue ρ ε PUnit} (hm : Records m Q F U)
    (hcleanup : ∀ more, F more → Records cleanup (fun _ later => F' (more ++ later))
      (fun later => F' (more ++ later)) (fun later => F' (more ++ later))) :
    Records (onFailure m cleanup) Q F' U := by
  intro around history
  obtain ⟨more, hleft, hmeets⟩ := hm around history
  rw [Dialogue.onFailure]
  cases houtcome : m around history with
  | mk result left =>
    rw [houtcome] at hleft hmeets
    cases result with
    | ok a => exact ⟨more, hleft, hmeets⟩
    | error stop =>
      cases stop with
      | unfinished => exact ⟨more, hleft, hmeets⟩
      | failed error =>
        obtain ⟨later, hend, hlater⟩ := hcleanup more hmeets around left
        refine ⟨more ++ later, ?_, ?_⟩
        · rw [← List.append_assoc, ← hleft]
          exact hend
        · cases hresult : (cleanup around left).1 with
          | ok a =>
            rw [hresult] at hlater
            exact hlater
          | error stop =>
            rw [hresult] at hlater
            cases stop with
            | failed error => exact hlater
            | unfinished => exact hlater

theorem Records.reword {g : ε → ε} (hm : Records m Q F U) : Records (reword g m) Q F U := by
  intro around history
  obtain ⟨more, hleft, hmeets⟩ := hm around history
  rw [Dialogue.reword]
  cases houtcome : m around history with
  | mk result left =>
    rw [houtcome] at hleft hmeets
    cases result with
    | ok a => exact ⟨more, hleft, hmeets⟩
    | error stop =>
      cases stop with
      | failed error => exact ⟨more, hleft, hmeets⟩
      | unfinished => exact ⟨more, hleft, hmeets⟩

theorem Records.both (hm : Records m Q F U) (hm' : Records m Q' F' U') :
    Records m (fun a more => Q a more ∧ Q' a more) (fun more => F more ∧ F' more)
      (fun more => U more ∧ U' more) := by
  intro around history
  obtain ⟨more, hleft, hmeets⟩ := hm around history
  obtain ⟨more', hleft', hmeets'⟩ := hm' around history
  have hsame : more' = more := List.append_cancel_left (hleft'.symm.trans hleft)
  subst hsame
  refine ⟨more', hleft, ?_⟩
  cases houtcome : (m around history).1 with
  | ok a =>
    rw [houtcome] at hmeets hmeets'
    exact ⟨hmeets, hmeets'⟩
  | error stop =>
    rw [houtcome] at hmeets hmeets'
    cases stop with
    | failed error => exact ⟨hmeets, hmeets'⟩
    | unfinished => exact ⟨hmeets, hmeets'⟩

/-- What `m` records when it has a result. -/
def Yields (m : Dialogue ρ ε α) (Q : α → List (Exchange ρ) → Prop) : Prop :=
  Records m Q (fun _ => True) (fun _ => True)

theorem Yields.weaken (h : Yields m Q) (hQ : ∀ a more, Q a more → Q' a more) : Yields m Q' :=
  Records.weaken h hQ (fun _ _ => trivial) (fun _ _ => trivial)

theorem Yields.pure {a : α} (h : Q a []) : Yields (pure a : Dialogue ρ ε α) Q := Records.pure h

theorem Yields.fail {error : ε} : Yields (fail error : Dialogue ρ ε α) Q := Records.fail trivial

theorem Yields.bind (hm : Yields m Q)
    (hf : ∀ a more, Q a more → Yields (f a) (fun b later => R b (more ++ later))) :
    Yields (m >>= f) R := Records.bind hm hf

theorem Yields.ask_bind {f : ρ call → Dialogue ρ ε β}
    (h : ∀ answer, Yields (f answer) (fun b later => R b (⟨call, answer⟩ :: later))) :
    Yields (Dialogue.ask call >>= f) R := Records.ask_bind h

theorem Yields.ite {c : Prop} [Decidable c] {m' : Dialogue ρ ε α} (hm : c → Yields m Q)
    (hm' : ¬c → Yields m' Q) : Yields (if c then m else m') Q := Records.ite hm hm'

theorem Yields.loop {body : σ → Dialogue ρ ε (σ ⊕ α)} {I : σ → List (Exchange ρ) → Prop}
    {fuel : Nat} {state : σ} (hpass : ∀ state so, I state so → Yields (body state)
      (fun next more => Passes I Q next (so ++ more))) (h : I state []) :
    Yields (loop body fuel state) Q :=
  Records.loop hpass (fun _ _ _ => trivial) h

theorem Yields.onFailure {cleanup : Dialogue ρ ε PUnit} (hm : Yields m Q)
    (hcleanup : Yields cleanup fun _ _ => True) : Yields (onFailure m cleanup) Q :=
  Records.onFailure hm fun _ _ => hcleanup

theorem Yields.reword {g : ε → ε} (hm : Yields m Q) : Yields (reword g m) Q := Records.reword hm

end Records

section Within

def Only (P : Exchange ρ → Prop) (history : List (Exchange ρ)) : Prop := ∀ e ∈ history, P e

variable {P P' : Exchange ρ → Prop} {m : Dialogue ρ ε α} {f : α → Dialogue ρ ε β} {call : κ}

@[simp] theorem only_nil : Only P ([] : List (Exchange ρ)) := by
  intro e he
  cases he

@[simp] theorem only_cons {e : Exchange ρ} {history : List (Exchange ρ)} :
    Only P (e :: history) ↔ P e ∧ Only P history := List.forall_mem_cons

@[simp] theorem only_append {history more : List (Exchange ρ)} :
    Only P (history ++ more) ↔ Only P history ∧ Only P more := List.forall_mem_append

theorem Only.weaken {history : List (Exchange ρ)} (h : Only P history) (hP : ∀ e, P e → P' e) :
    Only P' history := fun e he => hP e (h e he)

/-- However `m` ends, its exchanges have the property. -/
def Within (P : Exchange ρ → Prop) (m : Dialogue ρ ε α) : Prop :=
  Records m (fun _ => Only P) (Only P) (Only P)

theorem Within.weaken (h : Within P m) (hP : ∀ e, P e → P' e) : Within P' m :=
  Records.weaken h (fun _ _ hmore => hmore.weaken hP) (fun _ hmore => hmore.weaken hP)
    (fun _ hmore => hmore.weaken hP)

theorem Within.yields (h : Within P m) : Yields m fun _ => Only P :=
  Records.weaken h (fun _ _ hmore => hmore) (fun _ _ => trivial) (fun _ _ => trivial)

theorem Yields.within {Q : α → List (Exchange ρ) → Prop} (h : Yields m Q) (hwithin : Within P m) :
    Yields m fun a more => Q a more ∧ Only P more :=
  Records.weaken (Records.both h hwithin) (fun _ _ hmore => hmore) (fun _ _ => trivial)
    (fun _ _ => trivial)

theorem Within.pure {a : α} : Within P (pure a : Dialogue ρ ε α) := Records.pure only_nil

theorem Within.fail {error : ε} : Within P (fail error : Dialogue ρ ε α) := Records.fail only_nil

theorem Within.ask (h : ∀ answer, P ⟨call, answer⟩) : Within P (ask call : Dialogue ρ ε (ρ call)) :=
  Records.ask fun answer => only_cons.mpr ⟨h answer, only_nil⟩

theorem Within.bind (hm : Within P m) (hf : ∀ a, Within P (f a)) : Within P (m >>= f) := by
  apply Records.bind hm
  intro a more hmore
  exact Records.weaken (hf a) (fun _ later hlater => only_append.mpr ⟨hmore, hlater⟩)
    (fun later hlater => only_append.mpr ⟨hmore, hlater⟩)
    (fun later hlater => only_append.mpr ⟨hmore, hlater⟩)

theorem Within.ask_bind {f : ρ call → Dialogue ρ ε β} (h : ∀ answer, P ⟨call, answer⟩)
    (hf : ∀ answer, Within P (f answer)) : Within P (Dialogue.ask call >>= f) :=
  (Within.ask h).bind hf

theorem Within.ite {c : Prop} [Decidable c] {m' : Dialogue ρ ε α} (hm : Within P m)
    (hm' : Within P m') : Within P (if c then m else m') := Records.ite (fun _ => hm) (fun _ => hm')

theorem Within.loop {body : σ → Dialogue ρ ε (σ ⊕ α)} {fuel : Nat} {state : σ}
    (hpass : ∀ state, Within P (body state)) : Within P (loop body fuel state) := by
  induction fuel generalizing state with
  | zero => exact fun _ history => ⟨[], (List.append_nil history).symm, only_nil⟩
  | succ fuel ih =>
    apply (hpass state).bind
    intro next
    cases next with
    | inl state => exact ih
    | inr a => exact Within.pure

theorem Within.onFailure {cleanup : Dialogue ρ ε PUnit} (hm : Within P m)
    (hcleanup : Within P cleanup) : Within P (onFailure m cleanup) := by
  apply Records.onFailure hm
  intro more hmore
  exact Records.weaken hcleanup (fun _ later hlater => only_append.mpr ⟨hmore, hlater⟩)
    (fun later hlater => only_append.mpr ⟨hmore, hlater⟩)
    (fun later hlater => only_append.mpr ⟨hmore, hlater⟩)

theorem Within.reword {g : ε → ε} (hm : Within P m) : Within P (reword g m) := Records.reword hm

end Within

section Brief

variable {P P' : Exchange ρ → Prop} {m : Dialogue ρ ε α} {f : α → Dialogue ρ ε β} {call : κ}

/-- `m` comes to its end, and its exchanges have the property. -/
def Brief (P : Exchange ρ → Prop) (m : Dialogue ρ ε α) : Prop :=
  Records m (fun _ => Only P) (Only P) (fun _ => False)

theorem Brief.within (h : Brief P m) : Within P m :=
  Records.weaken h (fun _ _ hmore => hmore) (fun _ hmore => hmore) (fun _ hmore => hmore.elim)

theorem Brief.weaken (h : Brief P m) (hP : ∀ e, P e → P' e) : Brief P' m :=
  Records.weaken h (fun _ _ hmore => hmore.weaken hP) (fun _ hmore => hmore.weaken hP)
    (fun _ hmore => hmore)

theorem Brief.pure {a : α} : Brief P (pure a : Dialogue ρ ε α) := Records.pure only_nil

theorem Brief.fail {error : ε} : Brief P (fail error : Dialogue ρ ε α) := Records.fail only_nil

theorem Brief.ask (h : ∀ answer, P ⟨call, answer⟩) : Brief P (ask call : Dialogue ρ ε (ρ call)) :=
  Records.ask fun answer => only_cons.mpr ⟨h answer, only_nil⟩

theorem Brief.bind (hm : Brief P m) (hf : ∀ a, Brief P (f a)) : Brief P (m >>= f) := by
  apply Records.bind hm
  intro a more hmore
  exact Records.weaken (hf a) (fun _ later hlater => only_append.mpr ⟨hmore, hlater⟩)
    (fun later hlater => only_append.mpr ⟨hmore, hlater⟩) (fun later hlater => hlater)

theorem Brief.ask_bind {f : ρ call → Dialogue ρ ε β} (h : ∀ answer, P ⟨call, answer⟩)
    (hf : ∀ answer, Brief P (f answer)) : Brief P (Dialogue.ask call >>= f) :=
  (Brief.ask h).bind hf

/-- A program that starts with a call leaves the history longer. -/
theorem Brief.ask_bind_stirs {f : ρ call → Dialogue ρ ε β} (h : ∀ answer, P ⟨call, answer⟩)
    (hf : ∀ answer, Brief P (f answer)) : Brief P (Dialogue.ask call >>= f) ∧
      ∀ around history, history.length < ((Dialogue.ask call >>= f) around history).2.length := by
  refine ⟨Brief.ask_bind h hf, ?_⟩
  intro around history
  obtain ⟨more, hleft, -⟩ := hf (around call history) around
    (history ++ [⟨call, around call history⟩])
  rw [ask_bind_run, hleft, List.length_append, List.length_append, List.length_singleton]
  omega

theorem Brief.ite {c : Prop} [Decidable c] {m' : Dialogue ρ ε α} (hm : Brief P m)
    (hm' : Brief P m') : Brief P (if c then m else m') := Records.ite (fun _ => hm) (fun _ => hm')

theorem Brief.onFailure {cleanup : Dialogue ρ ε PUnit} (hm : Brief P m)
    (hcleanup : Brief P cleanup) : Brief P (onFailure m cleanup) := by
  apply Records.onFailure hm
  intro more hmore
  exact Records.weaken hcleanup (fun _ later hlater => only_append.mpr ⟨hmore, hlater⟩)
    (fun later hlater => only_append.mpr ⟨hmore, hlater⟩) (fun later hlater => hlater.elim)

theorem Brief.reword {g : ε → ε} (hm : Brief P m) : Brief P (reword g m) := Records.reword hm

theorem Brief.finished (h : Brief P m) (around : Surroundings ρ) (history : List (Exchange ρ)) :
    (m around history).1 ≠ .error .unfinished := by
  intro hunfinished
  obtain ⟨more, -, hmeets⟩ := h around history
  rw [hunfinished] at hmeets
  exact hmeets

end Brief

section Until

variable {P : Exchange ρ → Prop} {m : Dialogue ρ ε α} {f : α → Dialogue ρ ε β}

/-- Unless `m` has a result, its exchanges have the property. -/
def Until (P : Exchange ρ → Prop) (m : Dialogue ρ ε α) : Prop :=
  Records m (fun _ _ => True) (Only P) (Only P)

theorem Within.until (h : Within P m) : Until P m :=
  Records.weaken h (fun _ _ _ => trivial) (fun _ hmore => hmore) (fun _ hmore => hmore)

theorem Until.bind (hm : Within P m) (hf : ∀ a, Until P (f a)) : Until P (m >>= f) := by
  apply Records.bind (R := fun _ _ => True) hm
  intro a more hmore
  exact Records.weaken (hf a) (fun _ _ _ => trivial)
    (fun later hlater => only_append.mpr ⟨hmore, hlater⟩)
    (fun later hlater => only_append.mpr ⟨hmore, hlater⟩)

end Until

section Ensures

variable {P P' : List (Exchange ρ) → Prop} {m : Dialogue ρ ε α} {f : α → Dialogue ρ ε β}
  {Q Q' : α → List (Exchange ρ) → Prop} {R : β → List (Exchange ρ) → Prop}
  {F F' : List (Exchange ρ) → Prop} {call : κ}

/-- From a history with `P`, a result of `m` comes with `Q`, and whatever else with `F`. -/
def Ensures (P : List (Exchange ρ) → Prop) (m : Dialogue ρ ε α) (Q : α → List (Exchange ρ) → Prop)
    (F : List (Exchange ρ) → Prop) : Prop :=
  ∀ around history, P history → Meets Q F F (m around history)

theorem Ensures.weaken (h : Ensures P m Q F) (hP : ∀ history, P' history → P history)
    (hQ : ∀ a history, Q a history → Q' a history) : Ensures P' m Q' F := by
  intro around history hhistory
  have hmeets := h around history (hP history hhistory)
  cases houtcome : m around history with
  | mk result left =>
    rw [houtcome] at hmeets
    cases result with
    | ok a => exact hQ a left hmeets
    | error stop =>
      cases stop with
      | failed error => exact hmeets
      | unfinished => exact hmeets

theorem Ensures.pure {a : α} (h : ∀ history, P history → Q a history) :
    Ensures P (pure a : Dialogue ρ ε α) Q F := fun _ history hhistory => h history hhistory

theorem Ensures.fail {error : ε} (h : ∀ history, P history → F history) :
    Ensures P (fail error : Dialogue ρ ε α) Q F := fun _ history hhistory => h history hhistory

theorem Ensures.ask {Q : ρ call → List (Exchange ρ) → Prop}
    (h : ∀ history answer, P history → Q answer (history ++ [⟨call, answer⟩])) :
    Ensures P (ask call : Dialogue ρ ε (ρ call)) Q F :=
  fun around history hhistory => h history (around call history) hhistory

theorem Ensures.bind (hm : Ensures P m Q F) (hf : ∀ a, Ensures (Q a) (f a) R F) :
    Ensures P (m >>= f) R F := by
  intro around history hhistory
  have hmeets := hm around history hhistory
  have hrun : (m >>= f) around history = andThen f around (m around history) := rfl
  rw [hrun]
  cases houtcome : m around history with
  | mk result left =>
    rw [houtcome] at hmeets
    cases result with
    | ok a => exact hf a around left hmeets
    | error stop =>
      cases stop with
      | failed error => exact hmeets
      | unfinished => exact hmeets

theorem Ensures.ask_bind {f : ρ call → Dialogue ρ ε β} {Q : ρ call → List (Exchange ρ) → Prop}
    (h : ∀ history answer, P history → Q answer (history ++ [⟨call, answer⟩]))
    (hf : ∀ answer, Ensures (Q answer) (f answer) R F) :
    Ensures P (Dialogue.ask call >>= f) R F := (Ensures.ask h).bind hf

theorem Ensures.ite {c : Prop} [Decidable c] {m' : Dialogue ρ ε α} (hm : c → Ensures P m Q F)
    (hm' : ¬c → Ensures P m' Q F) : Ensures P (if c then m else m') Q F := by
  by_cases h : c
  · rw [if_pos h]
    exact hm h
  · rw [if_neg h]
    exact hm' h

/-- What holds of a history whatever else it is may be kept out of sight. -/
theorem Ensures.given {C : Prop} (h : C → Ensures P m Q F) (hC : ∀ history, P history → C) :
    Ensures P m Q F := fun around history hhistory => h (hC history hhistory) around history hhistory

/-- Every call of a history was allowed by what had come before it. -/
def Guarded (J : List (Exchange ρ) → κ → Prop) (history : List (Exchange ρ)) : Prop :=
  ∀ front e back, history = front ++ e :: back → J front e.1

theorem guarded_nil {J : List (Exchange ρ) → κ → Prop} : Guarded J [] := by
  intro front e back h
  cases front <;> cases h

theorem Guarded.snoc {J : List (Exchange ρ) → κ → Prop} {history : List (Exchange ρ)} {e : Exchange ρ}
    (h : Guarded J history) (he : J history e.1) : Guarded J (history ++ [e]) := by
  intro front e' back heq
  cases List.eq_nil_or_concat back with
  | inl hback =>
    subst hback
    obtain ⟨hfront, hlast⟩ := List.append_inj' heq rfl
    cases hlast
    exact hfront ▸ he
  | inr hback =>
    obtain ⟨back, last, rfl⟩ := hback
    rw [List.concat_eq_append, ← List.cons_append, ← List.append_assoc] at heq
    exact h front e' back (List.append_inj' heq rfl).1

theorem Guarded.append {J : List (Exchange ρ) → κ → Prop} {history more : List (Exchange ρ)}
    (h : Guarded J history) (hfree : ∀ e ∈ more, ∀ front, J front e.1) :
    Guarded J (history ++ more) := by
  induction more generalizing history with
  | nil =>
    rw [List.append_nil]
    exact h
  | cons e more ih =>
    rw [List.append_cons]
    apply ih (h.snoc (hfree e List.mem_cons_self history))
    exact fun e he => hfree e (List.mem_cons_of_mem _ he)

/-- Somewhere `m` has come to this result with these exchanges. -/
def Transcript (m : Dialogue ρ ε α) (a : α) (more : List (Exchange ρ)) : Prop :=
  ∃ around history, m around history = (.ok a, history ++ more)

theorem Records.ensures {U : List (Exchange ρ) → Prop} (h : Records m Q F U)
    (hF : ∀ history more, P history → F more ∨ U more → F' (history ++ more)) :
    Ensures P m (fun a left => ∃ history more, left = history ++ more ∧ P history ∧ Q a more ∧
      Transcript m a more) F' := by
  intro around history hhistory
  obtain ⟨more, hleft, hmeets⟩ := h around history
  cases houtcome : m around history with
  | mk result left =>
    rw [houtcome] at hleft hmeets
    subst hleft
    cases result with
    | ok a => exact ⟨history, more, rfl, hhistory, hmeets, around, history, houtcome⟩
    | error stop =>
      cases stop with
      | failed error => exact hF history more hhistory (Or.inl hmeets)
      | unfinished => exact hF history more hhistory (Or.inr hmeets)

end Ensures

section Replays

variable {m : Dialogue ρ ε α} {f : α → Dialogue ρ ε β} {call : κ} {around around' : Surroundings ρ}
  {history history' more : List (Exchange ρ)}

/-- The surroundings answer behind `history` as they did in the exchanges `more`. -/
def Answers (around : Surroundings ρ) : (history more : List (Exchange ρ)) → Prop
  | _, [] => True
  | history, e :: more => around e.1 history = e.2 ∧ Answers around (history ++ [e]) more

theorem answers_append {later : List (Exchange ρ)} : Answers around history (more ++ later) ↔
    Answers around history more ∧ Answers around (history ++ more) later := by
  induction more generalizing history with
  | nil =>
    rw [List.nil_append, List.append_nil, Answers, true_and]
  | cons e more ih =>
    rw [List.cons_append, Answers, Answers, ih, List.append_assoc, List.singleton_append, and_assoc]

/-- Nothing but the answers decides what `m` does. -/
def Replays (m : Dialogue ρ ε α) : Prop :=
  ∀ around history, ∃ more, (m around history).2 = history ++ more ∧ ∀ around' history',
    Answers around' history' more → m around' history' = ((m around history).1, history' ++ more)

theorem Replays.pure {a : α} : Replays (pure a : Dialogue ρ ε α) := by
  intro around history
  refine ⟨[], (List.append_nil history).symm, fun around' history' _ => ?_⟩
  rw [List.append_nil]
  rfl

theorem Replays.fail {error : ε} : Replays (fail error : Dialogue ρ ε α) := by
  intro around history
  refine ⟨[], (List.append_nil history).symm, fun around' history' _ => ?_⟩
  rw [List.append_nil]
  rfl

theorem Replays.ask : Replays (ask call : Dialogue ρ ε (ρ call)) := by
  intro around history
  refine ⟨_, rfl, fun around' history' hanswers => ?_⟩
  have hsame : around' call history' = around call history := hanswers.1
  have hrun : (Dialogue.ask call : Dialogue ρ ε (ρ call)) around' history' =
    (.ok (around' call history'), history' ++ [⟨call, around' call history'⟩]) := rfl
  rw [hrun, hsame]
  rfl

theorem Replays.bind (hm : Replays m) (hf : ∀ a, Replays (f a)) : Replays (m >>= f) := by
  intro around history
  obtain ⟨more, hleft, hreplay⟩ := hm around history
  have hrun : ∀ around history, (m >>= f) around history = andThen f around (m around history) :=
    fun _ _ => rfl
  cases houtcome : m around history with
  | mk result left =>
    rw [houtcome] at hleft hreplay
    cases result with
    | error stop =>
      refine ⟨more, ?_, fun around' history' hanswers => ?_⟩
      · rw [hrun, houtcome]
        exact hleft
      · rw [hrun, hrun, houtcome, hreplay around' history' hanswers]
        rfl
    | ok a =>
      obtain ⟨later, hend, hlater⟩ := hf a around left
      refine ⟨more ++ later, ?_, fun around' history' hanswers => ?_⟩
      · rw [hrun, houtcome, ← List.append_assoc, ← hleft]
        exact hend
      · obtain ⟨hfirst, hsecond⟩ := answers_append.mp hanswers
        rw [hrun, hrun, houtcome, hreplay around' history' hfirst, ← List.append_assoc]
        exact hlater around' (history' ++ more) hsecond

theorem Replays.ask_bind {f : ρ call → Dialogue ρ ε β} (hf : ∀ answer, Replays (f answer)) :
    Replays (Dialogue.ask call >>= f) := Replays.ask.bind hf

theorem Replays.ite {c : Prop} [Decidable c] {m' : Dialogue ρ ε α} (hm : Replays m)
    (hm' : Replays m') : Replays (if c then m else m') := by
  by_cases h : c
  · rw [if_pos h]
    exact hm
  · rw [if_neg h]
    exact hm'

/-- The same answers lead to the same end. -/
theorem Replays.transcript {a : α} (h : Replays m) (htranscript : Transcript m a more)
    (hanswers : Answers around history more) : m around history = (.ok a, history ++ more) := by
  obtain ⟨around', history', houtcome⟩ := htranscript
  obtain ⟨same, hleft, hreplay⟩ := h around' history'
  rw [houtcome] at hleft hreplay
  have hsame : more = same := List.append_cancel_left hleft
  subst hsame
  exact hreplay around history hanswers

end Replays

section Settles

variable {m : Nat → Dialogue ρ ε α} {around : Surroundings ρ} {history : List (Exchange ρ)}

/-- From some fuel on the program comes to an end, which more fuel does not change. -/
def Settles (m : Nat → Dialogue ρ ε α) (around : Surroundings ρ) (history : List (Exchange ρ)) : Prop :=
  ∃ n, (m n around history).1 ≠ .error .unfinished ∧
    ∀ fuel, n ≤ fuel → m fuel around history = m n around history

theorem Settles.of_brief {P : Exchange ρ → Prop} {m : Dialogue ρ ε α} (h : Brief P m) :
    Settles (fun _ => m) around history := ⟨0, h.finished around history, fun _ _ => rfl⟩

theorem Settles.bind {f : Nat → α → Dialogue ρ ε β} (hm : Settles m around history)
    (hf : ∀ a left, Settles (fun fuel => f fuel a) around left) :
    Settles (fun fuel => m fuel >>= f fuel) around history := by
  obtain ⟨n, hfinished, hsame⟩ := hm
  cases houtcome : m n around history with
  | mk result left =>
    rw [houtcome] at hfinished hsame
    cases result with
    | error stop =>
      have hrun : ∀ fuel, n ≤ fuel → (m fuel >>= f fuel) around history = (.error stop, left) := by
        intro fuel hfuel
        have hbind : (m fuel >>= f fuel) around history =
          andThen (f fuel) around (m fuel around history) := rfl
        rw [hbind, hsame fuel hfuel]
        rfl
      refine ⟨n, ?_, fun fuel hfuel => ?_⟩
      · have hstop := hrun n (Nat.le_refl n)
        intro hunfinished
        have hsame := (congrArg Prod.fst hstop).symm.trans hunfinished
        exact hfinished (congrArg _ (Except.error.inj hsame))
      · exact (hrun fuel hfuel).trans (hrun n (Nat.le_refl n)).symm
    | ok a =>
      obtain ⟨later, hlater, hsameLater⟩ := hf a left
      have hrun : ∀ fuel, max n later ≤ fuel →
          (m fuel >>= f fuel) around history = f later a around left := by
        intro fuel hfuel
        have hbind : (m fuel >>= f fuel) around history =
          andThen (f fuel) around (m fuel around history) := rfl
        rw [hbind, hsame fuel (Nat.le_trans (Nat.le_max_left _ _) hfuel)]
        exact hsameLater fuel (Nat.le_trans (Nat.le_max_right _ _) hfuel)
      refine ⟨max n later, ?_, fun fuel hfuel => ?_⟩
      · have hend := hrun _ (Nat.le_refl _)
        intro hunfinished
        exact hlater ((congrArg Prod.fst hend).symm.trans hunfinished)
      · exact (hrun fuel hfuel).trans (hrun _ (Nat.le_refl _)).symm

theorem Settles.brief_bind {P : Exchange ρ → Prop} {m : Dialogue ρ ε α} {f : Nat → α → Dialogue ρ ε β}
    (hm : Brief P m) (hf : ∀ a left, Settles (fun fuel => f fuel a) around left) :
    Settles (fun fuel => m >>= f fuel) around history := (Settles.of_brief hm).bind hf

theorem Settles.ask_bind {call : κ} {f : Nat → ρ call → Dialogue ρ ε β}
    (hf : ∀ answer left, Settles (fun fuel => f fuel answer) around left) :
    Settles (fun fuel => Dialogue.ask call >>= f fuel) around history :=
  Settles.brief_bind (Brief.ask (P := fun _ => True) fun _ => trivial) hf

theorem Settles.pure {a : α} : Settles (fun _ => (pure a : Dialogue ρ ε α)) around history :=
  Settles.of_brief (Brief.pure (P := fun _ => True))

theorem Settles.fail {error : ε} :
    Settles (fun _ => (fail error : Dialogue ρ ε α)) around history :=
  Settles.of_brief (Brief.fail (P := fun _ => True))

theorem Settles.ite {c : Prop} [Decidable c] {m' : Nat → Dialogue ρ ε α}
    (hm : Settles m around history) (hm' : Settles m' around history) :
    Settles (fun fuel => if c then m fuel else m' fuel) around history := by
  by_cases h : c
  · simp only [if_pos h]
    exact hm
  · simp only [if_neg h]
    exact hm'

theorem Settles.onFailure {cleanup : Dialogue ρ ε PUnit} (hm : Settles m around history) :
    Settles (fun fuel => onFailure (m fuel) cleanup) around history := by
  obtain ⟨n, hfinished, hsame⟩ := hm
  have hclean : ∀ outcome : Except (Stop ε) α × List (Exchange ρ), outcome.1 ≠ .error .unfinished →
      (cleanUp cleanup around outcome).1 ≠ .error .unfinished := by
    intro outcome houtcome
    obtain ⟨result, left⟩ := outcome
    cases result with
    | ok a => exact houtcome
    | error stop =>
      cases stop with
      | failed error => exact houtcome
      | unfinished => exact absurd rfl houtcome
  exact ⟨n, hclean _ hfinished, fun fuel hfuel => congrArg (cleanUp cleanup around) (hsame fuel hfuel)⟩

/-- A loop settles when each pass that goes on asks something, and none goes on after `n` exchanges. -/
theorem Settles.loop {body : σ → Dialogue ρ ε (σ ⊕ α)} {state : σ} {n : Nat}
    (hfinished : ∀ state history, (body state around history).1 ≠ .error .unfinished)
    (hgrows : ∀ state history, history.length < (body state around history).2.length)
    (hlong : ∀ state history, n ≤ history.length →
      ∀ next, (body state around history).1 ≠ .ok (.inl next)) :
    Settles (fun fuel => Dialogue.loop body fuel state) around history := by
  have hrun : ∀ fuel state history, n ≤ history.length + fuel →
      (Dialogue.loop body (fuel + 1) state around history).1 ≠ .error .unfinished ∧
        ∀ more, Dialogue.loop body (fuel + more + 1) state around history =
          Dialogue.loop body (fuel + 1) state around history := by
    intro fuel
    induction fuel with
    | zero =>
      intro state history hn
      have hbody := hfinished state history
      have hstops := hlong state history hn
      have hpass : ∀ fuel, Dialogue.loop body (fuel + 1) state around history =
          andThen (goOn (Dialogue.loop body fuel)) around (body state around history) := fun _ => rfl
      simp only [hpass]
      cases houtcome : body state around history with
      | mk result left =>
        rw [houtcome] at hbody hstops
        cases result with
        | error stop =>
          refine ⟨fun hunfinished => hbody ?_, fun _ => rfl⟩
          exact congrArg _ (Except.error.inj hunfinished)
        | ok next =>
          cases next with
          | inl next => exact absurd rfl (hstops next)
          | inr a => exact ⟨fun hunfinished => (by cases hunfinished), fun _ => rfl⟩
    | succ fuel ih =>
      intro state history hn
      have hbody := hfinished state history
      have hmore := hgrows state history
      have hpass : ∀ fuel, Dialogue.loop body (fuel + 1) state around history =
          andThen (goOn (Dialogue.loop body fuel)) around (body state around history) := fun _ => rfl
      simp only [hpass, Nat.succ_add_eq_add_succ]
      cases houtcome : body state around history with
      | mk result left =>
        rw [houtcome] at hbody hmore
        cases result with
        | error stop =>
          refine ⟨fun hunfinished => hbody ?_, fun _ => rfl⟩
          exact congrArg _ (Except.error.inj hunfinished)
        | ok next =>
          cases next with
          | inl next => exact ih next left (by simp only at hmore; omega)
          | inr a => exact ⟨fun hunfinished => (by cases hunfinished), fun _ => rfl⟩
  refine ⟨n + 1, (hrun n state history (Nat.le_add_left _ _)).1, ?_⟩
  intro fuel hfuel
  obtain ⟨more, rfl⟩ := Nat.exists_eq_add_of_le hfuel
  rw [Nat.add_right_comm]
  exact (hrun n state history (Nat.le_add_left _ _)).2 more

end Settles

end Dialogue

end FfbInterceptor.Library
