import Mathlib.Logic.Basic

/-! Scripts in which one operation may fail, and clean-up that undoes what was done before. -/
namespace FfbInterceptor.Library

variable {σ ε ρ α β : Type}

/-- The state, and how many operations succeed before one fails: none fails without a number. -/
structure World (σ : Type) where
  state : σ
  countdown : Option Nat

abbrev Script (σ ε α : Type) := ExceptT ε (StateM (World σ)) α

namespace Script

/-- The result, or the error the script stopped at, and the world at that point. -/
def outcome (m : Script σ ε α) (w : World σ) : Except ε α × World σ := m.run w

/-- The next operation of a world, with what it leaves when it is the one to fail. -/
def attempt (failure : ε) (torn : σ → σ) (effect : σ → Except ε (α × σ)) (w : World σ) :
    Except ε α × World σ :=
  match w.countdown with
  | some 0 => (.error failure, ⟨torn w.state, none⟩)
  | n =>
    match effect w.state with
    | .ok (a, s) => (.ok a, ⟨s, n.map Nat.pred⟩)
    | .error e => (.error e, w)

def operation (failure : ε) (torn : σ → σ) (effect : σ → Except ε (α × σ)) : Script σ ε α :=
  ExceptT.mk fun w => attempt failure torn effect w

/-- A question to the state, which does not fail. -/
def look (f : σ → α) : Script σ ε α := ExceptT.mk fun w => (.ok (f w.state), w)

def amend (f : σ → σ) : Script σ ε PUnit :=
  ExceptT.mk fun w => (.ok ⟨⟩, { w with state := f w.state })

/-- What a handler makes of an outcome. Nothing fails in the clean-up. -/
def handle (cleanup : Script σ ε PUnit) : Except ε α × World σ → Except ε α × World σ
  | (.ok a, w) => (.ok a, w)
  | (.error e, w) =>
    match cleanup.outcome ⟨w.state, none⟩ with
    | (.ok _, w') => (.error e, w')
    | (.error e', w') => (.error e', w')

def onError (m : Script σ ε α) (cleanup : Script σ ε PUnit) : Script σ ε α :=
  ExceptT.mk fun w => handle cleanup (m.outcome w)

def always (m : Script σ ε α) (cleanup : Script σ ε PUnit) : Script σ ε α := do
  let a ← onError m cleanup
  cleanup
  pure a

def swallow (m : Script σ ε PUnit) : Script σ ε PUnit :=
  ExceptT.mk fun w => (.ok ⟨⟩, (m.outcome w).2)

theorem outcome_bind (m : Script σ ε α) (f : α → Script σ ε β) (w : World σ) :
    (m >>= f).outcome w =
      match m.outcome w with
      | (.ok a, w') => (f a).outcome w'
      | (.error e, w') => (.error e, w') := by
  have hbind : (m >>= f).outcome w = ExceptT.bindCont f (m.outcome w).1 (m.outcome w).2 := rfl
  rw [hbind]
  cases m.outcome w with
  | mk result w' => cases result <;> rfl

section Ends

/-- What an outcome satisfies: `Q` a result, `E` an error. -/
def Meets (Q : α → σ → Prop) (E : σ → Prop) : Except ε α × World σ → Prop
  | (.ok a, w) => Q a w.state
  | (.error _, w) => E w.state

/-- How `m` ends, wherever an operation of it fails. -/
def Ends (m : Script σ ε α) (s : σ) (Q : α → σ → Prop) (E : σ → Prop) : Prop :=
  ∀ n, Meets Q E (m.outcome ⟨s, n⟩)

variable {s : σ} {Q Q' : α → σ → Prop} {R : β → σ → Prop} {E F : σ → Prop}
  {m : Script σ ε α} {f : α → Script σ ε β}

theorem Ends.weaken (h : Ends m s Q E) (hQ : ∀ a s', Q a s' → Q' a s') (hE : ∀ s', E s' → F s') :
    Ends m s Q' F := by
  intro n
  have hn := h n
  cases hout : m.outcome ⟨s, n⟩ with
  | mk result w =>
    rw [hout] at hn
    cases result with
    | error e => exact hE _ hn
    | ok a => exact hQ _ _ hn

theorem Ends.bind (hm : Ends m s Q E) (hf : ∀ a s', Q a s' → Ends (f a) s' R E) :
    Ends (m >>= f) s R E := by
  intro n
  have hn := hm n
  rw [outcome_bind]
  cases hout : m.outcome ⟨s, n⟩ with
  | mk result w =>
    rw [hout] at hn
    cases result with
    | error e => exact hn
    | ok a => exact hf a w.state hn w.countdown

theorem Ends.pure (a : α) (h : Q a s) : Ends (ε := ε) (pure a) s Q E := fun _ => h

theorem Ends.throw (e : ε) (h : E s) : Ends (throw e : Script σ ε α) s Q E := fun _ => h

theorem Ends.look {g : σ → α} (h : Q (g s) s) : Ends (ε := ε) (look g) s Q E := fun _ => h

theorem Ends.amend {g : σ → σ} {Q : PUnit → σ → Prop} (h : Q ⟨⟩ (g s)) :
    Ends (ε := ε) (amend g) s Q E := fun _ => h

theorem Ends.look_bind {γ : Type} {g : σ → γ} {f : γ → Script σ ε β} (h : Ends (f (g s)) s R E) :
    Ends (Script.look g >>= f) s R E := by
  intro n
  rw [outcome_bind]
  exact h n

theorem Ends.amend_bind {g : σ → σ} {f : PUnit → Script σ ε β} (h : Ends (f ⟨⟩) (g s) R E) :
    Ends (Script.amend g >>= f) s R E := by
  intro n
  rw [outcome_bind]
  exact h n

theorem Ends.operation {failure : ε} {torn : σ → σ} {effect : σ → Except ε (α × σ)}
    (htorn : E (torn s)) (hok : ∀ a s', effect s = .ok (a, s') → Q a s')
    (herror : ∀ e, effect s = .error e → E s) : Ends (operation failure torn effect) s Q E := by
  intro n
  change Meets Q E (attempt failure torn effect ⟨s, n⟩)
  unfold attempt
  split
  · exact htorn
  · split
    · next heffect => exact hok _ _ heffect
    · next heffect => exact herror _ heffect

theorem Ends.ite {c : Prop} [Decidable c] {m' : Script σ ε α} (hm : c → Ends m s Q E)
    (hm' : ¬c → Ends m' s Q E) : Ends (if c then m else m') s Q E := by
  split
  · next h => exact hm h
  · next h => exact hm' h

/-- A loop, with what holds after each pass said of the elements that are done. -/
theorem Ends.forM {g : α → Script σ ε PUnit} {I : List α → σ → Prop} (todo : List α)
    {done : List α} (hs : I done s)
    (hg : ∀ before a after s, done ++ todo = before ++ a :: after → I before s →
      Ends (g a) s (fun _ => I (before ++ [a])) E) :
    Ends (todo.forM g) s (fun _ => I (done ++ todo)) E := by
  induction todo generalizing done s with
  | nil => exact Ends.pure _ (by rwa [List.append_nil])
  | cons a todo ih =>
    have hsplit : done ++ a :: todo = (done ++ [a]) ++ todo := by
      rw [List.append_assoc, List.singleton_append]
    apply (hg done a todo s rfl hs).bind
    intro _ s' hs'
    rw [hsplit]
    rw [hsplit] at hg
    exact ih hs' hg

theorem Ends.swallow {m : Script σ ε PUnit} {P : σ → Prop} (h : Ends m s (fun _ => P) P) :
    Ends (ε := ε) (swallow m) s (fun _ => P) E := by
  intro n
  have hn := h n
  change P (m.outcome ⟨s, n⟩).2.state
  cases hout : m.outcome ⟨s, n⟩ with
  | mk result w =>
    rw [hout] at hn
    cases result <;> exact hn

end Ends

section Reads

/-- `m` leaves the state alone, whether it returns or stops. -/
def Reads (m : Script σ ε α) : Prop := ∀ s, Ends m s (fun _ s' => s' = s) (fun s' => s' = s)

variable {s : σ} {R : β → σ → Prop} {E : σ → Prop} {m m' : Script σ ε α} {f : α → Script σ ε β}

theorem Reads.pure (a : α) : Reads (ε := ε) (σ := σ) (pure a) := fun _ => Ends.pure a rfl

theorem Reads.throw (e : ε) : Reads (throw e : Script σ ε α) := fun _ => Ends.throw e rfl

theorem Reads.look (g : σ → α) : Reads (ε := ε) (look g) := fun _ => Ends.look rfl

theorem Reads.bind (hm : Reads m) (hf : ∀ a, Reads (f a)) : Reads (m >>= f) := by
  intro s
  apply Ends.bind (hm s)
  rintro a s' rfl
  exact hf a s'

theorem Reads.ite {c : Prop} [Decidable c] (hm : Reads m) (hm' : Reads m') :
    Reads (if c then m else m') := by
  split
  · exact hm
  · exact hm'

theorem Reads.operation {failure : ε} {effect : σ → Except ε (α × σ)}
    (h : ∀ s a s', effect s = .ok (a, s') → s' = s) : Reads (operation failure id effect) :=
  fun s => Ends.operation rfl (h s) fun _ _ => rfl

/-- What follows a reading starts where it did. -/
theorem Reads.ends_bind (hm : Reads m) (hE : E s) (hf : ∀ a, Ends (f a) s R E) :
    Ends (m >>= f) s R E := by
  have hs : Ends m s (fun _ s' => s' = s) E := by
    refine (hm s).weaken (fun _ _ h => h) ?_
    rintro _ rfl
    exact hE
  apply hs.bind
  rintro a s' rfl
  exact hf a

end Reads

section Calmly

/-- What `m` does when no operation of it fails. -/
def Calmly (m : Script σ ε α) (s : σ) (result : Except ε α) (s' : σ) : Prop :=
  m.outcome ⟨s, none⟩ = (result, ⟨s', none⟩)

/-- `m` returns when no operation of it fails. -/
def Returns (m : Script σ ε α) (s : σ) : Prop := ∃ a s', Calmly m s (.ok a) s'

variable {s s' s'' : σ} {Q : α → σ → Prop} {R : β → σ → Prop} {E F : σ → Prop} {a : α} {b : β}
  {m : Script σ ε α} {f : α → Script σ ε β} {result : Except ε β}

theorem Calmly.bind (hm : Calmly m s (.ok a) s') (hf : Calmly (f a) s' result s'') :
    Calmly (m >>= f) s result s'' := by
  rw [Calmly, outcome_bind, hm]
  exact hf

theorem Calmly.pure (a : α) (s : σ) : Calmly (ε := ε) (pure a) s (.ok a) s := rfl

theorem Calmly.look (g : σ → α) (s : σ) : Calmly (ε := ε) (look g) s (.ok (g s)) s := rfl

theorem Calmly.look_bind {γ : Type} {g : σ → γ} {f : γ → Script σ ε β}
    (h : Calmly (f (g s)) s result s') : Calmly (Script.look g >>= f) s result s' :=
  (Calmly.look g s).bind h

theorem Calmly.amend (g : σ → σ) (s : σ) : Calmly (ε := ε) (amend g) s (.ok ⟨⟩) (g s) := rfl

theorem Calmly.operation {failure : ε} {torn : σ → σ} {effect : σ → Except ε (α × σ)}
    (h : effect s = .ok (a, s')) : Calmly (operation failure torn effect) s (.ok a) s' := by
  change attempt failure torn effect ⟨s, none⟩ = _
  simp only [attempt, h, Option.map_none]

theorem Calmly.swallow {m : Script σ ε PUnit} {result : Except ε PUnit}
    (h : Calmly m s result s') : Calmly (swallow m) s (.ok ⟨⟩) s' := by
  change (Except.ok PUnit.unit, (m.outcome ⟨s, none⟩).2) = _
  rw [h]

theorem Calmly.onError (h : Calmly m s (.ok a) s') (cleanup : Script σ ε PUnit) :
    Calmly (onError m cleanup) s (.ok a) s' := by
  change handle cleanup (m.outcome ⟨s, none⟩) = _
  rw [h]
  rfl

/-- The clean-up leads from what an error leaves to what is wanted. -/
theorem Ends.onError {cleanup : Script σ ε PUnit} (hm : Ends m s Q F)
    (hcleanup : ∀ s', F s' → ∃ s'', Calmly cleanup s' (.ok ⟨⟩) s'' ∧ E s'') :
    Ends (onError m cleanup) s Q E := by
  intro n
  have hn := hm n
  change Meets Q E (handle cleanup (m.outcome ⟨s, n⟩))
  cases hout : m.outcome ⟨s, n⟩ with
  | mk result w =>
    rw [hout] at hn
    cases result with
    | ok a => exact hn
    | error e =>
      obtain ⟨s'', hcalm, hE⟩ := hcleanup w.state hn
      change Meets Q E (match cleanup.outcome ⟨w.state, none⟩ with
        | (.ok _, w') => (.error e, w')
        | (.error e', w') => (.error e', w'))
      rw [hcalm]
      exact hE

theorem Ends.always {cleanup : Script σ ε PUnit} {Q' : α → σ → Prop} (hm : Ends m s Q F)
    (hcleanup : ∀ s', F s' → ∃ s'', Calmly cleanup s' (.ok ⟨⟩) s'' ∧ E s'')
    (hok : ∀ a s', Q a s' → Ends cleanup s' (fun _ => Q' a) E) : Ends (always m cleanup) s Q' E := by
  apply (Ends.onError hm hcleanup).bind
  intro a s' hQ
  apply (hok a s' hQ).bind
  intro _ s'' hQ'
  exact Ends.pure a hQ'

theorem Ends.of_calmly (h : Ends m s Q E) (hm : Calmly m s (.ok a) s') : Q a s' := by
  have hn := h none
  rwa [hm] at hn

theorem Returns.bind (hm : Returns m s) (h : Ends m s Q E)
    (hf : ∀ a s', Q a s' → Returns (f a) s') : Returns (m >>= f) s := by
  obtain ⟨a, s', hcalm⟩ := hm
  obtain ⟨b, s'', hcalm'⟩ := hf a s' (h.of_calmly hcalm)
  exact ⟨b, s'', hcalm.bind hcalm'⟩

theorem Returns.look_bind {γ : Type} {g : σ → γ} {f : γ → Script σ ε β} (h : Returns (f (g s)) s) :
    Returns (Script.look g >>= f) s := by
  obtain ⟨b, s', hcalm⟩ := h
  exact ⟨b, s', hcalm.look_bind⟩

theorem Calmly.always {cleanup : Script σ ε PUnit} (h : Calmly m s (.ok a) s')
    (hcleanup : Calmly cleanup s' (.ok ⟨⟩) s'') : Calmly (always m cleanup) s (.ok a) s'' :=
  (h.onError cleanup).bind (hcleanup.bind (Calmly.pure a s''))

/-- A loop in which every pass returns and keeps what the next one needs. -/
theorem Returns.forM {g : α → Script σ ε PUnit} {I : List α → σ → Prop} (todo : List α)
    {done : List α} (hs : I done s)
    (hg : ∀ before a after s, done ++ todo = before ++ a :: after → I before s →
      Returns (g a) s ∧ Ends (g a) s (fun _ => I (before ++ [a])) E) :
    Returns (todo.forM g) s := by
  induction todo generalizing done s with
  | nil => exact ⟨_, _, Calmly.pure _ s⟩
  | cons a todo ih =>
    have hsplit : done ++ a :: todo = (done ++ [a]) ++ todo := by
      rw [List.append_assoc, List.singleton_append]
    obtain ⟨hreturns, hends⟩ := hg done a todo s rfl hs
    apply hreturns.bind hends
    intro _ s' hs'
    rw [hsplit] at hg
    exact ih hs' hg

theorem Returns.onError (h : Returns m s) (cleanup : Script σ ε PUnit) :
    Returns (Script.onError m cleanup) s := by
  obtain ⟨a, s', hcalm⟩ := h
  exact ⟨a, s', hcalm.onError cleanup⟩

theorem Calmly.undo_snoc {undo : ρ → Script σ ε PUnit} {r : ρ} {rs : List ρ}
    (hlast : Calmly (undo r) s'' (.ok ⟨⟩) s') (hrest : Calmly (rs.reverse.forM undo) s' (.ok ⟨⟩) s) :
    Calmly ((rs ++ [r]).reverse.forM undo) s'' (.ok ⟨⟩) s := by
  rw [List.reverse_append]
  exact hlast.bind hrest

end Calmly

section Series

variable {τ : Type} {R : τ → σ → ρ → σ → Prop} {s s' : σ} {task : τ} {tasks : List τ} {notes : List ρ}

/-- Tasks done one after the other, and the note that each has left. -/
inductive Series (R : τ → σ → ρ → σ → Prop) (s : σ) : List τ → List ρ → σ → Prop
  | nil : Series R s [] [] s
  | snoc {tasks : List τ} {task : τ} {notes : List ρ} {note : ρ} {s₁ s₂ : σ} :
      Series R s tasks notes s₁ → R task s₁ note s₂ → Series R s (tasks ++ [task]) (notes ++ [note]) s₂

theorem Series.of_nil (h : Series R s [] notes s') : notes = [] ∧ s' = s := by
  generalize htasks : ([] : List τ) = tasks at h
  cases h with
  | nil => exact ⟨rfl, rfl⟩
  | snoc _ _ => exact absurd htasks.symm (by simp)

theorem Series.of_snoc (h : Series R s (tasks ++ [task]) notes s') :
    ∃ s₁ before note, notes = before ++ [note] ∧ Series R s tasks before s₁ ∧ R task s₁ note s' := by
  generalize htasks : tasks ++ [task] = tasks' at h
  cases h with
  | nil => exact absurd htasks (by simp)
  | snoc hbefore hlast =>
    obtain ⟨rfl, htask⟩ := List.append_inj' htasks rfl
    cases htask
    exact ⟨_, _, _, rfl, hbefore, hlast⟩

theorem Series.frame {γ : Type} {g : σ → γ} (h : Series R s tasks notes s')
    (hkeeps : ∀ task ∈ tasks, ∀ s note s', R task s note s' → g s' = g s) : g s' = g s := by
  induction h with
  | nil => rfl
  | snoc _ hlast ih =>
    rw [hkeeps _ (List.mem_append_right _ (List.mem_singleton.mpr rfl)) _ _ _ hlast]
    exact ih fun task hmem => hkeeps task (List.mem_append_left _ hmem)

/-- Every note undone, from the last to the first. -/
theorem Series.undo {τ' : Type} {f : σ → τ'} {undo : ρ → Script τ' ε PUnit}
    (h : Series R s tasks notes s')
    (hundo : ∀ task s note s', R task s note s' → Calmly (undo note) (f s') (.ok ⟨⟩) (f s)) :
    Calmly (notes.reverse.forM undo) (f s') (.ok ⟨⟩) (f s) := by
  induction h with
  | nil => exact Calmly.pure _ _
  | snoc _ hlast ih => exact Calmly.undo_snoc (hundo _ _ _ _ hlast) ih

end Series

end Script

end FfbInterceptor.Library
