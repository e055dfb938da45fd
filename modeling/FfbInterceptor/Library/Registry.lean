import FfbInterceptor.Library.Lifetimes

/-! Threads that share counted objects through a registry: the objects own resources, the calls
under way hold references and resources, and both are accounted for as totals. -/
namespace FfbInterceptor.Library.Registry
open Lifetimes Function

/-- An object with its counter and the mark of the registry; a freed one has neither. -/
structure Counted (α : Type*) where
  body : α
  refCount : UInt32 := 0
  registered : Bool := false

/-- What an observer sees: the count a lookup found, an object entered, one freed, the resources that
callers come by and give up outside of calls, and what a call that was passed one returned. -/
inductive Happening (ρ : Type*) where
  | inserted (thread object : Nat)
  | found (thread object : Nat) (count : UInt32)
  | deleted (object : Nat)
  | granted (resource : Option ρ)
  | dropped (resource : ρ)
  | returned (thread : Nat) (passed : Option ρ) (candidate result : Option Nat) (created : Bool)
  deriving DecidableEq

/-- Nothing is freed, and no lookup finds what nobody holds. -/
def Happening.IsQuiet {ρ : Type*} : Happening ρ → Prop
  | .deleted _ => False
  | .found _ _ n => n ≠ 0
  | _ => True

/-- A call that was passed the resource has returned an object for it. -/
def Happening.spends {ρ : Type*} [DecidableEq ρ] (p : ρ) : Happening ρ → Bool
  | .returned _ passed _ result _ => passed = some p && result.isSome
  | _ => false

/-- The objects made so far, by number, the registry from its head on, the calls of the threads,
the references and resources that callers own, and the resources out of the hands of the owner. -/
structure World (α κ ρ : Type*) where
  objects : List (Counted α)
  registry : List Nat
  calls : List κ
  clients : Nat → Nat
  callers : ρ → Nat
  real : ρ → Nat
  history : List (Happening ρ)

/-- The references and resources a call holds, the object it still has to itself, the one it is about
to free, and the resource that it was passed. -/
class Accounts (κ : Type*) (ρ : outParam Type*) where
  holds : Nat → κ → Nat
  builds : Nat → κ → Nat
  deletes : Nat → κ → Nat
  lends : ρ → κ → Nat
  passed : ρ → κ → Nat
  builds_le_holds : ∀ e call, builds e call ≤ holds e call

/-- The resources an object owns; a freed one owns none. -/
class Owner (α : Type*) (ρ : outParam Type*) extends Inhabited α where
  owns : ρ → α → Nat
  owns_default : ∀ p, owns p default = 0

variable {α κ ρ : Type*}

namespace World

theorem total_modify (f : α → Nat) {g : Counted α → Counted α} (hg : ∀ x, (g x).body = x.body)
    (objects : List (Counted α)) (e : Nat) :
    total (fun x => f x.body) (objects.modify e g) = total (fun x => f x.body) objects := by
  induction objects generalizing e with
  | nil => simp
  | cons x xs ih => cases e <;> simp [hg, ih]

section Operations
variable [Inhabited α] [DecidableEq ρ] (w : World α κ ρ)

def initial (calls : List κ) : World α κ ρ where
  objects := []
  registry := []
  calls := calls
  clients _ := 0
  callers _ := 0
  real _ := 0
  history := []

def object (e : Nat) : Counted α := w.objects.getD e { body := default }

@[simps] def go (t : Nat) (call : κ) : World α κ ρ := { w with calls := w.calls.set t call }

@[simps] def log (happening : Happening ρ) : World α κ ρ := { w with history := w.history ++ [happening] }

@[simps] def allocate (body : α) : World α κ ρ :=
  { w with objects := w.objects ++ [{ body, refCount := 1 }] }

@[simps] def amend (e : Nat) (f : α → α) : World α κ ρ :=
  { w with objects := w.objects.modify e fun x => { x with body := f x.body } }

@[simps] def addRef (e : Nat) : World α κ ρ :=
  { w with objects := w.objects.modify e fun x => { x with refCount := x.refCount + 1 } }

@[simps] def register (e : Nat) : World α κ ρ :=
  { w with
    objects := w.objects.modify e fun x => { x with registered := true }
    registry := e :: w.registry }

def unregister (e : Nat) : World α κ ρ :=
  if (w.object e).registered then
    { w with
      objects := w.objects.modify e fun x => { x with registered := false }
      registry := w.registry.erase e }
  else w

@[simps] def decrement (e : Nat) : World α κ ρ :=
  { w with objects := w.objects.modify e fun x => { x with refCount := x.refCount - 1 } }

/-- The locked part of a release: the counter that comes to 0 takes the object off the registry. -/
def release (e : Nat) : World α κ ρ :=
  if (w.object e).refCount - 1 = 0 then (w.decrement e).unregister e else w.decrement e

@[simps] def free (e : Nat) : World α κ ρ := { w with objects := w.objects.set e { body := default } }

/-- One more reference to a resource is out, unless the pointer is null. -/
@[simps objects registry calls clients callers history] def acquire (p : Option ρ) : World α κ ρ :=
  { w with real := p.elim w.real fun p => update w.real p (w.real p + 1) }

@[simps objects registry calls clients callers history] def relinquish (p : Option ρ) : World α κ ρ :=
  { w with real := p.elim w.real fun p => update w.real p (w.real p - 1) }

@[simps objects registry calls callers real history] def handOut (e : Option Nat) : World α κ ρ :=
  { w with clients := e.elim w.clients fun e => update w.clients e (w.clients e + 1) }

@[simps objects registry calls callers real history] def takeBack (e : Option Nat) : World α κ ρ :=
  { w with clients := e.elim w.clients fun e => update w.clients e (w.clients e - 1) }

@[simps objects registry calls clients real history] def entrust (p : Option ρ) : World α κ ρ :=
  { w with callers := p.elim w.callers fun p => update w.callers p (w.callers p + 1) }

@[simps objects registry calls clients real history] def consume (p : Option ρ) : World α κ ρ :=
  { w with callers := p.elim w.callers fun p => update w.callers p (w.callers p - 1) }

end Operations

section Hands
variable (w : World α κ ρ)

@[simp] theorem clients_handOut (o : Option Nat) (x : Nat) :
    (w.handOut o).clients x = w.clients x + one o x := by
  cases o with
  | none => rfl
  | some e => exact update_succ w.clients e x

@[simp] theorem clients_takeBack (o : Option Nat) (x : Nat) :
    (w.takeBack o).clients x = w.clients x - one o x := by
  cases o with
  | none => rfl
  | some e => exact update_pred w.clients e x

variable [DecidableEq ρ]

@[simp] theorem real_acquire (o : Option ρ) (x : ρ) : (w.acquire o).real x = w.real x + one o x := by
  cases o with
  | none => rfl
  | some p => exact update_succ w.real p x

@[simp] theorem real_relinquish (o : Option ρ) (x : ρ) :
    (w.relinquish o).real x = w.real x - one o x := by
  cases o with
  | none => rfl
  | some p => exact update_pred w.real p x

@[simp] theorem callers_entrust (o : Option ρ) (x : ρ) :
    (w.entrust o).callers x = w.callers x + one o x := by
  cases o with
  | none => rfl
  | some p => exact update_succ w.callers p x

@[simp] theorem callers_consume (o : Option ρ) (x : ρ) :
    (w.consume o).callers x = w.callers x - one o x := by
  cases o with
  | none => rfl
  | some p => exact update_pred w.callers p x

end Hands

section Accounting
variable [Owner α ρ] [Accounts κ ρ] [DecidableEq ρ] (w : World α κ ρ)

/-- References to an object, held by callers and by calls under way. -/
def held (e : Nat) : Nat := w.clients e + total (Accounts.holds e) w.calls

def building (e : Nat) : Nat := total (Accounts.builds e) w.calls

def deleting (e : Nat) : Nat := total (Accounts.deletes e) w.calls

def owned (p : ρ) : Nat := total (fun x => Owner.owns p x.body) w.objects

/-- Resources in the hands of callers, of objects and of calls under way. -/
def accounted (p : ρ) : Nat := w.callers p + w.owned p + total (Accounts.lends p) w.calls

/-- The world as counted objects that a list names. -/
def lives : Lives where
  count e := (w.object e).refCount
  listed := w.registry
  held := w.held
  unlisted := w.building
  ending := w.deleting
  ended e := w.history.count (.deleted e)
  started := w.objects.length

/-- The objects are counted and ended as they should, the marks agree with the registry, every
resource that is out is accounted for, and no lookup found an object that nobody held. -/
structure Sound : Prop where
  lives : w.lives.Sound
  marked : ∀ e, (w.object e).registered = true ↔ e ∈ w.registry
  balance : ∀ p, w.real p = w.accounted p
  found : ∀ t e n, .found t e n ∈ w.history → n ≠ 0

end Accounting

section Memory
variable [Inhabited α] {w : World α κ ρ} {e : Nat}

theorem getD_modify {objects : List (Counted α)} (he : e < objects.length) (f : Counted α → Counted α)
    (x : Nat) : (objects.modify e f).getD x { body := default } =
      if x = e then f (objects.getD e { body := default }) else objects.getD x { body := default } := by
  simp only [List.getD_eq_getElem?_getD, List.getElem?_modify]
  split
  · next heq => subst heq; rw [if_pos rfl, List.getElem?_eq_getElem he]; rfl
  · next hne => rw [if_neg (Ne.symm hne)]; simp

theorem object_congr {w' : World α κ ρ} (h : w'.objects = w.objects) (x : Nat) :
    w'.object x = w.object x := by
  rw [object, h]
  rfl

theorem getElem?_object (he : e < w.objects.length) : w.objects[e]? = some (w.object e) := by
  rw [object, List.getD_eq_getElem?_getD, List.getElem?_eq_getElem he]
  rfl

theorem object_modify {v : World α κ ρ} (he : e < w.objects.length) {f : Counted α → Counted α}
    (hobjects : v.objects = w.objects.modify e f) (x : Nat) :
    v.object x = if x = e then f (w.object e) else w.object x := by
  rw [object, hobjects, getD_modify he]
  rfl

theorem object_amend (he : e < w.objects.length) (f : α → α) (x : Nat) : (w.amend e f).object x =
    if x = e then { w.object e with body := f (w.object e).body } else w.object x :=
  object_modify (v := w.amend e f) he rfl x

theorem counter_amend (he : e < w.objects.length) (f : α → α) (x : Nat) :
    ((w.amend e f).object x).refCount = (w.object x).refCount ∧
      ((w.amend e f).object x).registered = (w.object x).registered := by
  rw [object_amend he]
  split
  · next heq => rw [heq]; exact ⟨rfl, rfl⟩
  · exact ⟨rfl, rfl⟩

theorem object_allocate (body : α) (x : Nat) : (w.allocate body).object x =
    if x = w.objects.length then { body, refCount := 1 } else w.object x := by
  simp only [object, World.allocate, List.getD_eq_getElem?_getD, List.getElem?_append,
    List.getElem?_singleton]
  grind

theorem registry_unregister (h : (w.object e).registered = true ↔ e ∈ w.registry) :
    (w.unregister e).registry = w.registry.erase e := by
  unfold unregister
  by_cases hmark : (w.object e).registered = true
  · rw [if_pos hmark]
  · rw [if_neg hmark, List.erase_of_not_mem fun hmem => hmark (h.mpr hmem)]

theorem object_unregister (he : e < w.objects.length) (x : Nat) : (w.unregister e).object x =
    if x = e then { w.object e with registered := false } else w.object x := by
  unfold unregister
  by_cases hmark : (w.object e).registered = true
  · rw [if_pos hmark, object_modify he rfl]
  · rw [if_neg hmark]
    split
    · next heq =>
      subst heq
      rw [Bool.not_eq_true] at hmark
      rw [← hmark]
    · rfl

theorem release_rest : (w.release e).calls = w.calls ∧ (w.release e).clients = w.clients ∧
    (w.release e).callers = w.callers ∧ (w.release e).real = w.real ∧
    (w.release e).history = w.history := by
  unfold release unregister
  split
  · split <;> exact ⟨rfl, rfl, rfl, rfl, rfl⟩
  · exact ⟨rfl, rfl, rfl, rfl, rfl⟩

@[simp] theorem release_calls : (w.release e).calls = w.calls := release_rest.1

@[simp] theorem release_clients : (w.release e).clients = w.clients := release_rest.2.1

@[simp] theorem release_callers : (w.release e).callers = w.callers := release_rest.2.2.1

@[simp] theorem release_real : (w.release e).real = w.real := release_rest.2.2.2.1

@[simp] theorem release_history : (w.release e).history = w.history := release_rest.2.2.2.2

/-- What a release leaves of the memory: the counter is one less, and at 0 the mark and the place
in the registry are gone. -/
theorem object_release (he : e < w.objects.length) (x : Nat) : (w.release e).object x =
    if x = e then
      { w.object e with
        refCount := (w.object e).refCount - 1
        registered := (w.object e).registered && (w.object e).refCount - 1 != 0 }
    else w.object x := by
  have hdecrement := object_modify (v := w.decrement e) he rfl
  have hlt : e < (w.decrement e).objects.length := by rwa [decrement, List.length_modify]
  unfold release
  by_cases hzero : (w.object e).refCount - 1 = 0
  · rw [if_pos hzero, object_unregister hlt, hdecrement, hdecrement]
    split
    · simp [hzero]
    · rfl
  · rw [if_neg hzero, hdecrement]
    split
    · simp [hzero]
    · rfl

theorem registry_release (he : e < w.objects.length)
    (h : (w.object e).registered = true ↔ e ∈ w.registry) : (w.release e).registry =
      if (w.object e).refCount - 1 = 0 then w.registry.erase e else w.registry := by
  unfold release
  split
  · rw [registry_unregister]
    · rfl
    · rw [object_modify (v := w.decrement e) he rfl, if_pos rfl]
      exact h
  · rfl

theorem length_release : (w.release e).objects.length = w.objects.length := by
  unfold release unregister decrement
  split
  · split <;> simp only [List.length_modify]
  · simp only [List.length_modify]

theorem body_modify {w' : World α κ ρ} {f : Counted α → Counted α}
    (hobjects : w'.objects = w.objects.modify e f) (hf : ∀ x, (f x).body = x.body) (x : Nat) :
    (w'.object x).body = (w.object x).body := by
  by_cases he : e < w.objects.length
  · rw [object_modify he hobjects]
    split
    · next heq => rw [heq, hf]
    · rfl
  · rw [object_congr (hobjects.trans (List.modify_eq_self (Nat.le_of_not_lt he)))]

theorem body_addRef (x : Nat) : ((w.addRef e).object x).body = (w.object x).body :=
  body_modify (f := fun y => { y with refCount := y.refCount + 1 }) rfl (fun _ => rfl) x

theorem body_register (x : Nat) : ((w.register e).object x).body = (w.object x).body :=
  body_modify (f := fun y => { y with registered := true }) rfl (fun _ => rfl) x

theorem body_release (he : e < w.objects.length) (x : Nat) :
    ((w.release e).object x).body = (w.object x).body := by
  rw [object_release he]
  split
  · next heq => rw [heq]
  · rfl

end Memory

section Owned
variable [Owner α ρ] {w : World α κ ρ} {e : Nat}

theorem owned_allocate (body : α) (p : ρ) :
    (w.allocate body).owned p = w.owned p + Owner.owns p body := total_concat ..

theorem owned_modify {w' : World α κ ρ} {g : Counted α → Counted α}
    (hobjects : w'.objects = w.objects.modify e g) (hg : ∀ x, (g x).body = x.body) (p : ρ) :
    w'.owned p = w.owned p := by
  rw [owned, hobjects]
  exact total_modify (fun body => Owner.owns p body) hg ..

theorem owned_addRef (p : ρ) : (w.addRef e).owned p = w.owned p :=
  owned_modify (g := fun x => { x with refCount := x.refCount + 1 }) rfl (fun _ => rfl) p

theorem owned_register (p : ρ) : (w.register e).owned p = w.owned p :=
  owned_modify (g := fun x => { x with registered := true }) rfl (fun _ => rfl) p

theorem owned_release (p : ρ) : (w.release e).owned p = w.owned p := by
  have hdecrement : (w.decrement e).owned p = w.owned p :=
    owned_modify (g := fun x => { x with refCount := x.refCount - 1 }) rfl (fun _ => rfl) p
  have hunregister : ((w.decrement e).unregister e).owned p = (w.decrement e).owned p := by
    unfold unregister
    split
    · exact owned_modify (g := fun x => { x with registered := false }) rfl (fun _ => rfl) p
    · rfl
  unfold release
  split
  · exact hunregister.trans hdecrement
  · exact hdecrement

theorem owned_amend (he : e < w.objects.length) (f : α → α) (p : ρ) :
    (w.amend e f).owned p + Owner.owns p (w.object e).body =
      w.owned p + Owner.owns p (f (w.object e).body) := by
  have hset := total_set (fun x => Owner.owns p x.body) (getElem?_object he)
    { w.object e with body := f (w.object e).body }
  rw [owned, amend, List.modify_eq_set_getElem?, getElem?_object he]
  exact hset

theorem owned_free (he : e < w.objects.length) (p : ρ) :
    (w.free e).owned p + Owner.owns p (w.object e).body = w.owned p := by
  have hset := total_set (fun x => Owner.owns p x.body) (getElem?_object he) { body := default }
  simp only [Owner.owns_default, Nat.add_zero] at hset
  exact hset

end Owned

section Quiet
variable {w w' : World α κ ρ}

/-- A step all of whose happenings are quiet. -/
def Quiet (w w' : World α κ ρ) : Prop := ∃ news, w'.history = w.history ++ news ∧ ∀ x ∈ news, x.IsQuiet

namespace Quiet

theorem refl (h : w'.history = w.history) : w.Quiet w' :=
  ⟨[], by rw [h, List.append_nil], fun _ h => nomatch h⟩

theorem single {x : Happening ρ} (h : w'.history = w.history ++ [x]) (hx : x.IsQuiet) : w.Quiet w' :=
  ⟨[x], h, fun _ hmem => List.mem_singleton.mp hmem ▸ hx⟩

theorem count [DecidableEq ρ] (h : w.Quiet w') (x : Nat) :
    w'.history.count (.deleted x) = w.history.count (.deleted x) := by
  obtain ⟨news, hnews, hquiet⟩ := h
  rw [hnews, List.count_append, List.count_eq_zero.mpr (hquiet (.deleted x)), Nat.add_zero]

theorem found (h : w.Quiet w') (hw : ∀ t e n, .found t e n ∈ w.history → n ≠ 0) (t e : Nat) (n : UInt32)
    (hmem : .found t e n ∈ w'.history) : n ≠ 0 := by
  obtain ⟨news, hnews, hquiet⟩ := h
  rw [hnews] at hmem
  cases List.mem_append.mp hmem with
  | inl hold => exact hw t e n hold
  | inr hnew => exact hquiet _ hnew

end Quiet
end Quiet

section Steps
variable [Accounts κ ρ] {w w' : World α κ ρ} {t e : Nat}

theorem builds_le {call : κ} (hcall : w.calls[t]? = some call) (x : Nat) :
    Accounts.builds x call ≤ w.building x :=
  le_total (Accounts.builds x) (List.mem_of_getElem? hcall)

theorem deletes_le {call : κ} (hcall : w.calls[t]? = some call) (x : Nat) :
    Accounts.deletes x call ≤ w.deleting x :=
  le_total (Accounts.deletes x) (List.mem_of_getElem? hcall)

/-! The totals after a step of one call, from what that call holds before and after. -/

theorem held_of {old new : κ} (hcall : w.calls[t]? = some old) (hcalls : w'.calls = w.calls.set t new)
    {x n : Nat} (h : w.held x + (w'.clients x + Accounts.holds x new) =
      n + (w.clients x + Accounts.holds x old)) : w'.held x = n := by
  have := total_set (Accounts.holds x) hcall new
  simp only [held, hcalls] at h ⊢
  omega

theorem building_of {old new : κ} (hcall : w.calls[t]? = some old)
    (hcalls : w'.calls = w.calls.set t new) {x n : Nat}
    (h : w.building x + Accounts.builds x new = n + Accounts.builds x old) : w'.building x = n := by
  have := total_set (Accounts.builds x) hcall new
  simp only [building, hcalls] at h ⊢
  omega

theorem deleting_of {old new : κ} (hcall : w.calls[t]? = some old)
    (hcalls : w'.calls = w.calls.set t new) {x n : Nat}
    (h : w.deleting x + Accounts.deletes x new = n + Accounts.deletes x old) : w'.deleting x = n := by
  have := total_set (Accounts.deletes x) hcall new
  simp only [deleting, hcalls] at h ⊢
  omega

variable [Owner α ρ]

theorem lends_le {call : κ} (hcall : w.calls[t]? = some call) {p : ρ} (hp : w.real p = w.accounted p) :
    w.callers p + w.owned p + Accounts.lends p call ≤ w.real p := by
  have := le_total (Accounts.lends p) (List.mem_of_getElem? hcall)
  rw [hp, accounted]
  omega

theorem balance_of {old new : κ} (hcall : w.calls[t]? = some old)
    (hcalls : w'.calls = w.calls.set t new) {p : ρ} (hp : w.real p = w.accounted p) {n : Nat}
    (howned : w'.owned p = n) (h : w'.real p + (w.callers p + w.owned p + Accounts.lends p old) =
      w.real p + (w'.callers p + n + Accounts.lends p new)) : w'.real p = w'.accounted p := by
  have := total_set (Accounts.lends p) hcall new
  simp only [accounted, hcalls, howned] at hp ⊢
  omega

variable [DecidableEq ρ]

theorem sound_initial {calls : List κ} (h : ∀ call ∈ calls, (∀ e, Accounts.holds e call = 0) ∧
    (∀ e, Accounts.deletes e call = 0) ∧ ∀ p, Accounts.lends p call = 0) :
    (World.initial (α := α) (ρ := ρ) calls).Sound := by
  have hheld (e : Nat) : (World.initial (α := α) (ρ := ρ) calls).held e = 0 :=
    Nat.add_eq_zero_iff.mpr ⟨rfl, total_eq_zero _ fun call hmem => (h call hmem).1 e⟩
  have hbuilding (e : Nat) : (World.initial (α := α) (ρ := ρ) calls).building e = 0 :=
    total_eq_zero _ fun call hmem =>
      Nat.le_zero.mp ((Accounts.builds_le_holds e call).trans_eq ((h call hmem).1 e))
  have hdeleting (e : Nat) : (World.initial (α := α) (ρ := ρ) calls).deleting e = 0 :=
    total_eq_zero _ fun call hmem => (h call hmem).2.1 e
  refine ⟨⟨fun e => ?_, nofun, fun e => ?_, fun e hpos => ?_, fun e => ?_, fun e _ => hheld e⟩,
    fun e => ?_, fun p => ?_, nofun⟩
  · simp only [lives, hheld]
    rfl
  · exact (Nat.add_eq_zero_iff.mpr ⟨hbuilding e, rfl⟩).trans_le (Nat.zero_le 1)
  · exact absurd hpos (Nat.not_lt.mpr (Nat.le_of_eq (hbuilding e)))
  · exact (Nat.add_eq_zero_iff.mpr ⟨hdeleting e, rfl⟩).trans
      (if_neg fun hlt => absurd hlt.1 (Nat.not_lt_zero e)).symm
  · simp [object, initial]
  · have hlends : total (Accounts.lends p) calls = 0 := total_eq_zero _ fun call hmem => (h call hmem).2.2 p
    simp [accounted, owned, initial, hlends]

namespace Sound

theorem lt_of_held (h : w.Sound) (he : 0 < w.held e) : e < w.objects.length := h.lives.lt_started he

theorem built (h : w.Sound) {call : κ} (hcall : w.calls[t]? = some call)
    (hbuilds : 0 < Accounts.builds e call) : 0 < w.building e ∧ w.held e = 1 := by
  have hle := builds_le hcall e
  have hbuilding : 0 < w.building e := by omega
  exact ⟨hbuilding, h.lives.alone e hbuilding⟩

/-- A reference besides the constructor's tells that the constructor is over. -/
theorem shared (h : w.Sound) (hclient : 0 < w.clients e) : 0 < w.held e ∧ w.building e = 0 := by
  have hheld : 0 < w.held e := by
    unfold held
    omega
  refine ⟨hheld, ?_⟩
  by_contra hbuilding
  have hone : w.held e = 1 := h.lives.alone e (Nat.pos_of_ne_zero hbuilding)
  have hle : w.building e ≤ total (Accounts.holds e) w.calls :=
    total_le fun call _ => Accounts.builds_le_holds e call
  unfold held at hone
  omega

/-- The call that is about to free an object is the last to know it. -/
theorem dying (h : w.Sound) {call : κ} (hcall : w.calls[t]? = some call)
    (hdeletes : 0 < Accounts.deletes e call) : 0 < w.deleting e ∧ e < w.objects.length := by
  have hle := deletes_le hcall e
  have hdeleting : 0 < w.deleting e := by omega
  exact ⟨hdeleting, (h.lives.dead_of_ending hdeleting).1⟩

/-- References and resources pass between callers, calls and objects. -/
theorem pass (h : w.Sound)
    (hobjects : ∀ x, (w'.object x).refCount = (w.object x).refCount ∧
      (w'.object x).registered = (w.object x).registered)
    (hlength : w'.objects.length = w.objects.length) (hregistry : w'.registry = w.registry)
    (hheld : ∀ x, w'.held x = w.held x) (hbuilding : ∀ x, w'.building x = w.building x)
    (hdeleting : ∀ x, w'.deleting x = w.deleting x) (hbalance : ∀ p, w'.real p = w'.accounted p)
    (hquiet : w.Quiet w') : w'.Sound := by
  have hlives : w'.lives = w.lives :=
    Lives.ext (funext fun x => (hobjects x).1) hregistry (funext hheld) (funext hbuilding)
      (funext hdeleting) (funext hquiet.count) hlength
  refine ⟨hlives ▸ h.lives, fun x => ?_, hbalance, hquiet.found h.found⟩
  rw [(hobjects x).2, hregistry]
  exact h.marked x

theorem allocate (h : w.Sound) {b : α} (hobjects : w'.objects = (w.allocate b).objects)
    (hregistry : w'.registry = w.registry)
    (hheld : ∀ x, w'.held x = w.held x + one (some w.objects.length) x)
    (hbuilding : ∀ x, w'.building x = w.building x + one (some w.objects.length) x)
    (hdeleting : ∀ x, w'.deleting x = w.deleting x) (hbalance : ∀ p, w'.real p = w'.accounted p)
    (hquiet : w.Quiet w') : w'.Sound := by
  have hfresh : w.held w.objects.length = 0 := h.lives.unstarted _ (Nat.le_refl _)
  have hprivate : w.building w.objects.length = 0 := by
    by_contra hpos
    have hone : w.held _ = 1 := h.lives.alone _ (Nat.pos_of_ne_zero hpos)
    omega
  have hobject (x : Nat) : w'.object x =
      if x = w.objects.length then { body := b, refCount := 1 } else w.object x :=
    (object_congr hobjects x).trans (object_allocate b x)
  have hlives : w'.lives = w.lives.start := by
    refine Lives.ext (funext fun x => ?_) hregistry (funext fun x => ?_) (funext fun x => ?_)
      (funext hdeleting) (funext hquiet.count) ?_
    · simp only [World.lives, hobject, Lives.start, update_apply]
      split <;> rfl
    · simp only [World.lives, hheld, Lives.start, update_apply]
      split
      · next heq => rw [heq, hfresh, one_self]
      · next hne => rw [one_of_ne hne]; rfl
    · simp only [World.lives, hbuilding, Lives.start, update_apply]
      split
      · next heq => rw [heq, hprivate, one_self]
      · next hne => rw [one_of_ne hne]; rfl
    · simp only [World.lives, hobjects, World.allocate, Lives.start, List.length_append,
        List.length_singleton]
  refine ⟨hlives ▸ h.lives.start, fun x => ?_, hbalance, hquiet.found h.found⟩
  rw [hobject, hregistry]
  split
  · next heq =>
    have hout : w.objects.length ∉ w.registry := fun hmem => by
      have hpos : 0 < w.held _ := h.lives.listed_held _ hmem
      omega
    simp only [heq, hout, Bool.false_eq_true]
  · exact h.marked x

theorem addRef (h : w.Sound) (hpos : 0 < w.held e) (hpublic : w.building e = 0)
    (hobjects : w'.objects = (w.addRef e).objects) (hregistry : w'.registry = w.registry)
    (hheld : ∀ x, w'.held x = w.held x + one (some e) x)
    (hbuilding : ∀ x, w'.building x = w.building x) (hdeleting : ∀ x, w'.deleting x = w.deleting x)
    (hbalance : ∀ p, w'.real p = w'.accounted p) (hquiet : w.Quiet w') : w'.Sound := by
  have hobject := object_modify (h.lt_of_held hpos) hobjects
  have hlives : w'.lives = w.lives.take e := by
    refine Lives.ext (funext fun x => ?_) hregistry (funext fun x => ?_) (funext hbuilding)
      (funext hdeleting) (funext hquiet.count) ?_
    · simp only [World.lives, hobject, Lives.take, update_apply]
      split <;> rfl
    · exact (hheld x).trans (update_succ w.held e x).symm
    · simp only [World.lives, hobjects, World.addRef, Lives.take, List.length_modify]
  refine ⟨hlives ▸ h.lives.take hpos hpublic, fun x => ?_, hbalance, hquiet.found h.found⟩
  rw [hobject, hregistry]
  split
  · next heq => subst heq; exact h.marked x
  · exact h.marked x

theorem register (h : w.Sound) (hprivate : 0 < w.building e)
    (hobjects : w'.objects = (w.register e).objects) (hregistry : w'.registry = e :: w.registry)
    (hheld : ∀ x, w'.held x = w.held x)
    (hbuilding : ∀ x, w'.building x = w.building x - one (some e) x)
    (hdeleting : ∀ x, w'.deleting x = w.deleting x) (hbalance : ∀ p, w'.real p = w'.accounted p)
    (hquiet : w.Quiet w') : w'.Sound := by
  have hone : w.held e = 1 := h.lives.alone e hprivate
  have hobject := object_modify (h.lt_of_held (by omega : 0 < w.held e)) hobjects
  have hlives : w'.lives = w.lives.publish e := by
    refine Lives.ext (funext fun x => ?_) hregistry (funext hheld) (funext fun x => ?_)
      (funext hdeleting) (funext hquiet.count) ?_
    · simp only [World.lives, hobject, Lives.publish]
      split
      · next heq => subst heq; rfl
      · rfl
    · exact (hbuilding x).trans (update_pred w.building e x).symm
    · simp only [World.lives, hobjects, World.register, Lives.publish, List.length_modify]
  refine ⟨hlives ▸ h.lives.publish hprivate, fun x => ?_, hbalance, hquiet.found h.found⟩
  rw [hobject, hregistry, List.mem_cons]
  split
  · next heq => simp only [heq, true_or]
  · next hne => simp only [hne, false_or, h.marked x]

theorem release (h : w.Sound) (hpos : 0 < w.held e) (hsmall : w.held e < 2 ^ 32)
    (hobjects : w'.objects = (w.release e).objects) (hregistry : w'.registry = (w.release e).registry)
    (hheld : ∀ x, w'.held x = w.held x - one (some e) x)
    (hbuilding : ∀ x, w'.building x = w.building x - one (some e) x)
    (hdeleting : ∀ x, w'.deleting x = w.deleting x +
      if (w.object e).refCount - 1 = 0 then one (some e) x else 0)
    (hbalance : ∀ p, w'.real p = w'.accounted p) (hquiet : w.Quiet w') : w'.Sound := by
  have hlt := h.lt_of_held hpos
  have hobject (x : Nat) := (object_congr hobjects x).trans (object_release hlt x)
  have hlives : w'.lives = w.lives.abandon e := by
    refine Lives.ext (funext fun x => ?_) ?_ (funext fun x => ?_) (funext fun x => ?_)
      (funext fun x => ?_) (funext hquiet.count) ?_
    · simp only [World.lives, hobject, Lives.abandon, Lives.give, update_apply]
      split <;> rfl
    · exact hregistry.trans (registry_release hlt (h.marked e))
    · exact (hheld x).trans (update_pred w.held e x).symm
    · exact (hbuilding x).trans (update_pred w.building e x).symm
    · exact (hdeleting x).trans (Lives.ending_give { w.lives with unlisted := _ } e x).symm
    · simp only [World.lives, hobjects, length_release, Lives.abandon, Lives.give]
  have hsound : w'.lives.Sound := hlives ▸ h.lives.abandon hpos hsmall
  refine ⟨hsound, fun x => ?_, hbalance, hquiet.found h.found⟩
  rw [hobject, hregistry, registry_release hlt (h.marked e)]
  by_cases heq : x = e
  · subst heq
    rw [if_pos rfl]
    by_cases hlast : (w.object x).refCount - 1 = 0
    · have hout : x ∉ w.registry.erase x := h.lives.nodup.not_mem_erase
      simp only [hlast, hout, if_true, bne_self_eq_false, Bool.and_false, Bool.false_eq_true]
    · have hmark := h.marked x
      have hne : ((w.object x).refCount - 1 != 0) = true := bne_iff_ne.mpr hlast
      rw [if_neg hlast, ← hmark, hne, Bool.and_true]
  · rw [if_neg heq]
    split
    · rw [List.mem_erase_of_ne heq]
      exact h.marked x
    · exact h.marked x

theorem free (h : w.Sound) (hdying : 0 < w.deleting e) (hobjects : w'.objects = (w.free e).objects)
    (hregistry : w'.registry = w.registry) (hheld : ∀ x, w'.held x = w.held x)
    (hbuilding : ∀ x, w'.building x = w.building x)
    (hdeleting : ∀ x, w'.deleting x = w.deleting x - one (some e) x)
    (hbalance : ∀ p, w'.real p = w'.accounted p) {news : List (Happening ρ)}
    (hhistory : w'.history = w.history ++ .deleted e :: news)
    (hquiet : ∀ x ∈ news, x.IsQuiet) : w'.Sound := by
  have hlt : e < w.objects.length := (h.lives.dead_of_ending hdying).1
  have hobject (x : Nat) : w'.object x = if x = e then { body := default } else w.object x := by
    simp only [object, hobjects, World.free, List.getD_eq_getElem?_getD, List.getElem?_set, hlt, if_true]
    by_cases heq : e = x
    · simp [heq]
    · simp [heq, Ne.symm heq]
  have hcount (x : Nat) : w'.history.count (.deleted x) =
      w.history.count (.deleted x) + one (some e) x := by
    rw [hhistory, List.count_append, List.count_cons, List.count_eq_zero.mpr (hquiet (.deleted x))]
    by_cases heq : x = e
    · simp [heq]
    · simp [one_of_ne heq, Ne.symm heq]
  have hlives : w'.lives = w.lives.finish e := by
    refine Lives.ext (funext fun x => ?_) hregistry (funext hheld) (funext hbuilding)
      (funext fun x => ?_) (funext fun x => ?_) ?_
    · simp only [World.lives, hobject, Lives.finish, update_apply]
      split <;> rfl
    · exact (hdeleting x).trans (update_pred w.deleting e x).symm
    · exact (hcount x).trans (update_succ (fun x => w.history.count (.deleted x)) e x).symm
    · simp only [World.lives, hobjects, World.free, Lives.finish, List.length_set]
  refine ⟨hlives ▸ h.lives.finish hdying, fun x => ?_, hbalance, fun t x n hmem => ?_⟩
  · rw [hobject, hregistry]
    split
    · next heq =>
      have hout : e ∉ w.registry := h.lives.unlinked (by simp only [World.lives]; omega)
      simp only [heq, hout, Bool.false_eq_true]
    · exact h.marked x
  · rw [hhistory] at hmem
    cases List.mem_append.mp hmem with
    | inl hold => exact h.found t x n hold
    | inr hnew =>
      cases List.mem_cons.mp hnew with
      | inl heq => cases heq
      | inr htail => exact hquiet _ htail

theorem trade (h : w.Sound) (hobjects : w'.objects = w.objects) (hregistry : w'.registry = w.registry)
    (hcalls : w'.calls = w.calls) (hclients : w'.clients = w.clients) (hquiet : w.Quiet w')
    (hreal : ∀ p, w'.real p + w.callers p = w.real p + w'.callers p) : w'.Sound := by
  refine h.pass (fun x => ?_) (by rw [hobjects]) hregistry (fun x => ?_) (fun x => ?_) (fun x => ?_)
    (fun p => ?_) hquiet
  · rw [object_congr hobjects]
    exact ⟨rfl, rfl⟩
  · simp only [held, hcalls, hclients]
  · simp only [building, hcalls]
  · simp only [deleting, hcalls]
  · have hbalance := h.balance p
    have hpart := hreal p
    simp only [accounted, owned, hobjects, hcalls] at hbalance ⊢
    omega

/-- References and resources pass between one call and the callers. -/
theorem go {old new : κ} (h : w.Sound) (hcall : w.calls[t]? = some old)
    (hcalls : w'.calls = w.calls.set t new)
    (hobjects : w'.objects = w.objects) (hregistry : w'.registry = w.registry)
    (hholds : ∀ x, w'.clients x + Accounts.holds x new = w.clients x + Accounts.holds x old)
    (hbuilds : ∀ x, Accounts.builds x new = Accounts.builds x old)
    (hdeletes : ∀ x, Accounts.deletes x new = Accounts.deletes x old)
    (hlends : ∀ p, w'.real p + (w.callers p + Accounts.lends p old) =
      w.real p + (w'.callers p + Accounts.lends p new)) (hquiet : w.Quiet w') : w'.Sound := by
  refine h.pass (fun x => ?_) (by rw [hobjects]) hregistry (fun x => ?_) (fun x => ?_) (fun x => ?_)
    (fun p => ?_) hquiet
  · rw [object_congr hobjects]
    exact ⟨rfl, rfl⟩
  · have hpart := hholds x
    refine held_of hcall hcalls ?_
    omega
  · have hpart := hbuilds x
    refine building_of hcall hcalls ?_
    omega
  · have hpart := hdeletes x
    refine deleting_of hcall hcalls ?_
    omega
  · have hpart := hlends p
    have howned : w'.owned p = w.owned p := by rw [owned, hobjects]; rfl
    refine balance_of hcall hcalls (h.balance p) howned ?_
    omega

end Sound
end Steps

section Ownership
variable [Accounts κ ρ] [DecidableEq ρ] {w w' : World α κ ρ} {news : List (Happening ρ)} {t e : Nat}

/-- Callers own what they have come by, except what they have dropped, what calls under way were
passed, and what calls that returned an object have kept. -/
def Kept (w : World α κ ρ) : Prop :=
  ∀ p, w.callers p + total (Accounts.passed p) w.calls + w.history.countP (Happening.spends p) +
    w.history.count (.dropped p) = w.history.count (.granted (some p))

@[simp] theorem count_granted (o : Option ρ) (p : ρ) :
    List.count (.granted (some p)) [Happening.granted o] = one o p := by
  simp [List.count_singleton, one]

@[simp] theorem count_dropped (q p : ρ) :
    List.count (.dropped p) [Happening.dropped q] = one (some q) p := by
  simp [List.count_singleton, one]

theorem Kept.go {old new : κ} (h : w.Kept) (hcall : w.calls[t]? = some old)
    (hcalls : w'.calls = w.calls.set t new) (hhistory : w'.history = w.history ++ news)
    (hparts : ∀ p, w'.callers p + Accounts.passed p new + news.countP (Happening.spends p) +
      news.count (.dropped p) =
        w.callers p + Accounts.passed p old + news.count (.granted (some p))) : w'.Kept := by
  intro p
  have hkept := h p
  have hpart := hparts p
  have htotal := total_set (Accounts.passed p) hcall new
  rw [hcalls, hhistory, List.countP_append, List.count_append, List.count_append]
  omega

theorem Kept.stay (h : w.Kept) (hcalls : w'.calls = w.calls) (hhistory : w'.history = w.history ++ news)
    (hparts : ∀ p, w'.callers p + news.countP (Happening.spends p) + news.count (.dropped p) =
      w.callers p + news.count (.granted (some p))) : w'.Kept := by
  intro p
  have hkept := h p
  have hpart := hparts p
  rw [hcalls, hhistory, List.countP_append, List.count_append, List.count_append]
  omega

theorem kept_initial [Inhabited α] {calls : List κ} (h : ∀ call ∈ calls, ∀ p, Accounts.passed p call = 0) :
    (World.initial (α := α) (ρ := ρ) calls).Kept := by
  intro p
  have hpassed : total (Accounts.passed p) calls = 0 := total_eq_zero _ fun call hmem => h call hmem p
  simp [initial, hpassed]

theorem Sound.not_deleted [Owner α ρ] (h : w.Sound) (he : 0 < w.held e) : .deleted e ∉ w.history := by
  have hliving : w.deleting e = 0 ∧ w.history.count (.deleted e) = 0 := h.lives.living he
  exact List.count_eq_zero.mp hliving.2

/-- What is deleted owns nothing any more. -/
def Bare [Owner α ρ] (w : World α κ ρ) : Prop :=
  ∀ e, .deleted e ∈ w.history → ∀ p, Owner.owns p (w.object e).body = 0

omit [Accounts κ ρ] [DecidableEq ρ] in
theorem Bare.next [Owner α ρ] (h : w.Bare) (hhistory : w'.history = w.history ++ news)
    (hnews : ∀ e, .deleted e ∉ news)
    (hbody : ∀ e, .deleted e ∈ w.history → (w'.object e).body = (w.object e).body) : w'.Bare := by
  intro e he
  rw [hhistory] at he
  cases List.mem_append.mp he with
  | inl hold =>
    rw [hbody e hold]
    exact h e hold
  | inr hnew => exact absurd hnew (hnews e)

theorem Bare.amend [Owner α ρ] (h : w.Bare) (hsound : w.Sound) (he : 0 < w.held e) {f : α → α}
    (hobjects : w'.objects = (w.amend e f).objects) (hhistory : w'.history = w.history) : w'.Bare := by
  refine h.next (hhistory.trans (List.append_nil _).symm) (fun _ => List.not_mem_nil) fun x hx => ?_
  have hne : x ≠ e := fun heq => hsound.not_deleted he (heq ▸ hx)
  rw [object_congr hobjects, object_amend (hsound.lt_of_held he), if_neg hne]

omit [Accounts κ ρ] [DecidableEq ρ] in
theorem Bare.free [Owner α ρ] (h : w.Bare) (he : e < w.objects.length)
    (hobjects : w'.objects = (w.free e).objects) (hhistory : w'.history = w.history ++ [.deleted e]) :
    w'.Bare := by
  intro x hx p
  have hobject : w'.object x = if x = e then { body := default } else w.object x := by
    rw [object_congr hobjects]
    simp only [object, World.free, List.getD_eq_getElem?_getD, List.getElem?_set, he, if_true]
    by_cases heq : e = x
    · simp [heq]
    · simp [heq, Ne.symm heq]
  rw [hobject]
  split
  · exact Owner.owns_default p
  · next hne =>
    rw [hhistory] at hx
    cases List.mem_append.mp hx with
    | inl hold => exact h x hold p
    | inr hnew => exact absurd (Happening.deleted.inj (List.mem_singleton.mp hnew)) hne

theorem Bare.allocate [Owner α ρ] (h : w.Bare) (hsound : w.Sound) {b : α}
    (hobjects : w'.objects = (w.allocate b).objects) (hhistory : w'.history = w.history) : w'.Bare := by
  refine h.next (hhistory.trans (List.append_nil _).symm) (fun _ => List.not_mem_nil) fun x hx => ?_
  have hends : w.deleting x + w.history.count (.deleted x) =
      if x < w.objects.length ∧ w.held x = 0 then 1 else 0 :=
    hsound.lives.ends x
  have hpos := List.count_pos_iff.mpr hx
  rw [object_congr hobjects, object_allocate, if_neg]
  intro heq
  rw [if_neg (by omega)] at hends
  omega

end Ownership

end World
end FfbInterceptor.Library.Registry
