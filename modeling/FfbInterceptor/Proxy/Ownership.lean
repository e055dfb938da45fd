import FfbInterceptor.Proxy.DeviceSafety

/-! Who owns the real interfaces: a call that returns a wrapper has used up the reference it was
passed, one that fails leaves it with its caller, and a deleted wrapper owns nothing. -/
namespace FfbInterceptor.Proxy
open Library Library.Lifetimes Library.Registry World

namespace EffectRegistry
open EffectCall
variable {s : EffectRegistry}

@[simp] theorem passed_eq (p : Pointer) (call : EffectCall) : Accounts.passed p call = passed p call := rfl

theorem kept_clientAddRef (h : s.Kept) (e : Nat) : (s.clientAddRef e).Kept := by
  unfold clientAddRef
  split
  · exact h.stay rfl (List.append_nil _).symm fun p => by simp
  · exact h

theorem passed_afterRelease (e : Nat) (p : Pointer) : passed p (s.afterRelease e) = 0 := by
  unfold afterRelease
  split <;> rfl

/-- A step takes a reference from its caller only for a call, and gives it back when the call fails. -/
theorem kept_step (h : s.Kept) (action : EffectAction) : (s.step action).Kept := by
  cases action with
  | create t real allocated =>
    simp only [step, create]
    split
    · next hcall =>
      split
      · next hreal =>
        split
        · refine h.go hcall rfl (List.append_nil _).symm fun p => ?_
          have hle := one_le_of_all hreal p
          simp [passed]
          omega
        · exact h.stay rfl rfl fun p => by simp [Happening.spends]
      · exact h
    · exact h
  | queryIdentity t answer =>
    simp only [step, queryIdentity]
    split
    · next hcall =>
      split
      · exact h.go hcall rfl (List.append_nil _).symm fun p => by simp [passed]
      · exact h.go hcall rfl (List.append_nil _).symm fun p => by simp [passed]
    · exact h
  | keepIdentity t =>
    simp only [step, keepIdentity]
    split
    · next hcall => exact h.go hcall rfl (List.append_nil _).symm fun p => by simp [passed]
    · exact h
  | registerInstance t =>
    simp only [step, registerInstance]
    split
    · next real e hcall =>
      refine h.go hcall rfl (List.append_assoc ..) fun p => ?_
      simp [passed, Happening.spends, one, List.countP_cons]
    · exact h
  | find t real answer =>
    change (s.find t real answer).Kept
    by_cases hcall : s.calls[t]? = some .idle
    · cases real with
      | none =>
        rw [find_of_none hcall]
        exact h.stay rfl rfl fun p => by simp [Happening.spends]
      | some real =>
        rw [find_of_some hcall]
        exact h.go hcall rfl (List.append_nil _).symm fun p => by simp [passed]
    · rw [find_of_ne hcall]
      exact h
  | look t =>
    simp only [step, look]
    split
    · next hcall =>
      split
      · exact h.go hcall rfl rfl fun p => by simp [passed, Happening.spends]
      · exact h.go hcall rfl (List.append_nil _).symm fun p => by simp [passed]
    · exact h
  | leave t =>
    simp only [step, leave]
    split
    · next hcall => exact h.go hcall rfl rfl fun p => by simp [passed, Happening.spends]
    · exact h
  | addRef e =>
    exact kept_clientAddRef h e
  | queryInterface e own answer =>
    simp only [step, queryInterface]
    split
    · exact kept_clientAddRef h e
    · split
      · split
        · exact h.stay rfl rfl fun p => by simp [Happening.spends]
        · exact h
      · exact h
  | release t e =>
    simp only [step, clientRelease]
    split
    · next hcall =>
      refine h.go hcall.1 (by simp; rfl) (by simp; rfl) fun p => ?_
      simp [passed_afterRelease]
      rfl
    · exact h
  | delete t =>
    simp only [step, delete]
    split
    · next hcall => exact h.go hcall rfl rfl fun p => by simp [passed, Happening.spends]
    · exact h
  | obtain p => exact h.stay rfl rfl fun q => by simp [step, obtain, Happening.spends]
  | drop p =>
    simp only [step, drop]
    split
    · next howner =>
      refine h.stay rfl rfl fun q => ?_
      have hle := one_le howner q
      simp [Happening.spends]
      omega
    · exact h

theorem bare_clientAddRef (h : s.Bare) (e : Nat) : (s.clientAddRef e).Bare := by
  unfold clientAddRef
  split
  · exact h.next (List.append_nil _).symm (fun _ => List.not_mem_nil) fun x _ => body_addRef x
  · exact h

theorem bare_step (h : s.Sound) (hbare : s.Bare) (action : EffectAction) : (s.step action).Bare := by
  cases action with
  | create t real allocated =>
    simp only [step, create]
    split
    · split
      · split
        · exact hbare.allocate h rfl rfl
        · exact hbare.next rfl (by simp) fun _ _ => rfl
      · exact hbare
    · exact hbare
  | queryIdentity t answer =>
    simp only [step, queryIdentity]
    split
    · split
      · exact hbare
      · exact hbare
    · exact hbare
  | keepIdentity t =>
    simp only [step, keepIdentity]
    split
    · next real e i hcall =>
      have hbuilt := h.built (e := e) hcall (by simp [builds])
      exact hbare.amend h (by omega : 0 < s.held e) (f := ({ · with identity := some i })) rfl rfl
    · exact hbare
  | registerInstance t =>
    simp only [step, registerInstance]
    split
    · exact hbare.next (List.append_assoc ..) (by simp) fun x _ => body_register x
    · exact hbare
  | find t real answer =>
    change (s.find t real answer).Bare
    by_cases hcall : s.calls[t]? = some .idle
    · cases real with
      | none =>
        rw [find_of_none hcall]
        exact hbare.next rfl (by simp) fun _ _ => rfl
      | some real =>
        rw [find_of_some hcall]
        exact hbare
    · rw [find_of_ne hcall]
      exact hbare
  | look t =>
    simp only [step, look]
    split
    · split
      · exact hbare.next rfl (by simp) fun x _ => body_addRef x
      · exact hbare
    · exact hbare
  | leave t =>
    simp only [step, leave]
    split
    · exact hbare.next rfl (by simp) fun _ _ => rfl
    · exact hbare
  | addRef e => exact bare_clientAddRef hbare e
  | queryInterface e own answer =>
    simp only [step, queryInterface]
    split
    · exact bare_clientAddRef hbare e
    · split
      · split
        · exact hbare.next rfl (by simp) fun _ _ => rfl
        · exact hbare
      · exact hbare
  | release t e =>
    simp only [step, clientRelease]
    split
    · next hcall =>
      have hlt := h.lt_of_held (h.shared hcall.2).1
      exact hbare.next (by simp) (fun _ => List.not_mem_nil) fun x _ => body_release hlt x
    · exact hbare
  | delete t =>
    simp only [step, delete]
    split
    · next e hcall =>
      obtain ⟨-, hlt⟩ := h.dying (e := e) hcall (by simp [deletes])
      exact hbare.free hlt rfl rfl
    · exact hbare
  | obtain p => exact hbare.next rfl (by simp) fun _ _ => rfl
  | drop p =>
    simp only [step, drop]
    split
    · exact hbare.next rfl (by simp) fun _ _ => rfl
    · exact hbare

end EffectRegistry

namespace DeviceRegistry
open DeviceCall
variable {s : DeviceRegistry}

@[simp] theorem passed_eq (p : Pointer) (call : DeviceCall) : Accounts.passed p call = passed p call := rfl

theorem kept_clientAddRef (h : s.Kept) (e : Nat) : (s.clientAddRef e).Kept := by
  unfold clientAddRef
  split
  · exact h.stay rfl (List.append_nil _).symm fun p => by simp
  · exact h

theorem passed_afterRelease (e : Nat) (after : AfterRelease) (p : Pointer) :
    passed p (s.afterRelease e after) = after.passed p := by
  unfold afterRelease
  split <;> rfl

theorem kept_forward (h : s.Kept) (e : Nat) (u : Bool) (answer : Option Pointer) :
    Kept (if 0 < s.clients e ∧ ((s.object e).body.real u).isSome then
      ((s.acquire answer).entrust answer).log (.granted answer) else s) := by
  split
  · exact h.stay rfl rfl fun p => by simp [Happening.spends]
  · exact h

/-- A step takes a reference from its caller only for a call, and gives it back when the call fails. -/
theorem kept_step (h : s.Kept) (action : DeviceAction) : (s.step action).Kept := by
  cases action with
  | publish t u real =>
    change (s.publish t u real).Kept
    by_cases hcall : s.calls[t]? = some .idle
    · cases real with
      | none =>
        rw [publish_of_none hcall]
        exact h.stay rfl rfl fun p => by simp [Happening.spends]
      | some real =>
        rw [publish_of_some hcall]
        split
        · next howner =>
          refine h.go hcall rfl (List.append_nil _).symm fun p => ?_
          have hle := one_le howner p
          simp [passed]
          omega
        · exact h
    · rw [publish_of_ne hcall]
      exact h
  | allocate t candidate state =>
    simp only [step, allocateCandidate]
    split
    · next hcall =>
      split
      · exact h.go hcall rfl (List.append_nil _).symm fun p => by simp [passed]
      · exact h.go hcall rfl rfl fun p => by simp [passed, Happening.spends]
    · exact h
  | queryAlias t answer wrapper =>
    simp only [step, queryAlias]
    split
    · next hcall => exact h.go hcall rfl (List.append_nil _).symm fun p => by simp [passed]
    · exact h
  | queryIdentity t answer =>
    simp only [step, queryIdentity]
    split
    · next hcall =>
      split
      · exact h.go hcall rfl (List.append_nil _).symm fun p => by simp [passed]
      · exact h.go hcall rfl (List.append_nil _).symm fun p => by simp [passed]
    · exact h
  | keepIdentity t =>
    simp only [step, keepIdentity]
    split
    · next hcall => exact h.go hcall rfl (List.append_nil _).symm fun p => by simp [passed]
    · exact h
  | resolve t =>
    simp only [step, resolve, discard]
    split
    · next u real c hcall =>
      split
      · split
        · split
          · exact h.go hcall rfl rfl fun p => by simp [passed, Happening.spends]
          · exact h.go hcall rfl (List.append_nil _).symm fun p => by simp [passed]
        · refine h.go hcall rfl (List.append_assoc ..) fun p => ?_
          simp [passed, Happening.spends, one, List.countP_cons]
      · exact h.go hcall rfl (List.append_nil _).symm fun p => by simp [passed]
    · exact h
  | releaseCandidate t =>
    simp only [step, releaseCandidate]
    split
    · next hcall =>
      refine h.go hcall (by simp; rfl) (by simp; rfl) fun p => ?_
      simp [passed_afterRelease]
      rfl
    · next hcall =>
      refine h.go hcall (by simp; rfl) (by simp; rfl) fun p => ?_
      simp [passed_afterRelease]
      rfl
    · exact h
  | delete t =>
    simp only [step, delete]
    split
    · next hcall => exact h.go hcall rfl rfl fun p => by simp [passed, Happening.spends]
    · exact h
  | finish t =>
    simp only [step, finish]
    split
    · next hcall =>
      exact h.go hcall rfl (List.append_nil _).symm fun p => by simp [passed, AfterRelease.passed]
    · next hcall =>
      refine h.go hcall rfl rfl fun p => ?_
      simp [passed, AfterRelease.passed, Happening.spends, one]
    · next hcall =>
      refine h.go hcall rfl rfl fun p => ?_
      simp [passed, AfterRelease.passed, Happening.spends]
    · exact h
  | addRef e => exact kept_clientAddRef h e
  | queryInterface e u request answer =>
    cases request with
    | unknown => exact kept_clientAddRef h e
    | device v =>
      simp only [step, queryInterface]
      split
      · exact kept_clientAddRef h e
      · exact kept_forward h e u answer
    | other => exact kept_forward h e u answer
  | release t e =>
    simp only [step, clientRelease]
    split
    · next hcall =>
      refine h.go hcall.1 (by simp; rfl) (by simp; rfl) fun p => ?_
      simp [passed_afterRelease]
      rfl
    · exact h
  | obtain p => exact h.stay rfl rfl fun q => by simp [step, obtain, Happening.spends]
  | drop p =>
    simp only [step, drop]
    split
    · next howner =>
      refine h.stay rfl rfl fun q => ?_
      have hle := one_le howner q
      simp [Happening.spends]
      omega
    · exact h

theorem bare_clientAddRef (h : s.Bare) (e : Nat) : (s.clientAddRef e).Bare := by
  unfold clientAddRef
  split
  · exact h.next (List.append_nil _).symm (fun _ => List.not_mem_nil) fun x _ => body_addRef x
  · exact h

theorem bare_forward (h : s.Bare) (e : Nat) (u : Bool) (answer : Option Pointer) :
    Bare (if 0 < s.clients e ∧ ((s.object e).body.real u).isSome then
      ((s.acquire answer).entrust answer).log (.granted answer) else s) := by
  split
  · exact h.next rfl (by simp) fun _ _ => rfl
  · exact h

theorem bare_discard (h : s.Sound) (hbare : s.Bare) {t c : Nat} {u : Bool} {real : Pointer}
    (hcall : s.calls[t]? = some (.constructed u real c)) : (s.discard t u real c).Bare := by
  have hbuilt := h.built (e := c) hcall (by simp [builds])
  exact hbare.amend h (by omega : 0 < s.held c) (f := (·.setReal u none)) rfl rfl

theorem bare_step (h : s.Sound) (hbare : s.Bare) (action : DeviceAction) : (s.step action).Bare := by
  cases action with
  | publish t u real =>
    change (s.publish t u real).Bare
    by_cases hcall : s.calls[t]? = some .idle
    · cases real with
      | none =>
        rw [publish_of_none hcall]
        exact hbare.next rfl (by simp) fun _ _ => rfl
      | some real =>
        rw [publish_of_some hcall]
        split
        · exact hbare
        · exact hbare
    · rw [publish_of_ne hcall]
      exact hbare
  | allocate t candidate state =>
    simp only [step, allocateCandidate]
    split
    · split
      · exact hbare.allocate h rfl rfl
      · exact hbare.next rfl (by simp) fun _ _ => rfl
    · exact hbare
  | queryAlias t answer wrapper =>
    simp only [step, queryAlias]
    split
    · next u real c hcall =>
      have hbuilt := h.built (e := c) hcall (by simp [builds])
      refine hbare.amend h (by omega : 0 < s.held c)
        (f := fun x => (x.setReal (!u) answer).setWrapper (!u) (answer.isSome && wrapper)) rfl rfl
    · exact hbare
  | queryIdentity t answer =>
    simp only [step, queryIdentity]
    split
    · split
      · exact hbare
      · exact hbare
    · exact hbare
  | keepIdentity t =>
    simp only [step, keepIdentity]
    split
    · next u real c i hcall =>
      have hbuilt := h.built (e := c) hcall (by simp [builds])
      exact hbare.amend h (by omega : 0 < s.held c) (f := ({ · with identity := some i })) rfl rfl
    · exact hbare
  | resolve t =>
    simp only [step, resolve]
    split
    · next u real c hcall =>
      split
      · split
        · split
          · exact hbare.next rfl (by simp) fun x _ => body_addRef x
          · exact bare_discard h hbare hcall
        · exact hbare.next (List.append_assoc ..) (by simp) fun x _ => body_register x
      · exact bare_discard h hbare hcall
    · exact hbare
  | releaseCandidate t =>
    have hrelease : ∀ c after call, s.calls[t]? = some call → 0 < builds c call →
        ((s.release c).go t (s.afterRelease c after)).Bare := by
      intro c after call hcall hbuilds
      have hbuilt := h.built (e := c) hcall hbuilds
      have hlt := h.lt_of_held (by omega : 0 < s.held c)
      exact hbare.next (by simp) (fun _ => List.not_mem_nil) fun x _ => body_release hlt x
    simp only [step, releaseCandidate]
    split
    · next hcall => exact hrelease _ _ _ hcall (by simp [builds])
    · next hcall => exact hrelease _ _ _ hcall (by simp [builds])
    · exact hbare
  | delete t =>
    simp only [step, delete]
    split
    · next e after hcall =>
      obtain ⟨-, hlt⟩ := h.dying (e := e) hcall (by simp [deletes])
      exact hbare.free hlt rfl rfl
    · exact hbare
  | finish t =>
    simp only [step, finish]
    split
    · exact hbare
    · exact hbare.next rfl (by simp) fun _ _ => rfl
    · exact hbare.next rfl (by simp) fun _ _ => rfl
    · exact hbare
  | addRef e => exact bare_clientAddRef hbare e
  | queryInterface e u request answer =>
    cases request with
    | unknown => exact bare_clientAddRef hbare e
    | device v =>
      simp only [step, queryInterface]
      split
      · exact bare_clientAddRef hbare e
      · exact bare_forward hbare e u answer
    | other => exact bare_forward hbare e u answer
  | release t e =>
    simp only [step, clientRelease]
    split
    · next hcall =>
      have hlt := h.lt_of_held (h.shared hcall.2).1
      exact hbare.next (by simp) (fun _ => List.not_mem_nil) fun x _ => body_release hlt x
    · exact hbare
  | obtain p => exact hbare.next rfl (by simp) fun _ _ => rfl
  | drop p =>
    simp only [step, drop]
    split
    · exact hbare.next rfl (by simp) fun _ _ => rfl
    · exact hbare

end DeviceRegistry
end FfbInterceptor.Proxy
