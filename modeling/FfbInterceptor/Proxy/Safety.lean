import FfbInterceptor.Proxy.Ownership

/-! The two wrapper registries together: every interleaving of their threads is safe as long as no
counter wraps, and a counter that wraps is enough to be unsafe. -/
namespace FfbInterceptor.Proxy
open Library Library.Lifetimes Library.Registry Library.Runs

/-- What the counting is for: a lookup finds living objects only, an object is deleted once, when
it is off the registry and nobody holds it, and then owns nothing; the real references are in
somebody's hands, and a caller's own are used up by a call that returns a wrapper, by no other. -/
structure Safe {α κ : Type} [Owner α Pointer] [Accounts κ Pointer] (w : World α κ Pointer) : Prop where
  found : ∀ t e n, .found t e n ∈ w.history → n ≠ 0
  counted : ∀ e ∈ w.registry, 0 < w.held e
  unlinked : ∀ e, 0 < w.deleting e ∨ .deleted e ∈ w.history → e ∉ w.registry ∧ w.held e = 0
  deleted : ∀ e < w.objects.length,
    w.deleting e + w.history.count (.deleted e) = if w.held e = 0 then 1 else 0
  bare : ∀ e, .deleted e ∈ w.history → ∀ p, Owner.owns p (w.object e).body = 0
  balance : ∀ p, w.real p = w.callers p + w.owned p + total (Accounts.lends p) w.calls
  kept : ∀ p, w.callers p + total (Accounts.passed p) w.calls + w.history.countP (Happening.spends p) +
    w.history.count (.dropped p) = w.history.count (.granted (some p))

theorem safe_of_sound {α κ : Type} [Owner α Pointer] [Accounts κ Pointer] {w : World α κ Pointer}
    (h : w.Sound) (hkept : w.Kept) (hbare : w.Bare) : Safe w where
  found := h.found
  counted := h.lives.listed_held
  unlinked e hdead := by
    have hsum : 0 < w.deleting e + w.history.count (.deleted e) := by
      cases hdead with
      | inl hdeleting => omega
      | inr hdeleted =>
        have := List.count_pos_iff.mpr hdeleted
        omega
    refine ⟨h.lives.unlinked hsum, ?_⟩
    by_contra hheld
    have hliving : w.deleting e = 0 ∧ w.history.count (.deleted e) = 0 :=
      h.lives.living (Nat.pos_of_ne_zero hheld)
    omega
  deleted e he := by
    have hends := h.lives.ends e
    simp only [World.lives, he, true_and] at hends
    exact hends
  bare := hbare
  balance := h.balance
  kept := hkept

structure Registries where
  devices : DeviceRegistry
  effects : EffectRegistry

inductive Action where
  | device (action : DeviceAction)
  | effect (action : EffectAction)

namespace Registries

def initial (threads : Nat) : Registries where
  devices := DeviceRegistry.initial threads
  effects := EffectRegistry.initial threads

def step (s : Registries) : Action → Registries
  | .device action => { s with devices := s.devices.step action }
  | .effect action => { s with effects := s.effects.step action }

/-- No wrapper has so many references that its counter has wrapped. -/
def Unwrapped (s : Registries) : Prop :=
  (∀ b, s.devices.held b < 2 ^ 32) ∧ ∀ e, s.effects.held e < 2 ^ 32

theorem initial_sound (threads : Nat) : (initial threads).devices.Inv ∧ (initial threads).effects.Sound := by
  have hdevices : (initial threads).devices.Sound := World.sound_initial fun call hmem => by
    obtain rfl := List.eq_of_mem_replicate hmem
    exact ⟨fun _ => rfl, fun _ => rfl, fun _ => rfl⟩
  refine ⟨⟨hdevices, fun t call hcall => ?_, nofun, nofun⟩, World.sound_initial fun call hmem => ?_⟩
  · obtain rfl := List.eq_of_mem_replicate (List.mem_of_getElem? hcall)
    trivial
  · obtain rfl := List.eq_of_mem_replicate hmem
    exact ⟨fun _ => rfl, fun _ => rfl, fun _ => rfl⟩

structure Inv (s : Registries) : Prop where
  devices : s.devices.Inv
  effects : s.effects.Sound
  kept : s.devices.Kept ∧ s.effects.Kept
  bare : s.devices.Bare ∧ s.effects.Bare

theorem inv_initial (threads : Nat) : (initial threads).Inv := by
  obtain ⟨hdevices, heffects⟩ := initial_sound threads
  refine ⟨hdevices, heffects, ⟨World.kept_initial ?_, World.kept_initial ?_⟩, nofun, nofun⟩
  · intro call hmem
    obtain rfl := List.eq_of_mem_replicate hmem
    exact fun _ => rfl
  · intro call hmem
    obtain rfl := List.eq_of_mem_replicate hmem
    exact fun _ => rfl

theorem run_inv (threads : Nat) (actions : List Action)
    (hunwrapped : ∀ k, (run step (initial threads) (actions.take k)).Unwrapped) :
    (run step (initial threads) actions).Inv := by
  refine run_invariant_within (P := Inv) (Q := Unwrapped) (fun s action hs h => ?_)
    (inv_initial threads) actions hunwrapped
  cases action with
  | device action =>
    exact ⟨DeviceRegistry.inv_step h.devices hs.1 action, h.effects,
      ⟨DeviceRegistry.kept_step h.kept.1 action, h.kept.2⟩,
      DeviceRegistry.bare_step h.devices.sound h.bare.1 action, h.bare.2⟩
  | effect action =>
    exact ⟨h.devices, EffectRegistry.sound_step h.effects hs.2 action,
      ⟨h.kept.1, EffectRegistry.kept_step h.kept.2 action⟩, h.bare.1,
      EffectRegistry.bare_step h.effects h.bare.2 action⟩

theorem registries_safe (threads : Nat) (actions : List Action)
    (hunwrapped : ∀ k, (run step (initial threads) (actions.take k)).Unwrapped) :
    let s := run step (initial threads) actions
    Safe s.devices ∧ Safe s.effects ∧
      (s.devices.registry.Nodup ∧ ∀ b ∈ s.devices.registry, ∀ c ∈ s.devices.registry, ∀ i,
        (s.devices.object b).body.identity = some i → (s.devices.object c).body.identity = some i → b = c) ∧
      ∀ x ∈ s.devices.history, Happening.Settled s.devices.history x := by
  have h := run_inv threads actions hunwrapped
  exact ⟨safe_of_sound h.devices.sound h.kept.1 h.bare.1, safe_of_sound h.effects h.kept.2 h.bare.2,
    ⟨h.devices.sound.lives.nodup, h.devices.distinct⟩, h.devices.settled⟩

def publishing : List DeviceAction :=
  [.obtain 7, .publish 0 false (some 7), .allocate 0 true true, .queryAlias 0 none false,
    .queryIdentity 0 none, .resolve 0]

def publishedOnce : List Action :=
  (publishing ++ [DeviceAction.release 0 0, DeviceAction.delete 0, DeviceAction.finish 0,
    DeviceAction.obtain 9, DeviceAction.publish 0 true (some 9),
    DeviceAction.allocate 0 false true]).map .device

theorem unwrapped_of {s : Registries} (hfirst : s.devices.held 0 < 2 ^ 32)
    (hothers : ∀ b, s.devices.held (b + 1) = 0) (heffects : ∀ e, s.effects.held e = 0) : s.Unwrapped := by
  refine ⟨fun b => ?_, fun e => ?_⟩
  · cases b with
    | zero => exact hfirst
    | succ b => rw [hothers]; decide
  · rw [heffects]
    decide

theorem unwrapped_publishedOnce (k : Nat) :
    (run step (initial 1) (publishedOnce.take k)).Unwrapped := by
  match k with
  | 0 | 1 | 2 | 3 | 4 | 5 | 6 | 7 | 8 | 9 | 10 | 11 =>
    exact unwrapped_of (by decide) (fun _ => rfl) fun _ => rfl
  | k + 12 =>
    rw [List.take_of_length_le (Nat.le_add_left 12 k)]
    exact unwrapped_of (by decide) (fun _ => rfl) fun _ => rfl

theorem registries_safe_publishedOnce :
    let s := run step (initial 1) publishedOnce
    s.devices.history = [.granted (some 7), .inserted 0 0, .returned 0 (some 7) (some 0) (some 0) true,
      .deleted 0, .granted (some 9), .returned 0 (some 9) none none false] ∧
      s.devices.callers 7 = 0 ∧ s.devices.callers 9 = 1 ∧ Safe s.devices ∧ Safe s.effects :=
  have h := registries_safe 1 publishedOnce unwrapped_publishedOnce
  ⟨rfl, rfl, rfl, h.1, h.2.1⟩

/-! A counter of 32 bits and an application that takes 2 ^ 32 references. -/

theorem run_devices (s : Registries) (actions : List DeviceAction) :
    (run step s (actions.map .device)).devices = run DeviceRegistry.step s.devices actions := by
  induction actions generalizing s with
  | nil => rfl
  | cons action actions ih => exact ih _

theorem run_addRef (k : Nat) (s : DeviceRegistry) {x : Counted WrapperDevice8State}
    (hobjects : s.objects = [x]) (hclient : 0 < s.clients 0) :
    ∃ clients, run DeviceRegistry.step s (List.replicate k (.addRef 0)) =
      { s with objects := [{ x with refCount := x.refCount + UInt32.ofNat k }], clients := clients } := by
  induction k generalizing s x with
  | zero =>
    refine ⟨s.clients, ?_⟩
    simp [← hobjects]
  | succ k ih =>
    have hstep : s.step (.addRef 0) = (s.addRef 0).handOut (some 0) := if_pos hclient
    have hmore : 0 < ((s.addRef 0).handOut (some 0)).clients 0 := by
      rw [World.clients_handOut, one_self]
      omega
    obtain ⟨clients, hrun⟩ := ih ((s.addRef 0).handOut (some 0))
      (x := { x with refCount := x.refCount + 1 }) (by simp [hobjects]) hmore
    refine ⟨clients, ?_⟩
    have hsum : x.refCount + 1 + UInt32.ofNat k = x.refCount + UInt32.ofNat (k + 1) := by
      rw [UInt32.ofNat_add, UInt32.add_assoc, UInt32.add_comm (UInt32.ofNat k)]
      rfl
    rw [List.replicate_succ, run_cons, hstep, hrun, hsum]
    rfl

theorem counter_wraps : (1 : UInt32) + UInt32.ofNat 4294967295 = 0 := by decide

theorem found_after_wrap (clients : Nat → Nat) :
    let s := run DeviceRegistry.step (initial 1).devices publishing
    .found 0 0 0 ∈ (run DeviceRegistry.step { s with
      objects := [{ body := { realA := some 7, wrapperA := true }, refCount := 0, registered := true }]
      clients := clients } publishing).history :=
  List.mem_of_getElem? (i := 4) rfl

/-- With 2 ^ 32 references out, the counter is back at 0 and the next lookup finds it there. -/
theorem wrapped_counter_is_found : ∃ actions t e,
    .found t e 0 ∈ (run step (initial 1) actions).devices.history := by
  obtain ⟨clients, hrun⟩ := run_addRef 4294967295 (run DeviceRegistry.step (initial 1).devices publishing)
    (x := { body := { realA := some 7, wrapperA := true }, refCount := 1, registered := true }) rfl
    (by decide)
  rw [counter_wraps] at hrun
  refine ⟨(publishing ++ (List.replicate 4294967295 (DeviceAction.addRef 0) ++ publishing)).map .device,
    0, 0, ?_⟩
  rw [run_devices, run_append, run_append, hrun]
  exact found_after_wrap clients

end Registries
end FfbInterceptor.Proxy
