import FfbInterceptor.Telemetry.Worker
import FfbInterceptor.Telemetry.Wrappers

/-! Threads that call the wrappers of one device: the real call is one step, its `emit` another. -/
namespace FfbInterceptor.Telemetry
open Library.Runs Protocol Producer

deriving instance DecidableEq for EffectIds

/-- What `CreateEffect` makes of a created effect: it is handed through without a wrapper, no wrapper
could be allocated, or it is wrapped. -/
inductive Wrapping where
  | passed
  | unallocated
  | wrapped
  deriving DecidableEq

/-- A call on a wrapper of the device. -/
inductive WrapperCall where
  | createEffect (guid : Vector UInt8 16) (parameters : Option DIEFFECT) (wrapping : Wrapping)
  | setParameters (ids : EffectIds) (effect : Option DIEFFECT) (flags : UInt32)
  | start (ids : EffectIds) (iterations flags : UInt32)
  | stop (ids : EffectIds)
  | download (ids : EffectIds)
  | unload (ids : EffectIds)
  | sendForceFeedbackCommand (flags : UInt32)

def WrapperCall.effect? : WrapperCall → Option EffectIds
  | .createEffect _ _ _ => none
  | .setParameters ids _ _ => some ids
  | .start ids _ _ => some ids
  | .stop ids => some ids
  | .download ids => some ids
  | .unload ids => some ids
  | .sendForceFeedbackCommand _ => none

/-- The event of a completed real call, with the place of the call among all completed ones. -/
structure Completed where
  number : Nat
  event : Event
  deriving Inhabited

/-- The device with its wrappers, and what each thread still has to emit. `completed` is history. -/
structure Calls (δ : Type) where
  device : δ
  nextEffect : UInt32
  registry : List EffectIds
  outstanding : List (Option Completed)
  telemetry : State Completed
  completed : List Event

/-- What the real device makes of a call, and the `HRESULT` it returns. An effect goes by the id of its
wrapper; a created one is given the id that its wrapper takes. -/
abbrev RealDevice (δ : Type) := δ → UInt32 → WrapperCall → δ × Int32

inductive CallAction where
  | complete (t : Nat) (call : WrapperCall)
  | emit (t : Nat)
  | work (k : Fin kSinkCount) (r : IoResult)

def takesId (hr : Int32) (wrapping : Wrapping) : Bool := 0 ≤ hr && wrapping != .passed

namespace Calls

variable {δ : Type} (p : Producer) (deviceId : UInt32) (real : RealDevice δ)

def eventOf (effectId : UInt32) (hr : Int32) : WrapperCall → Event
  | .createEffect guid parameters wrapping =>
    p.emitEffect deviceId (if takesId hr wrapping then effectId else 0) guid parameters hr
  | .setParameters ids effect flags => p.setParameters ids effect flags hr
  | .start ids iterations flags => p.start ids iterations flags hr
  | .stop ids => p.stop ids hr
  | .download ids => p.download ids hr
  | .unload ids => p.unload ids hr
  | .sendForceFeedbackCommand flags => p.emitDeviceCommand deviceId flags hr

def wrappersOf (effectId : UInt32) (hr : Int32) : WrapperCall → List EffectIds
  | .createEffect guid _ wrapping =>
    if 0 ≤ hr ∧ wrapping = .wrapped then [⟨deviceId, effectId, guid⟩] else []
  | _ => []

def idsOf (hr : Int32) : WrapperCall → UInt32
  | .createEffect _ _ wrapping => if takesId hr wrapping then 1 else 0
  | _ => 0

def complete (s : Calls δ) (t : Nat) (call : WrapperCall) : Calls δ :=
  match s.outstanding[t]? with
  | some none =>
    if call.effect?.all (· ∈ s.registry) then
      let result := real s.device (s.nextEffect + 1) call
      let event := eventOf p deviceId (s.nextEffect + 1) result.2 call
      { s with
        device := result.1
        nextEffect := s.nextEffect + idsOf result.2 call
        registry := wrappersOf deviceId (s.nextEffect + 1) result.2 call ++ s.registry
        outstanding := s.outstanding.set t (some ⟨s.completed.length, event⟩)
        completed := s.completed ++ [event] }
    else s
  | _ => s

def emit (s : Calls δ) (t : Nat) : Calls δ :=
  match s.outstanding[t]? with
  | some (some c) =>
    { s with outstanding := s.outstanding.set t none, telemetry := s.telemetry.emit c }
  | _ => s

def step (s : Calls δ) : CallAction → Calls δ
  | .complete t call => s.complete p deviceId real t call
  | .emit t => s.emit t
  | .work k r => { s with telemetry := s.telemetry.step (.run k r) }

def initial (device : δ) (threads : Nat) (telemetry : State Completed) : Calls δ where
  device := device
  nextEffect := 0
  registry := []
  outstanding := List.replicate threads none
  telemetry := telemetry
  completed := []

def waiting (s : Calls δ) : List Completed := s.outstanding.filterMap id

/-- A real call completes while no other is between its real call and its `emit`, and neither the
32-bit id nor the 64-bit sequence number wraps. -/
def undisturbed (s : Calls δ) : CallAction → Bool
  | .complete _ _ => s.waiting.isEmpty && s.nextEffect + 1 != 0
  | _ => s.telemetry.drawn + 1 < 2 ^ 64

end Calls

def concernsEffect (event : Event) : Bool :=
  event.type = .effectParametersChanged || event.type = .effectCommand

/-- An effect's `EffectCreated` precedes its other events. -/
def CreatedFirst (events : List Event) : Prop :=
  ∀ before event after, events = before ++ event :: after → concernsEffect event = true →
    ∃ created ∈ before, created.type = .effectCreated ∧ created.effectId = event.effectId

/-- The ids under which effects were created; 0 stands for an effect without a wrapper. -/
def createdIds (events : List Event) : List UInt32 :=
  (events.filter fun e => e.type = .effectCreated && e.effectId != 0).map Event.effectId

/-- A consumer that keeps up with the device: with `n` ids taken, a call and its event lead from related
states to related states. -/
def Tracks {γ δ : Type} (p : Producer) (deviceId : UInt32) (real : RealDevice δ)
    (apply : γ → Event → γ) (R : UInt32 → γ → δ → Prop) : Prop :=
  ∀ n consumer device call, n + 1 ≠ 0 → R n consumer device →
    R (n + Calls.idsOf (real device (n + 1) call).2 call)
      (apply consumer (Calls.eventOf p deviceId (n + 1) (real device (n + 1) call).2 call))
      (real device (n + 1) call).1

/-- The emitted events follow the real calls. -/
structure Follows {γ δ : Type} (apply : γ → Event → γ) (R : UInt32 → γ → δ → Prop) (start : γ)
    (s : Calls δ) : Prop where
  sorted : (s.telemetry.emits.map Sequenced.sequence).Pairwise (· < ·)
  order : ∀ a ∈ s.telemetry.emits, ∀ b ∈ s.telemetry.emits,
    a.sequence < b.sequence ↔ a.event.number < b.event.number
  distinct : (createdIds (s.telemetry.emits.map fun e => e.event.event)).Nodup
  created : CreatedFirst (s.telemetry.emits.map fun e => e.event.event)
  consumer : s.waiting = [] →
    R s.nextEffect ((s.telemetry.emits.map fun e => e.event.event).foldl apply start) s.device

section Events
variable {events : List Event}

theorem CreatedFirst.append (h : CreatedFirst events) {event : Event}
    (hevent : concernsEffect event = true →
      ∃ created ∈ events, created.type = .effectCreated ∧ created.effectId = event.effectId) :
    CreatedFirst (events ++ [event]) := by
  intro before e after hsplit he
  rcases List.eq_nil_or_concat after with hafter | ⟨after', last, hafter⟩
  · rw [hafter] at hsplit
    obtain ⟨hbefore, hlast⟩ := List.append_inj' hsplit rfl
    rw [← hbefore]
    rw [← List.head_eq_of_cons_eq hlast] at he ⊢
    exact hevent he
  · rw [hafter, List.concat_eq_append, ← List.cons_append, ← List.append_assoc] at hsplit
    obtain ⟨hbefore, -⟩ := List.append_inj' hsplit rfl
    exact h before e after' hbefore he

theorem CreatedFirst.take (h : CreatedFirst events) (n : Nat) : CreatedFirst (events.take n) := by
  intro before e after hsplit he
  refine h before e (after ++ events.drop n) ?_ he
  rw [← List.cons_append, ← List.append_assoc, ← hsplit, List.take_append_drop]

theorem createdIds_append (events events' : List Event) :
    createdIds (events ++ events') = createdIds events ++ createdIds events' := by
  simp only [createdIds, List.filter_append, List.map_append]

theorem createdIds_take (events : List Event) (n : Nat) :
    (createdIds (events.take n)).Sublist (createdIds events) :=
  ((List.take_sublist n events).filter _).map _

end Events

namespace Calls
variable {γ δ : Type} {p : Producer} {deviceId : UInt32} {real : RealDevice δ} {apply : γ → Event → γ}
  {R : UInt32 → γ → δ → Prop} {start : γ} {s : Calls δ}

section Waiting
variable {t : Nat} {c : Completed}

theorem filterMap_set_perm {slots : List (Option Completed)} (h : slots[t]? = some none) :
    ((slots.set t (some c)).filterMap id).Perm (c :: slots.filterMap id) := by
  induction slots generalizing t with
  | nil => simp at h
  | cons slot slots ih =>
    cases t with
    | zero =>
      obtain rfl : slot = none := by simpa using h
      exact List.Perm.refl _
    | succ t =>
      have hrest := ih (List.getElem?_cons_succ ▸ h)
      cases slot with
      | none => exact hrest
      | some other => exact (hrest.cons other).trans (List.Perm.swap _ _ _)

theorem filterMap_unset_perm {slots : List (Option Completed)} (h : slots[t]? = some (some c)) :
    (slots.filterMap id).Perm (c :: (slots.set t none).filterMap id) := by
  obtain ⟨hlt, hc⟩ := List.getElem?_eq_some_iff.mp h
  have hset : (((slots.set t none).set t (some c)).filterMap id).Perm
      (c :: (slots.set t none).filterMap id) := by
    apply filterMap_set_perm
    rw [List.getElem?_set_self hlt]
  rwa [List.set_set, ← hc, List.set_getElem_self hlt] at hset

end Waiting

section Numbers
variable {events : List Event} {n : Nat} {c : Completed}

def numbered (events : List Event) : List Completed := events.mapIdx Completed.mk

theorem numbered_append (events : List Event) (event : Event) :
    numbered (events ++ [event]) = numbered events ++ [⟨events.length, event⟩] := List.mapIdx_concat

theorem length_numbered : (numbered events).length = events.length := List.length_mapIdx

theorem event_numbered : (numbered events).map Completed.event = events := by
  apply List.ext_getElem?
  intro i
  rw [List.getElem?_map, numbered, List.getElem?_mapIdx, Option.map_map]
  exact Option.map_id_apply

theorem number_of_getElem (h : (numbered events)[n]? = some c) : c.number = n := by
  rw [numbered, List.getElem?_mapIdx] at h
  obtain ⟨event, -, rfl⟩ := Option.map_eq_some_iff.mp h
  rfl

end Numbers

structure InOrder (apply : γ → Event → γ) (R : UInt32 → γ → δ → Prop) (start : γ) (s : Calls δ) :
    Prop where
  running : s.telemetry.anyRunning = true
  valid : s.telemetry.Valid
  single : s.waiting.length ≤ 1
  emitted : s.telemetry.emits.map Sequenced.event =
    (numbered s.completed).take s.telemetry.emits.length
  waiting : s.waiting.Perm ((numbered s.completed).drop s.telemetry.emits.length)
  device : R s.nextEffect (s.completed.foldl apply start) s.device
  taken : ∀ id ∈ createdIds s.completed, id ≤ s.nextEffect
  distinct : (createdIds s.completed).Nodup
  registered : ∀ ids ∈ s.registry, ∃ created ∈ s.completed,
    created.type = .effectCreated ∧ created.effectId = ids.effectId
  created : CreatedFirst s.completed

theorem InOrder.initial {telemetry : State Completed} (hrunning : telemetry.anyRunning = true)
    (hvalid : telemetry.Valid) (hemits : telemetry.emits = []) {device : δ} (hstart : R 0 start device)
    (threads : Nat) : InOrder apply R start (initial device threads telemetry) := by
  have hwaiting : (Calls.initial device threads telemetry).waiting = [] := by
    simp [Calls.waiting, Calls.initial]
  exact {
    running := hrunning
    valid := hvalid
    single := by
      rw [hwaiting]
      exact Nat.zero_le 1
    emitted := by
      change telemetry.emits.map Sequenced.event = _
      rw [hemits, List.map_nil]
      exact (List.take_nil).symm
    waiting := by
      rw [hwaiting]
      simp [Calls.initial, numbered]
    device := hstart
    taken := by
      intro id hid
      cases hid
    distinct := List.nodup_nil
    registered := by
      intro ids hids
      cases hids
    created := by
      intro before event after hsplit
      cases List.append_ne_nil_of_right_ne_nil before (List.cons_ne_nil event after) hsplit.symm }

theorem InOrder.emitted_le (h : InOrder apply R start s) :
    s.telemetry.emits.length ≤ s.completed.length := by
  have hlength := congrArg List.length h.emitted
  rw [List.length_map, List.length_take, length_numbered] at hlength
  omega

theorem InOrder.next (h : InOrder apply R start s) {t : Nat} {c : Completed}
    (ht : s.outstanding[t]? = some (some c)) :
    (numbered s.completed)[s.telemetry.emits.length]? = some c := by
  have hc : c ∈ s.waiting := List.mem_filterMap.mpr ⟨some c, List.mem_of_getElem? ht, rfl⟩
  have hsingle : s.waiting = [c] := by
    obtain ⟨other, hother⟩ := List.length_eq_one_iff.mp
      (Nat.le_antisymm h.single (List.length_pos_of_mem hc))
    rw [hother, List.mem_singleton] at hc
    rw [hother, hc]
  have hdrop := h.waiting
  rw [hsingle] at hdrop
  rw [← List.head?_drop, ← List.singleton_perm.mp hdrop, List.head?_cons]

theorem InOrder.step_emit (h : InOrder apply R start s) {t : Nat}
    (hdrawn : s.telemetry.drawn + 1 < 2 ^ 64) : InOrder apply R start (s.emit t) := by
  cases ht : s.outstanding[t]? with
  | none => simpa only [Calls.emit, ht] using h
  | some slot =>
    cases slot with
    | none => simpa only [Calls.emit, ht] using h
    | some c =>
      have hnext := h.next ht
      obtain ⟨hlt, hc⟩ := List.getElem?_eq_some_iff.mp hnext
      have hemits : (s.telemetry.emit c).emits =
          s.telemetry.emits ++ [⟨increment64 s.telemetry.sequence, c⟩] := by
        simp only [State.emit, h.running, ↓reduceIte]
      have hlength : (s.telemetry.emit c).emits.length = s.telemetry.emits.length + 1 := by
        rw [hemits, List.length_append, List.length_singleton]
      simp only [Calls.emit, ht]
      constructor
      case running => exact (anyRunning_emit c).trans h.running
      case valid =>
        exact h.valid.emit c (lt_of_le_of_lt (drawn_step s.telemetry (.emit c)).2 hdrawn)
      case single =>
        have hlength := (filterMap_unset_perm ht).length_eq
        have hsingle := h.single
        simp only [Calls.waiting, List.length_cons] at hsingle hlength ⊢
        omega
      case emitted =>
        simp only [hlength]
        rw [hemits, List.map_append, h.emitted, List.take_add_one, hnext]
        rfl
      case waiting =>
        have hwaiting := (filterMap_unset_perm ht).symm.trans h.waiting
        rw [List.drop_eq_getElem_cons hlt, hc] at hwaiting
        simp only [hlength]
        exact hwaiting.cons_inv
      case device => exact h.device
      case taken => exact h.taken
      case distinct => exact h.distinct
      case registered => exact h.registered
      case created => exact h.created

theorem type_filled (win64 : Bool) (effect : Option DIEFFECT) {event : Event}
    (haxes : event.axisCount = 0) (hconditions : event.conditionCount = 0) :
    (fillEffectParameters win64 effect event).type = event.type ∧
      (fillEffectParameters win64 effect event).effectId = event.effectId := by
  have hcaptured : Captured event (fillEffectParameters win64 effect event) := by
    apply captured_fillEffectParameters
    · rw [haxes]
      exact Nat.zero_le _
    · rw [hconditions]
      exact Nat.zero_le _
  exact ⟨hcaptured.type, hcaptured.effectId⟩

theorem type_emitEffect (p : Producer) (deviceId effectId : UInt32) (guid : Vector UInt8 16)
    (parameters : Option DIEFFECT) (hr : Int32) :
    (p.emitEffect deviceId effectId guid parameters hr).type = .effectCreated ∧
      (p.emitEffect deviceId effectId guid parameters hr).effectId = effectId :=
  type_filled p.win64 parameters rfl rfl

/-- Only a call on an effect reports one that exists, under the id of its wrapper. -/
theorem concernsEffect_eventOf {effectId : UInt32} {hr : Int32} {call : WrapperCall}
    (h : concernsEffect (eventOf p deviceId effectId hr call) = true) :
    ∃ ids, call.effect? = some ids ∧ (eventOf p deviceId effectId hr call).effectId = ids.effectId := by
  cases call with
  | createEffect guid parameters wrapping =>
    rw [concernsEffect, eventOf, (type_emitEffect _ _ _ _ _ _).1] at h
    cases h
  | setParameters ids effect flags => exact ⟨ids, rfl, (type_filled p.win64 effect rfl rfl).2⟩
  | start ids iterations flags => exact ⟨ids, rfl, rfl⟩
  | stop ids => exact ⟨ids, rfl, rfl⟩
  | download ids => exact ⟨ids, rfl, rfl⟩
  | unload ids => exact ⟨ids, rfl, rfl⟩
  | sendForceFeedbackCommand flags => cases h

/-- A wrapper enters the registry with a call that reports its effect as created. -/
theorem created_of_wrappersOf {effectId : UInt32} {hr : Int32} {call : WrapperCall} {ids : EffectIds}
    (h : ids ∈ wrappersOf deviceId effectId hr call) :
    (eventOf p deviceId effectId hr call).type = .effectCreated ∧
      (eventOf p deviceId effectId hr call).effectId = ids.effectId := by
  cases call with
  | createEffect guid parameters wrapping =>
    simp only [wrappersOf] at h
    by_cases hwrapped : 0 ≤ hr ∧ wrapping = .wrapped
    · rw [if_pos hwrapped, List.mem_singleton] at h
      have htakes : takesId hr wrapping = true := by
        simp [takesId, hwrapped.1, hwrapped.2]
      rw [h, eventOf, if_pos htakes]
      exact type_emitEffect _ _ effectId guid parameters hr
    · rw [if_neg hwrapped] at h
      cases h
  | _ => cases h

/-- Only a creation that takes an id reports one that was not reported before. -/
theorem createdIds_eventOf {effectId : UInt32} (hid : effectId ≠ 0) (hr : Int32) (call : WrapperCall) :
    createdIds [eventOf p deviceId effectId hr call] = if idsOf hr call = 0 then [] else [effectId] := by
  cases call with
  | createEffect guid parameters wrapping =>
    have hcreated : ∀ id, createdIds [p.emitEffect deviceId id guid parameters hr] =
        if id = 0 then [] else [id] := by
      intro id
      obtain ⟨htype, heffect⟩ := type_emitEffect p deviceId id guid parameters hr
      rw [createdIds, List.filter_singleton, htype, heffect]
      by_cases hzero : id = 0
      · simp [hzero]
      · have hpos : (id != 0) = true := bne_iff_ne.mpr hzero
        simp [hpos, heffect, hzero]
    simp only [eventOf, hcreated, idsOf]
    by_cases htakes : takesId hr wrapping = true
    · simp [htakes, hid]
    · simp [htakes]
  | setParameters ids effect flags =>
    have htype : (p.setParameters ids effect flags hr).type = .effectParametersChanged :=
      (type_filled p.win64 effect rfl rfl).1
    simp [createdIds, eventOf, htype, idsOf]
  | _ => rfl

theorem idsOf_eq (hr : Int32) (call : WrapperCall) : idsOf hr call = 0 ∨ idsOf hr call = 1 := by
  cases call with
  | createEffect guid parameters wrapping =>
    simp only [idsOf]
    split
    · exact Or.inr rfl
    · exact Or.inl rfl
  | _ => exact Or.inl rfl

theorem lt_next {n : UInt32} (hnext : n + 1 ≠ 0) : n < n + 1 := by
  rw [UInt32.lt_iff_toNat_lt, UInt32.toNat_add]
  have hlt := n.toNat_lt
  have hne : n.toNat + 1 ≠ 2 ^ 32 := by
    intro heq
    apply hnext
    rw [← UInt32.toNat_inj, UInt32.toNat_add]
    simp [heq]
  rw [UInt32.toNat_one, Nat.mod_eq_of_lt (by omega)]
  omega

theorem InOrder.ids_complete (h : InOrder apply R start s) (p : Producer) (deviceId : UInt32)
    (hnext : s.nextEffect + 1 ≠ 0) (hr : Int32) (call : WrapperCall) :
    let ids := createdIds (s.completed ++ [eventOf p deviceId (s.nextEffect + 1) hr call])
    (∀ id ∈ ids, id ≤ s.nextEffect + idsOf hr call) ∧ ids.Nodup := by
  have hlt := lt_next hnext
  rw [createdIds_append, createdIds_eventOf hnext]
  rcases idsOf_eq hr call with hnone | hone
  · rw [if_pos hnone, List.append_nil, hnone, UInt32.add_zero]
    exact ⟨h.taken, h.distinct⟩
  · rw [hone, if_neg (by decide)]
    constructor
    · intro id hid
      rcases List.mem_append.mp hid with hid | hid
      · exact UInt32.le_of_lt (UInt32.lt_of_le_of_lt (h.taken id hid) hlt)
      · rw [List.mem_singleton.mp hid]
        exact UInt32.le_refl _
    · refine List.nodup_append.mpr ⟨h.distinct, List.nodup_singleton _, ?_⟩
      intro id hid other hother heq
      rw [List.mem_singleton.mp hother] at heq
      have hle := h.taken id hid
      rw [heq] at hle
      exact absurd hlt (UInt32.not_lt.mpr hle)

theorem InOrder.step_complete (htracks : Tracks p deviceId real apply R) (h : InOrder apply R start s)
    (t : Nat) (call : WrapperCall) (hundisturbed : s.undisturbed (.complete t call) = true) :
    InOrder apply R start (s.complete p deviceId real t call) := by
  obtain ⟨hnone, hnext⟩ : s.waiting = [] ∧ s.nextEffect + 1 ≠ 0 := by
    simpa [undisturbed] using hundisturbed
  cases ht : s.outstanding[t]? with
  | none => simpa only [complete, ht] using h
  | some slot =>
    cases slot with
    | some c => simpa only [complete, ht] using h
    | none =>
      by_cases hreach : call.effect?.all (· ∈ s.registry) = true
      · have hids := h.ids_complete p deviceId hnext
          (real s.device (s.nextEffect + 1) call).2 call
        simp only [complete, ht, hreach, ↓reduceIte]
        generalize hevent : eventOf p deviceId (s.nextEffect + 1)
          (real s.device (s.nextEffect + 1) call).2 call = event at hids ⊢
        have hslots := filterMap_set_perm (c := ⟨s.completed.length, event⟩) ht
        constructor
        case running => exact h.running
        case valid => exact h.valid
        case single =>
          have hlength := hslots.length_eq
          have hwaiting : s.outstanding.filterMap id = [] := hnone
          rw [hwaiting] at hlength
          exact hlength.le
        case emitted =>
          simp only [numbered_append]
          rw [List.take_append_of_le_length (by rw [length_numbered]; exact h.emitted_le)]
          exact h.emitted
        case waiting =>
          simp only [numbered_append]
          rw [List.drop_append_of_le_length (by rw [length_numbered]; exact h.emitted_le)]
          have hwaiting := hslots.trans (h.waiting.cons ⟨s.completed.length, event⟩)
          exact hwaiting.trans (List.perm_append_singleton _ _).symm
        case device =>
          simp only [List.foldl_append, ← hevent]
          exact htracks _ _ _ call hnext h.device
        case taken => exact hids.1
        case distinct => exact hids.2
        case registered =>
          intro ids hids
          rcases List.mem_append.mp hids with hids | hids
          · have hcreated := created_of_wrappersOf (p := p) hids
            rw [hevent] at hcreated
            exact ⟨event, List.mem_append_right _ List.mem_cons_self, hcreated⟩
          · obtain ⟨created, hmem, hcreated⟩ := h.registered ids hids
            exact ⟨created, List.mem_append_left _ hmem, hcreated⟩
        case created =>
          apply h.created.append
          intro hconcerns
          rw [← hevent] at hconcerns ⊢
          obtain ⟨ids, hids, hid⟩ := concernsEffect_eventOf hconcerns
          rw [hid]
          apply h.registered ids
          simpa [hids] using hreach
      · simpa only [complete, ht, hreach, Bool.false_eq_true, ↓reduceIte] using h

theorem InOrder.step (htracks : Tracks p deviceId real apply R) (h : InOrder apply R start s)
    (action : CallAction) (hundisturbed : s.undisturbed action = true) :
    InOrder apply R start (s.step p deviceId real action) := by
  cases action with
  | complete t call => exact h.step_complete htracks t call hundisturbed
  | emit t => exact h.step_emit (of_decide_eq_true hundisturbed)
  | work k r =>
    have hdrawn := lt_of_le_of_lt (drawn_step s.telemetry (.run k r)).2
      (of_decide_eq_true hundisturbed)
    exact {
      running := (anyRunning_run k r).trans h.running
      valid := h.valid.step (.run k r) hdrawn
      single := h.single
      emitted := h.emitted
      waiting := h.waiting
      device := h.device
      taken := h.taken
      distinct := h.distinct
      registered := h.registered
      created := h.created }

theorem InOrder.number_eq (h : InOrder apply R start s) {i : Nat} {e : Sequenced Completed}
    (he : s.telemetry.emits[i]? = some e) : e.event.number = i := by
  have hplace : ((numbered s.completed).take s.telemetry.emits.length)[i]? = some e.event := by
    rw [← h.emitted, List.getElem?_map, he, Option.map_some]
  rw [List.getElem?_take_of_lt (List.getElem?_eq_some_iff.mp he).1] at hplace
  exact number_of_getElem hplace

theorem InOrder.sequence_lt (h : InOrder apply R start s) {a b : Sequenced Completed}
    (ha : a ∈ s.telemetry.emits) (hb : b ∈ s.telemetry.emits) (hlt : a.event.number < b.event.number) :
    a.sequence < b.sequence := by
  obtain ⟨i, hi⟩ := List.mem_iff_getElem?.mp ha
  obtain ⟨j, hj⟩ := List.mem_iff_getElem?.mp hb
  rw [h.number_eq hi, h.number_eq hj] at hlt
  obtain ⟨hilt, rfl⟩ := List.getElem?_eq_some_iff.mp hi
  obtain ⟨hjlt, rfl⟩ := List.getElem?_eq_some_iff.mp hj
  exact List.pairwise_iff_getElem.mp (List.pairwise_map.mp h.valid.emits_order) i j hilt hjlt hlt

theorem InOrder.events_emitted (h : InOrder apply R start s) :
    (s.telemetry.emits.map fun e => e.event.event) = s.completed.take s.telemetry.emits.length := by
  have hevents := congrArg (List.map Completed.event) h.emitted
  rwa [List.map_map, List.map_take, event_numbered] at hevents

theorem InOrder.follows (h : InOrder apply R start s) : Follows apply R start s where
  sorted := h.valid.emits_order
  order := by
    intro a ha b hb
    constructor
    · intro hlt
      rcases Nat.lt_trichotomy a.event.number b.event.number with hnumber | hnumber | hnumber
      · exact hnumber
      · obtain ⟨i, hi⟩ := List.mem_iff_getElem?.mp ha
        obtain ⟨j, hj⟩ := List.mem_iff_getElem?.mp hb
        rw [h.number_eq hi, h.number_eq hj] at hnumber
        rw [hnumber, hj] at hi
        rw [Option.some.inj hi] at hlt
        exact absurd hlt (lt_irrefl _)
      · exact absurd (h.sequence_lt hb ha hnumber) (lt_asymm hlt)
    · exact h.sequence_lt ha hb
  distinct := by
    rw [h.events_emitted]
    exact h.distinct.sublist (createdIds_take _ _)
  created := by
    rw [h.events_emitted]
    exact h.created.take _
  consumer := by
    intro hwaiting
    have hlength := h.waiting.length_eq
    rw [hwaiting, List.length_nil, List.length_drop, length_numbered] at hlength
    rw [h.events_emitted, List.take_of_length_le (by omega)]
    exact h.device

end Calls

/-- Whatever the interleaving, the events follow the calls when no two calls overlap between the real
call and its `emit`. -/
theorem telemetry_follows_calls {γ δ : Type} (p : Producer) (deviceId : UInt32) (real : RealDevice δ)
    (apply : γ → Event → γ) (R : UInt32 → γ → δ → Prop) (htracks : Tracks p deviceId real apply R)
    (start : γ) (device : δ) (hstart : R 0 start device) (threads : Nat)
    (started : List (Action Completed)) (hquiet : (State.after started).emits = [])
    (hrunning : (State.after started).anyRunning = true)
    (hdrawn : (State.after started).drawn < 2 ^ 64) (actions : List CallAction)
    (hundisturbed : Throughout (Calls.step p deviceId real)
      (fun s action => s.undisturbed action = true)
      (Calls.initial device threads (State.after started)) actions) :
    Follows apply R start (run (Calls.step p deviceId real)
      (Calls.initial device threads (State.after started)) actions) := by
  have hinitial : Calls.InOrder apply R start (Calls.initial device threads (State.after started)) :=
    Calls.InOrder.initial hrunning (State.after_valid hdrawn) hquiet hstart threads
  apply Calls.InOrder.follows
  refine hundisturbed.invariant ?_ hinitial
  intro s action hstep h
  exact h.step htracks action hstep

section Samples

def setPlaying (id : UInt32) (playing : Bool) (effects : List (UInt32 × Bool)) : List (UInt32 × Bool) :=
  effects.map fun e => if e.1 = id then (id, playing) else e

def stopAll (effects : List (UInt32 × Bool)) : List (UInt32 × Bool) := effects.map fun e => (e.1, false)

/-- A device that keeps of every effect with a wrapper whether it plays; every call succeeds. 2 is
`DISFFC_STOPALL`. -/
def playingDevice : RealDevice (List (UInt32 × Bool)) := fun effects id call =>
  match call with
  | .createEffect _ _ wrapping => (if wrapping = .passed then effects else (id, false) :: effects, 0)
  | .start ids _ _ => (setPlaying ids.effectId true effects, 0)
  | .stop ids => (setPlaying ids.effectId false effects, 0)
  | .unload ids => (setPlaying ids.effectId false effects, 0)
  | .sendForceFeedbackCommand flags => (if flags = 2 then stopAll effects else effects, 0)
  | _ => (effects, 0)

/-- The consumer that enters an effect under the id of its creation. -/
def playingConsumer (effects : List (UInt32 × Bool)) (event : Event) : List (UInt32 × Bool) :=
  if event.type = .effectCreated then
    if event.effectId = 0 then effects else (event.effectId, false) :: effects
  else if event.type = .effectCommand then
    if event.command = EffectCommand.start.value then setPlaying event.effectId true effects
    else if event.command = EffectCommand.stop.value ∨ event.command = EffectCommand.unload.value then
      setPlaying event.effectId false effects
    else effects
  else if event.type = .deviceCommand then
    if event.diFlags = 2 then stopAll effects else effects
  else effects

def agreeing (_ : UInt32) (consumer device : List (UInt32 × Bool)) : Prop := consumer = device

theorem playingConsumer_tracks (p : Producer) (deviceId : UInt32) :
    Tracks p deviceId playingDevice playingConsumer agreeing := by
  rintro n effects - call hnext rfl
  cases call with
  | createEffect guid parameters wrapping =>
    obtain ⟨htype, hid⟩ := Calls.type_emitEffect p deviceId
      (if takesId 0 wrapping then n + 1 else 0) guid parameters 0
    change playingConsumer effects (p.emitEffect deviceId (if takesId 0 wrapping then n + 1 else 0) guid
      parameters 0) = if wrapping = .passed then effects else (n + 1, false) :: effects
    rw [playingConsumer, if_pos htype, hid]
    cases wrapping with
    | passed => rfl
    | unallocated => exact if_neg hnext
    | wrapped => exact if_neg hnext
  | setParameters ids effect flags =>
    have htype : (p.setParameters ids effect flags 0).type = .effectParametersChanged :=
      (Calls.type_filled p.win64 effect rfl rfl).1
    simp only [agreeing, playingConsumer, playingDevice, Calls.eventOf, htype]
    rfl
  | start ids iterations flags => rfl
  | stop ids => rfl
  | download ids => rfl
  | unload ids => rfl
  | sendForceFeedbackCommand flags => rfl

def sampleProducer : Producer where
  processId := 1
  processId_ne := by decide
  sessionTicks := 1
  qpcFrequency := 1
  win64 := true
  basename := []
  effectKindFromGuid := fun _ => .constant
  clock := fun n => n.toUInt64

def sampleStarted : List (Action Completed) := [.createThread viewerSink, .setRunning viewerSink]

def sampleIds : EffectIds := ⟨1, 1, Vector.replicate 16 0⟩

def sampleCalls (actions : List CallAction) : Calls (List (UInt32 × Bool)) :=
  run (Calls.step sampleProducer 1 playingDevice)
    (Calls.initial [] 2 (State.after sampleStarted)) actions

/-- `Stop` returns after `Start` and is emitted before it. -/
def stopOvertakes : List CallAction :=
  [.complete 0 (.createEffect sampleIds.guid none .wrapped), .emit 0, .complete 0 (.start sampleIds 1 0),
    .complete 1 (.stop sampleIds), .emit 1, .emit 0]

/-- An enumerated effect is started before its creation is emitted. -/
def startOvertakes : List CallAction :=
  [.complete 0 (.createEffect sampleIds.guid none .wrapped), .complete 1 (.start sampleIds 1 0), .emit 1,
    .emit 0]

def inTurn : List CallAction :=
  [.complete 0 (.createEffect sampleIds.guid none .wrapped), .emit 0, .complete 0 (.start sampleIds 1 0),
    .emit 0, .work viewerSink .ok, .complete 1 (.stop sampleIds), .emit 1]

theorem sample_calls_follow : Follows playingConsumer agreeing [] (sampleCalls inTurn) ∧
    (sampleCalls inTurn).device = [(1, false)] :=
  ⟨telemetry_follows_calls sampleProducer 1 playingDevice playingConsumer agreeing
    (playingConsumer_tracks _ _) [] [] rfl 2 sampleStarted (by decide +kernel) (by decide +kernel)
    (by decide +kernel) inTurn (by decide +kernel), by decide +kernel⟩

theorem calls_overtake :
    Tracks sampleProducer 1 playingDevice playingConsumer agreeing ∧
    (sampleCalls stopOvertakes).telemetry.emits.map (fun e => (e.sequence, e.event.number)) =
      [(1, 0), (2, 2), (3, 1)] ∧
    ¬ Follows playingConsumer agreeing [] (sampleCalls stopOvertakes) ∧
    ¬ CreatedFirst ((sampleCalls startOvertakes).telemetry.emits.map fun e => e.event.event) := by
  refine ⟨playingConsumer_tracks _ _, by decide +kernel, ?_, ?_⟩
  · intro h
    have hconsumer := h.consumer (by decide +kernel)
    have hdiffers : ((sampleCalls stopOvertakes).telemetry.emits.map fun e => e.event.event).foldl
        playingConsumer [] ≠ (sampleCalls stopOvertakes).device := by
      decide +kernel
    exact hdiffers hconsumer
  · intro h
    have htypes : ((sampleCalls startOvertakes).telemetry.emits.map fun e => e.event.event).map
        concernsEffect = [true, false] := by
      decide +kernel
    generalize (sampleCalls startOvertakes).telemetry.emits.map (fun e => e.event.event) = events
      at h htypes
    cases events with
    | nil => cases htypes
    | cons first rest =>
      obtain ⟨hfirst, -⟩ := List.cons.inj htypes
      obtain ⟨created, hmem, -⟩ := h [] first rest rfl hfirst
      cases hmem

end Samples

end FfbInterceptor.Telemetry
