import FfbInterceptor.Engine.Source

/-! What a caller sets of an effect, without the fields its kind does not read, and how an update
of a selection is merged into it. -/
namespace FfbInterceptor.Engine
open FfbInterceptor.Protocol

structure Envelope where
  attackLevel : UInt32 := 0
  attackTime : UInt32 := 0
  fadeLevel : UInt32 := 0
  fadeTime : UInt32 := 0
  deriving DecidableEq, Repr

/-- The type-specific values, by what the kind reads. -/
inductive Force where
  | unread
  | constant (magnitude : Int32)
  | ramp (rampStart rampEnd : Int32)
  | periodic (magnitude offset phase : Int32) (period : UInt32)
  deriving DecidableEq, Repr

structure Parameters where
  duration : UInt32
  startDelay : UInt32
  gain : ℚ
  triggerButton : UInt32
  triggerRepeat : UInt32
  envelope : Envelope
  force : Force
  deriving DecidableEq, Repr

/-- The selected parameters of `new`, the others of `old`. -/
def Parameters.merge (selected : UInt32 → Bool) (old new : Parameters) : Parameters where
  duration := if selected DiepDuration then new.duration else old.duration
  startDelay := if selected DiepStartDelay then new.startDelay else old.startDelay
  gain := if selected DiepGain then new.gain else old.gain
  triggerButton := if selected DiepTriggerButton then new.triggerButton else old.triggerButton
  triggerRepeat := if selected DiepTriggerRepeatInterval then new.triggerRepeat else old.triggerRepeat
  envelope := if selected DiepEnvelope then new.envelope else old.envelope
  force := if selected DiepTypeSpecificParameters then new.force else old.force

section Merge
variable (selected : UInt32 → Bool) (old middle new : Parameters)

/-- A selection that has been cut down to what is selected already is merged all the same. -/
theorem merge_merge :
    old.merge selected (middle.merge selected new) = old.merge selected new := by
  simp only [Parameters.merge, Parameters.mk.injEq]
  refine ⟨?_, ?_, ?_, ?_, ?_, ?_, ?_⟩ <;> split <;> rfl

theorem merge_all : old.merge (fun _ => true) new = new := rfl

end Merge

def forceOf (kind : EffectKind)
    (magnitude rampStart rampEnd periodicMagnitude periodicOffset periodicPhase : Int32)
    (periodicPeriod : UInt32) : Force :=
  match kind with
  | .constant => .constant magnitude
  | .ramp => .ramp rampStart rampEnd
  | .square | .sine | .triangle | .sawtoothUp | .sawtoothDown =>
    .periodic periodicMagnitude periodicOffset periodicPhase periodicPeriod
  | .unknown | .spring | .damper | .inertia | .friction | .custom => .unread

/-- The parameters of an effect nobody has described: it plays until it is stopped, at full gain,
without delay, trigger, envelope or force. -/
def Parameters.defaults (kind : EffectKind) : Parameters where
  duration := 0xFFFFFFFF
  startDelay := 0
  gain := 1
  triggerButton := 0xFFFFFFFF
  triggerRepeat := 0
  envelope := {}
  force := forceOf kind 0 0 0 0 0 0 0

def EffectState.parameters (kind : EffectKind) (effect : EffectState) : Parameters where
  duration := effect.durationMicroseconds
  startDelay := effect.startDelayMicroseconds
  gain := effect.gain
  triggerButton := effect.triggerButton
  triggerRepeat := effect.triggerRepeatMicroseconds
  envelope := ⟨effect.envelopeAttackLevel, effect.envelopeAttackMicroseconds,
    effect.envelopeFadeLevel, effect.envelopeFadeMicroseconds⟩
  force := forceOf kind effect.magnitude effect.rampStart effect.rampEnd effect.periodicMagnitude
    effect.periodicOffset effect.periodicPhase effect.periodicPeriodMicroseconds

def frameParameters (kind : EffectKind) (frame : ProtocolFrame) : Parameters where
  duration := frame.duration
  startDelay := frame.startDelay
  gain := normalizeUnsigned frame.gain
  triggerButton := frame.triggerButton
  triggerRepeat := frame.triggerRepeat
  envelope := ⟨frame.envelopeAttackLevel, frame.envelopeAttackTime, frame.envelopeFadeLevel,
    frame.envelopeFadeTime⟩
  force := forceOf kind frame.magnitude frame.rampStart frame.rampEnd frame.periodicMagnitude
    frame.periodicOffset frame.periodicPhase frame.periodicPeriod.toUInt32

section Effects
variable (effect : EffectState) (frame : ProtocolFrame) (kind : EffectKind) (now : ℚ)

@[simp] theorem parameters_refreshSchedule :
    effect.refreshSchedule.parameters kind = effect.parameters kind := rfl

@[simp] theorem parameters_begin (iterations : UInt32) :
    (effect.begin now iterations).parameters kind = effect.parameters kind := rfl

@[simp] theorem parameters_expireIfFinished :
    (effect.expireIfFinished now).parameters kind = effect.parameters kind := by
  rw [EffectState.expireIfFinished]
  split <;> rfl

@[simp] theorem parameters_withKind (other : EffectKind) :
    (effect.withKind other).parameters kind = effect.parameters kind := by
  rw [EffectState.withKind]
  split <;> rfl

@[simp] theorem parameters_reschedule :
    (effect.reschedule frame now).parameters kind = effect.parameters kind := by
  rw [EffectState.reschedule]
  split
  · rfl
  · split <;> rfl

theorem parameters_assign :
    (effect.assign frame).parameters kind =
      (effect.parameters kind).merge (hasFlags frame.flags) (frameParameters kind frame) := by
  have hkind := parameters_withKind effect kind frame.effectKind
  revert hkind
  rw [EffectState.assign]
  generalize effect.withKind frame.effectKind = named
  intro hkind
  rw [← hkind]
  simp only [EffectState.assignEnvelope, EffectState.assignTrigger, EffectState.assignForces,
    EffectState.assignTiming, Parameters.merge]
  cases hasFlags frame.flags DiepEnvelope <;>
    cases hasFlags frame.flags DiepTypeSpecificParameters <;> rfl

theorem parameters_update :
    (effect.update frame now).parameters kind =
      (effect.parameters kind).merge (hasFlags frame.flags) (frameParameters kind frame) := by
  rw [EffectState.update, ← parameters_assign]
  split
  · rw [parameters_begin, parameters_reschedule]
  · rw [parameters_reschedule]

theorem kind_assign (hkind : frame.effectKind ≠ .unknown) :
    (effect.assign frame).kind = frame.effectKind := by
  have hnamed : (effect.withKind frame.effectKind).kind = frame.effectKind := by
    simp only [EffectState.withKind, hkind, ↓reduceIte]
  revert hnamed
  rw [EffectState.assign]
  generalize effect.withKind frame.effectKind = named
  intro hnamed
  simp only [EffectState.assignEnvelope, EffectState.assignTrigger, EffectState.assignForces,
    EffectState.assignTiming]
  cases hasFlags frame.flags DiepEnvelope <;>
    cases hasFlags frame.flags DiepTypeSpecificParameters <;> exact hnamed

theorem kind_reschedule : (effect.reschedule frame now).kind = effect.kind := by
  rw [EffectState.reschedule]
  split
  · rfl
  · split <;> rfl

theorem kind_update (hkind : frame.effectKind ≠ .unknown) :
    (effect.update frame now).kind = frame.effectKind := by
  rw [EffectState.update, ← kind_assign effect frame hkind,
    ← kind_reschedule (effect.assign frame) frame now]
  split <;> rfl

theorem kind_createdEffect : (createdEffect frame).kind = frame.effectKind := by
  rw [createdEffect]
  split <;> rfl

theorem parameters_createdEffect (h : frame.effectParameterPresence ≠ .absent) :
    (createdEffect frame).parameters kind = frameParameters kind frame := by
  simp only [createdEffect, h, ↓reduceIte]
  rfl

theorem parameters_createdEffect_absent (h : frame.effectParameterPresence = .absent) :
    (createdEffect frame).parameters kind = .defaults kind := by
  simp only [createdEffect, h, ↓reduceIte]
  rfl

end Effects

section Adequacy
variable {effect effect' : EffectState}

end Adequacy

end FfbInterceptor.Engine
