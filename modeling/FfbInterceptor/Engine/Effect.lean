import Mathlib.Data.Rat.Floor
import FfbInterceptor.Protocol.Decoder

/-! The schedule and the waveforms of one effect (`EffectState` of `ClippingEngine.cs`). Times are
milliseconds and levels fractions of full scale, both exact rationals. -/
namespace FfbInterceptor.Engine
open FfbInterceptor.Protocol

/-- `phase ↦ Math.Sin(2 * Math.PI * phase)`. -/
structure Sine where
  value : ℚ → ℚ
  range : ∀ phase, |value phase| ≤ 1

def flat : Sine := ⟨fun _ => 0, by simp⟩

def clamp01 (value : ℚ) : ℚ := max 0 (min 1 value)

def normalizeUnsigned (value : UInt32) : ℚ := clamp01 (value.toNat / 10000)

structure EffectKey where
  deviceId : UInt32
  effectId : UInt32
  deriving DecidableEq, Repr

structure DeviceState where
  gain : ℚ := 1
  paused : Bool := false
  pausedAtMilliseconds : ℚ := 0
  actuatorsEnabled : Bool := true
  deriving DecidableEq, Repr

/-- `none` for the end of the schedule is positive infinity. -/
structure EffectState where
  deviceId : UInt32
  effectId : UInt32
  kind : EffectKind := .unknown
  active : Bool := false
  durationMicroseconds : UInt32 := 0xFFFFFFFF
  startDelayMicroseconds : UInt32 := 0
  iterations : UInt32 := 1
  playbackRequestedMilliseconds : ℚ := 0
  activeFromMilliseconds : ℚ := 0
  activeUntilMilliseconds : Option ℚ := none
  gain : ℚ := 1
  magnitude : Int32 := 0
  rampStart : Int32 := 0
  rampEnd : Int32 := 0
  periodicMagnitude : Int32 := 0
  periodicOffset : Int32 := 0
  periodicPhase : Int32 := 0
  periodicPeriodMicroseconds : UInt32 := 0
  triggerButton : UInt32 := 0xFFFFFFFF
  triggerRepeatMicroseconds : UInt32 := 0
  envelopeAttackLevel : UInt32 := 0
  envelopeAttackMicroseconds : UInt32 := 0
  envelopeFadeLevel : UInt32 := 0
  envelopeFadeMicroseconds : UInt32 := 0
  deriving DecidableEq, Repr

/-- `now >= end` for an end of a schedule. -/
def reached (now : ℚ) : Option ℚ → Bool
  | none => false
  | some finish => finish ≤ now

namespace EffectState

variable (effect : EffectState)

def key : EffectKey := ⟨effect.deviceId, effect.effectId⟩

def refreshSchedule : EffectState :=
  let activeFrom := effect.playbackRequestedMilliseconds + effect.startDelayMicroseconds.toNat / 1000
  { effect with
    activeFromMilliseconds := activeFrom
    activeUntilMilliseconds :=
      if effect.durationMicroseconds = 0xFFFFFFFF ∨ effect.iterations = 0xFFFFFFFF then none
      else some (activeFrom + effect.durationMicroseconds.toNat / 1000 * effect.iterations.toNat) }

def begin (now : ℚ) (iterations : UInt32) : EffectState :=
  { effect with
    active := true
    iterations := if iterations = 0 then 1 else iterations
    playbackRequestedMilliseconds := now }.refreshSchedule

def shiftSchedule (milliseconds : ℚ) : EffectState :=
  if !effect.active || milliseconds ≤ 0 then effect
  else
    { effect with
      playbackRequestedMilliseconds := effect.playbackRequestedMilliseconds + milliseconds
      activeFromMilliseconds := effect.activeFromMilliseconds + milliseconds
      activeUntilMilliseconds := effect.activeUntilMilliseconds.map (· + milliseconds) }

def resumeAfterPause (pausedAt now : ℚ) : EffectState :=
  effect.shiftSchedule (max 0 (now - max pausedAt effect.playbackRequestedMilliseconds))

def expireIfFinished (now : ℚ) : EffectState :=
  if effect.active && reached now effect.activeUntilMilliseconds then { effect with active := false }
  else effect

/-- `IsProducing`, which also expires an effect whose schedule has ended. -/
def isProducing (now : ℚ) : Bool × EffectState :=
  if !effect.active || now < effect.activeFromMilliseconds then (false, effect)
  else ((effect.expireIfFinished now).active, effect.expireIfFinished now)

def stop : EffectState := { effect with active := false, activeUntilMilliseconds := none }

def hasUnobservableTrigger : Bool := effect.triggerButton ≠ 0xFFFFFFFF

end EffectState

def isPeriodic : EffectKind → Bool
  | .square | .sine | .triangle | .sawtoothUp | .sawtoothDown => true
  | _ => false

/-- The remainder of a non-negative dividend. -/
def remainder (dividend divisor : ℚ) : ℚ := dividend - divisor * ⌊dividend / divisor⌋

namespace EffectState

variable (effect : EffectState)

def isSupported : Bool :=
  effect.kind = .constant || effect.kind = .ramp ||
    (isPeriodic effect.kind && 0 < effect.periodicPeriodMicroseconds)

def hasEnvelope : Bool :=
  effect.envelopeAttackLevel ≠ 0 || effect.envelopeAttackMicroseconds ≠ 0 ||
    effect.envelopeFadeLevel ≠ 0 || effect.envelopeFadeMicroseconds ≠ 0

def durationMilliseconds : ℚ := effect.durationMicroseconds.toNat / 1000

def iterationElapsedMilliseconds (now : ℚ) : ℚ :=
  let elapsed := max 0 (now - effect.activeFromMilliseconds)
  if effect.durationMicroseconds = 0xFFFFFFFF ∨ effect.durationMicroseconds = 0 then elapsed
  else if effect.durationMilliseconds ≤ 0 then 0
  else remainder elapsed effect.durationMilliseconds

def envelopeAmplitudeAt (elapsed sustainAmplitude : ℚ) : ℚ :=
  let attack : ℚ := effect.envelopeAttackMicroseconds.toNat / 1000
  let fade : ℚ := effect.envelopeFadeMicroseconds.toNat / 1000
  let attackStart := clamp01 (effect.envelopeAttackLevel.toNat / 10000)
  let fadeStart := max 0 (effect.durationMilliseconds - fade)
  let fadeEnd := clamp01 (effect.envelopeFadeLevel.toNat / 10000)
  let fadeProgress := if fade ≤ 0 then 1 else clamp01 ((elapsed - fadeStart) / fade)
  if !effect.hasEnvelope then sustainAmplitude
  else if 0 < attack ∧ elapsed < attack then
    attackStart + (sustainAmplitude - attackStart) * clamp01 (elapsed / attack)
  else if effect.durationMicroseconds ≠ 0xFFFFFFFF ∧ effect.envelopeFadeMicroseconds ≠ 0 ∧
      fadeStart ≤ elapsed then
    sustainAmplitude + (fadeEnd - sustainAmplitude) * fadeProgress
  else sustainAmplitude

def applyEnvelopeToSigned (sustain elapsed : ℚ) : ℚ :=
  (if sustain < 0 then -1 else 1) * effect.envelopeAmplitudeAt elapsed |sustain|

def rampProgress (elapsed : ℚ) : ℚ :=
  if effect.durationMicroseconds = 0xFFFFFFFF ∨ effect.durationMicroseconds = 0 then 0
  else clamp01 (elapsed / effect.durationMilliseconds)

end EffectState

def waveformAt (sine : Sine) (kind : EffectKind) (phase : ℚ) : ℚ :=
  match kind with
  | .sine => sine.value phase
  | .square => if phase < 1 / 2 then 1 else -1
  | .triangle => 1 - 4 * min phase (1 - phase)
  | .sawtoothUp => 2 * phase - 1
  | .sawtoothDown => 1 - 2 * phase
  | _ => 0

/-- The signed command at a point of an iteration. -/
def EffectState.commandAt (sine : Sine) (effect : EffectState) (elapsed : ℚ) : ℚ :=
  match effect.kind with
  | .constant => effect.applyEnvelopeToSigned (effect.magnitude.toInt / 10000) elapsed
  | .ramp =>
    effect.applyEnvelopeToSigned
      ((effect.rampStart.toInt +
        (effect.rampEnd.toInt - effect.rampStart.toInt) * effect.rampProgress elapsed) / 10000) elapsed
  | kind =>
    let cycles : ℚ := elapsed * 1000 / effect.periodicPeriodMicroseconds.toNat +
      effect.periodicPhase.toInt / 36000
    effect.periodicOffset.toInt / 10000 +
      (if effect.periodicMagnitude < 0 then -1 else 1) *
        effect.envelopeAmplitudeAt elapsed |(effect.periodicMagnitude.toInt / 10000 : ℚ)| *
          waveformAt sine kind (cycles - ⌊cycles⌋)

def EffectState.rawLevelAt (sine : Sine) (now : ℚ) (effect : EffectState) : ℚ :=
  if effect.isSupported then
    clamp01 |effect.commandAt sine (effect.iterationElapsedMilliseconds now)|
  else 0

end FfbInterceptor.Engine
