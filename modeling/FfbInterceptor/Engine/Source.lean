import Mathlib.Data.Rat.Defs
import FfbInterceptor.Library.Dictionary
import FfbInterceptor.Engine.Settings
import FfbInterceptor.Engine.Effect

/-! What the engine knows of one producer session (`SourceState` of `ClippingEngine.cs`). -/
namespace FfbInterceptor.Engine
open FfbInterceptor.Library FfbInterceptor.Protocol FfbInterceptor.Server

def MaximumDevices : Nat := 64
def MaximumEffects : Nat := 1024
def DiepDuration : UInt32 := 0x00000001
def DiepGain : UInt32 := 0x00000004
def DiepTriggerButton : UInt32 := 0x00000008
def DiepTriggerRepeatInterval : UInt32 := 0x00000010
def DiepEnvelope : UInt32 := 0x00000080
def DiepTypeSpecificParameters : UInt32 := 0x00000100
def DiepStartDelay : UInt32 := 0x00000200
def DiepStart : UInt32 := 0x20000000
def DiesSolo : UInt32 := 0x00000001
def DiEffectRestarted : Int32 := 0x00000004
def DisffcReset : UInt32 := 0x00000001
def DisffcStopAll : UInt32 := 0x00000002
def DisffcPause : UInt32 := 0x00000004
def DisffcContinue : UInt32 := 0x00000008
def DisffcActuatorsOn : UInt32 := 0x00000010
def DisffcActuatorsOff : UInt32 := 0x00000020

/-- A test of flag bits: `(value & flags) != 0`. -/
def hasFlags (value flags : UInt32) : Bool := value &&& flags ≠ 0

/-- A set of the `[Flags]` enumerators. -/
structure DetectorReliabilityIssue where
  frameGap : Bool := false
  sessionReconnect : Bool := false
  triggerStateUnavailable : Bool := false
  stateCapacityExceeded : Bool := false
  deriving DecidableEq, Repr

def DetectorReliabilityIssue.union (left right : DetectorReliabilityIssue) : DetectorReliabilityIssue where
  frameGap := left.frameGap || right.frameGap
  sessionReconnect := left.sessionReconnect || right.sessionReconnect
  triggerStateUnavailable := left.triggerStateUnavailable || right.triggerStateUnavailable
  stateCapacityExceeded := left.stateCapacityExceeded || right.stateCapacityExceeded

def ulongMaxValue : Nat := 2 ^ 64 - 1

def saturatingIncrement (value : Nat) : Nat := if value = ulongMaxValue then value else value + 1

def saturatingAdd (left right : Nat) : Nat :=
  if ulongMaxValue - left < right then ulongMaxValue else left + right

inductive DetectorTransitionKind where
  | clippingStarted
  | clippingEnded
  | sourceConnected
  | sourceDisconnected
  deriving DecidableEq, Repr

structure ClipInterval where
  start : ℚ
  finish : ℚ
  clipped : Bool
  deriving DecidableEq, Repr

abbrev Guid := BitVec 128

structure Levels where
  commandLevel : ℚ := 0
  effectiveCommandLevel : ℚ := 0
  combinedCommandLevel : ℚ := 0
  unclampedCombinedCommandLevel : ℚ := 0
  combinedEffectiveCommandLevel : ℚ := 0
  selectedEffectGain : ℚ := 1
  selectedDeviceGain : ℚ := 1
  activeEffectCount : Nat := 0
  unsupportedEffectCount : Nat := 0
  deriving DecidableEq, Repr

structure Sampling where
  history : List ClipInterval := []
  lastTickMilliseconds : ℚ := -1
  lastAtLimit : Bool := false
  lastBelowExit : Bool := true
  continuousLimitMilliseconds : ℚ := 0
  continuousBelowExitMilliseconds : ℚ := 0
  deriving DecidableEq, Repr

structure SourceState where
  identity : SourceIdentity
  connections : List Guid := []
  lastActivityMilliseconds : ℚ := 0
  effects : Dictionary EffectKey EffectState := .empty
  devices : Dictionary UInt32 DeviceState := .empty
  levels : Levels := {}
  peakCommandLevel : ℚ := 0
  peakCombinedCommandLevel : ℚ := 0
  peakUnclampedCombinedCommandLevel : ℚ := 0
  atLimit : Bool := false
  isClipping : Bool := false
  clipRatio : ℚ := 0
  unobservedTriggerEffectCount : Nat := 0
  lastEffectKind : EffectKind := .unknown
  droppedFrames : Nat := 0
  deviceStateDrops : Nat := 0
  effectStateDrops : Nat := 0
  sampling : Sampling := {}
  persistentReliabilityIssues : DetectorReliabilityIssue := {}

namespace SourceState

variable (s : SourceState)

def connected : Bool := !s.connections.isEmpty

def reliabilityIssues : DetectorReliabilityIssue :=
  s.persistentReliabilityIssues.union
    { triggerStateUnavailable := s.unobservedTriggerEffectCount ≠ 0 }

def estimateReliable : Bool := s.reliabilityIssues = {}

def recordDeviceStateDrop : SourceState :=
  { s with
    deviceStateDrops := saturatingIncrement s.deviceStateDrops
    persistentReliabilityIssues :=
      s.persistentReliabilityIssues.union { stateCapacityExceeded := true } }

def recordEffectStateDrop : SourceState :=
  { s with
    effectStateDrops := saturatingIncrement s.effectStateDrops
    persistentReliabilityIssues :=
      s.persistentReliabilityIssues.union { stateCapacityExceeded := true } }

/-- The device of an id, new if need be; `none` when there is no room for it. -/
def getOrCreateDevice (deviceId : UInt32) : Option DeviceState × SourceState :=
  match s.devices.find? deviceId with
  | some device => (some device, s)
  | none =>
    if MaximumDevices ≤ s.devices.count then (none, s.recordDeviceStateDrop)
    else (some {}, { s with devices := s.devices.set deviceId {} })

/-- What a reset of the estimate clears, in a disconnect and after a lost frame. -/
def resetEstimate (now : ℚ) : SourceState :=
  { s with
    isClipping := false
    atLimit := false
    levels := { s.levels with
      commandLevel := 0
      effectiveCommandLevel := 0
      combinedCommandLevel := 0
      unclampedCombinedCommandLevel := 0
      combinedEffectiveCommandLevel := 0 }
    clipRatio := 0
    sampling := { lastTickMilliseconds := now } }

def resetAfterDisconnect (now : ℚ) : SourceState :=
  { s.resetEstimate now with
    effects := s.effects.map fun _ effect => { effect with active := false }
    persistentReliabilityIssues := s.persistentReliabilityIssues.union { sessionReconnect := true } }

def invalidateAfterDrop (now : ℚ) : SourceState :=
  { s.resetEstimate now with
    effects := .empty
    devices := .empty
    levels := {}
    persistentReliabilityIssues := s.persistentReliabilityIssues.union { frameGap := true } }

def resetPeak : SourceState :=
  { s with
    peakCommandLevel := s.levels.commandLevel
    peakCombinedCommandLevel := s.levels.combinedCommandLevel
    peakUnclampedCombinedCommandLevel := s.levels.unclampedCombinedCommandLevel }

/-- The effect of a key, new if need be; an error is the state after a refusal. -/
def getOrCreateEffect (key : EffectKey) (kind : EffectKind) :
    Except SourceState (EffectState × SourceState) :=
  match s.effects.find? key with
  | some effect => .ok (effect, s)
  | none =>
    if MaximumEffects ≤ s.effects.count then .error s.recordEffectStateDrop
    else match s.getOrCreateDevice key.deviceId with
      | (none, refused) => .error refused.recordEffectStateDrop
      | (some _, ready) =>
        let effect : EffectState := { deviceId := key.deviceId, effectId := key.effectId, kind := kind }
        .ok (effect, { ready with effects := ready.effects.set key effect })

end SourceState

def frameKey (frame : ProtocolFrame) : EffectKey := ⟨frame.deviceId, frame.effectId⟩

def createdEffect (frame : ProtocolFrame) : EffectState :=
  let effect : EffectState :=
    { deviceId := frame.deviceId, effectId := frame.effectId, kind := frame.effectKind }
  if frame.effectParameterPresence = .absent then effect
  else
    { effect with
      gain := normalizeUnsigned frame.gain
      durationMicroseconds := frame.duration
      startDelayMicroseconds := frame.startDelay
      magnitude := frame.magnitude
      rampStart := frame.rampStart
      rampEnd := frame.rampEnd
      periodicMagnitude := frame.periodicMagnitude
      periodicOffset := frame.periodicOffset
      periodicPhase := frame.periodicPhase
      periodicPeriodMicroseconds := frame.periodicPeriod.toUInt32
      triggerButton := frame.triggerButton
      triggerRepeatMicroseconds := frame.triggerRepeat
      envelopeAttackLevel := frame.envelopeAttackLevel
      envelopeAttackMicroseconds := frame.envelopeAttackTime
      envelopeFadeLevel := frame.envelopeFadeLevel
      envelopeFadeMicroseconds := frame.envelopeFadeTime }

namespace EffectState

variable (effect : EffectState) (frame : ProtocolFrame)

/-- `if (kind != Unknown) effect.Kind = kind`. -/
def withKind (kind : EffectKind) : EffectState :=
  if kind = .unknown then effect else { effect with kind := kind }

def assignTiming : EffectState :=
  { effect with
    durationMicroseconds :=
      if hasFlags frame.flags DiepDuration then frame.duration else effect.durationMicroseconds
    startDelayMicroseconds :=
      if hasFlags frame.flags DiepStartDelay then frame.startDelay else effect.startDelayMicroseconds
    gain := if hasFlags frame.flags DiepGain then normalizeUnsigned frame.gain else effect.gain }

def assignForces : EffectState :=
  if hasFlags frame.flags DiepTypeSpecificParameters then
    { effect with
      magnitude := frame.magnitude
      rampStart := frame.rampStart
      rampEnd := frame.rampEnd
      periodicMagnitude := frame.periodicMagnitude
      periodicOffset := frame.periodicOffset
      periodicPhase := frame.periodicPhase
      periodicPeriodMicroseconds := frame.periodicPeriod.toUInt32 }
  else effect

def assignTrigger : EffectState :=
  { effect with
    triggerButton :=
      if hasFlags frame.flags DiepTriggerButton then frame.triggerButton else effect.triggerButton
    triggerRepeatMicroseconds :=
      if hasFlags frame.flags DiepTriggerRepeatInterval then frame.triggerRepeat
      else effect.triggerRepeatMicroseconds }

def assignEnvelope : EffectState :=
  if hasFlags frame.flags DiepEnvelope then
    { effect with
      envelopeAttackLevel := frame.envelopeAttackLevel
      envelopeAttackMicroseconds := frame.envelopeAttackTime
      envelopeFadeLevel := frame.envelopeFadeLevel
      envelopeFadeMicroseconds := frame.envelopeFadeTime }
  else effect

def assign : EffectState :=
  ((((effect.withKind frame.effectKind).assignTiming frame).assignForces frame).assignTrigger
    frame).assignEnvelope frame

/-- A selected start, else the new schedule of a playing effect whose timing changed. -/
def reschedule (now : ℚ) : EffectState :=
  if hasFlags frame.flags DiepStart then effect.begin now 1
  else if effect.active && hasFlags frame.flags (DiepDuration ||| DiepStartDelay) then
    effect.refreshSchedule
  else effect

def restarted : Bool := frame.hresult &&& DiEffectRestarted ≠ 0

def update (now : ℚ) : EffectState :=
  let rescheduled := (effect.assign frame).reschedule frame now
  if restarted frame then rescheduled.begin now rescheduled.iterations else rescheduled

end EffectState

/-- A device and the effects of all devices, while a device command is carried out. -/
structure Playback where
  device : DeviceState
  effects : Dictionary EffectKey EffectState

namespace Playback

variable (p : Playback) (deviceId : UInt32)

def stopAll : Playback where
  device := { p.device with paused := false }
  effects := p.effects.map fun _ effect => if effect.deviceId = deviceId then effect.stop else effect

def reset : Playback :=
  { p.stopAll deviceId with
    device := { p.device with paused := false, actuatorsEnabled := false } }

def pause (now : ℚ) : Playback :=
  if p.device.paused then p
  else { p with device := { p.device with paused := true, pausedAtMilliseconds := now } }

def resume (now : ℚ) : Playback :=
  if p.device.paused then
    { device := { p.device with paused := false }
      effects := p.effects.map fun _ effect =>
        if effect.deviceId = deviceId then effect.resumeAfterPause p.device.pausedAtMilliseconds now
        else effect }
  else p

def setActuators (enabled : Bool) : Playback :=
  { p with device := { p.device with actuatorsEnabled := enabled } }

def command (command : UInt32) (now : ℚ) : Playback :=
  let p := if hasFlags command DisffcReset then p.reset deviceId else p
  let p := if hasFlags command DisffcStopAll then p.stopAll deviceId else p
  let p := if hasFlags command DisffcPause then p.pause now else p
  let p := if hasFlags command DisffcContinue then p.resume deviceId now else p
  let p := if hasFlags command DisffcActuatorsOff then p.setActuators false else p
  if hasFlags command DisffcActuatorsOn then p.setActuators true else p

end Playback

namespace SourceState

variable (s : SourceState) (frame : ProtocolFrame) (now : ℚ)

def applyEffectCreated : SourceState :=
  if frame.effectId = 0 then s
  else if !s.effects.contains (frameKey frame) && MaximumEffects ≤ s.effects.count then
    s.recordEffectStateDrop
  else match s.getOrCreateDevice frame.deviceId with
    | (none, refused) => refused.recordEffectStateDrop
    | (some _, ready) =>
      { ready with
        effects := ready.effects.set (frameKey frame) (createdEffect frame)
        lastEffectKind := frame.effectKind }

def applyEffectParameters : SourceState :=
  if frame.effectId = 0 then s
  else match s.getOrCreateEffect (frameKey frame) .unknown with
    | .error refused => refused
    | .ok (effect, s) =>
      match s.getOrCreateDevice effect.deviceId with
      | (none, refused) => refused
      | (some device, s) =>
        let current := if effect.active && !device.paused then effect.expireIfFinished now else effect
        let updated := current.update frame now
        { s with
          effects := s.effects.set (frameKey frame) updated
          lastEffectKind := updated.kind }

def stopOthers (key : EffectKey) : SourceState :=
  { s with
    effects := s.effects.map fun _ effect =>
      if effect.deviceId = key.deviceId ∧ effect.effectId ≠ key.effectId then effect.stop else effect }

def applyEffectCommand : SourceState :=
  if !s.effects.contains (frameKey frame) && frame.effectCommand ≠ some .start then s
  else match s.getOrCreateEffect (frameKey frame) frame.effectKind with
    | .error refused => refused
    | .ok (effect, s) =>
      let effect := effect.withKind frame.effectKind
      let s := { s with lastEffectKind := effect.kind }
      match frame.effectCommand with
      | some .start =>
        let s := if hasFlags frame.flags DiesSolo then s.stopOthers (frameKey frame) else s
        { s with effects := s.effects.set (frameKey frame) (effect.begin now frame.iterations) }
      | some .stop | some .unload => { s with effects := s.effects.set (frameKey frame) effect.stop }
      | some .release => { s with effects := s.effects.remove (frameKey frame) }
      | some .download | none => { s with effects := s.effects.set (frameKey frame) effect }

def applyDeviceCommand (deviceId command : UInt32) : SourceState :=
  match s.getOrCreateDevice deviceId with
  | (none, refused) => refused
  | (some device, s) =>
    let p := Playback.command ⟨device, s.effects⟩ deviceId command now
    { s with effects := p.effects, devices := s.devices.set deviceId p.device }

def applyDeviceProperty : SourceState :=
  if frame.propertyId = 1 then
    match s.getOrCreateDevice frame.deviceId with
    | (none, refused) => refused
    | (some device, s) =>
      { s with
        devices := s.devices.set frame.deviceId { device with gain := normalizeUnsigned frame.gain } }
  else s

def applyDropNotice : SourceState :=
  let s := if s.droppedFrames < frame.dropped.toNat then s.invalidateAfterDrop now else s
  { s with droppedFrames := max s.droppedFrames frame.dropped.toNat }

def apply : SourceState :=
  if frame.messageType = .dropNotice then s.applyDropNotice frame now
  else if frame.hresult < 0 ∧ frame.messageType ≠ .hello then s
  else match frame.messageType with
    | .deviceCreated => (s.getOrCreateDevice frame.deviceId).2
    | .devicePropertyChanged => s.applyDeviceProperty frame
    | .effectCreated => s.applyEffectCreated frame
    | .effectParametersChanged => s.applyEffectParameters frame now
    | .effectCommand => s.applyEffectCommand frame now
    | .deviceCommand => s.applyDeviceCommand now frame.deviceId frame.diFlags
    | .hello | .dropNotice => s

end SourceState

end FfbInterceptor.Engine
