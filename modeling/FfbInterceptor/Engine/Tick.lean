import Mathlib.Data.List.MinMax
import FfbInterceptor.Engine.Source

/-! The evaluation of the effects and the hysteresis of a tick (`SourceState.Tick`). -/
namespace FfbInterceptor.Engine
open FfbInterceptor.Library FfbInterceptor.Server

/-- What the loop over the effects leaves of one: a paused device stops the clock of its effects. -/
def evaluateEffect (devices : Dictionary UInt32 DeviceState) (now : ℚ) (effect : EffectState) :
    EffectState :=
  match devices.find? effect.deviceId with
  | none => effect
  | some device => if device.paused then effect else (effect.isProducing now).2

def producingDevice (devices : Dictionary UInt32 DeviceState) (now : ℚ) (effect : EffectState) :
    Option DeviceState :=
  match devices.find? effect.deviceId with
  | none => none
  | some device =>
    if device.paused then none
    else if !(effect.isProducing now).1 || !device.actuatorsEnabled then none
    else some device

structure Evaluation where
  levels : Levels := {}
  commandByDevice : Dictionary UInt32 ℚ := .empty
  effectiveByDevice : Dictionary UInt32 ℚ := .empty

def addTo (sums : Dictionary UInt32 ℚ) (deviceId : UInt32) (amount : ℚ) : Dictionary UInt32 ℚ :=
  sums.set deviceId ((sums.find? deviceId).getD 0 + amount)

def largest (sums : Dictionary UInt32 ℚ) : ℚ := sums.values.max?.getD 0

def Levels.select (levels : Levels) (raw effectGain deviceGain : ℚ) : Levels :=
  if levels.commandLevel ≤ raw then
    { levels with
      commandLevel := raw
      selectedEffectGain := effectGain
      selectedDeviceGain := deviceGain
      effectiveCommandLevel := clamp01 (raw * effectGain * deviceGain) }
  else levels

section Evaluate

variable (sine : Sine)

def Evaluation.add (devices : Dictionary UInt32 DeviceState) (now : ℚ) (evaluation : Evaluation)
    (effect : EffectState) : Evaluation :=
  match producingDevice devices now effect with
  | none => evaluation
  | some device =>
    let levels := { evaluation.levels with
      activeEffectCount := evaluation.levels.activeEffectCount + 1 }
    if effect.isSupported then
      let raw := effect.rawLevelAt sine now
      { levels := levels.select raw effect.gain device.gain
        commandByDevice := addTo evaluation.commandByDevice effect.deviceId raw
        effectiveByDevice :=
          addTo evaluation.effectiveByDevice effect.deviceId (raw * effect.gain * device.gain) }
    else
      { evaluation with
        levels := { levels with unsupportedEffectCount := levels.unsupportedEffectCount + 1 } }

def Evaluation.result (evaluation : Evaluation) : Levels :=
  { evaluation.levels with
    unclampedCombinedCommandLevel := largest evaluation.commandByDevice
    combinedEffectiveCommandLevel := clamp01 (largest evaluation.effectiveByDevice)
    combinedCommandLevel := clamp01 (largest evaluation.commandByDevice) }

def SourceState.evaluateEffects (s : SourceState) (now : ℚ) : SourceState :=
  let levels := (s.effects.values.foldl (Evaluation.add sine s.devices now) {}).result
  { s with
    effects := s.effects.map fun _ effect => evaluateEffect s.devices now effect
    unobservedTriggerEffectCount := s.effects.values.countP EffectState.hasUnobservableTrigger
    levels := levels
    peakCommandLevel := max s.peakCommandLevel levels.commandLevel
    peakCombinedCommandLevel := max s.peakCombinedCommandLevel levels.combinedCommandLevel
    peakUnclampedCombinedCommandLevel :=
      max s.peakUnclampedCombinedCommandLevel levels.unclampedCombinedCommandLevel }

end Evaluate

section Hysteresis

def Sampling.elapse (sampling : Sampling) (now : ℚ) : Sampling :=
  let delta := now - sampling.lastTickMilliseconds
  if 0 < delta then
    { sampling with
      history := sampling.history ++ [⟨sampling.lastTickMilliseconds, now, sampling.lastAtLimit⟩]
      continuousLimitMilliseconds :=
        if sampling.lastAtLimit then sampling.continuousLimitMilliseconds + delta else 0
      continuousBelowExitMilliseconds :=
        if sampling.lastBelowExit then sampling.continuousBelowExitMilliseconds + delta else 0 }
  else sampling

def Sampling.advance (sampling : Sampling) (now : ℚ) (settings : NormalizedSettings)
    (currentAtLimit currentBelowExit : Bool) : Sampling :=
  if sampling.lastTickMilliseconds < 0 ∨ now < sampling.lastTickMilliseconds ∨
      max 250 (settings.ratioWindowMilliseconds : ℚ) < now - sampling.lastTickMilliseconds then
    { lastTickMilliseconds := now, lastAtLimit := currentAtLimit, lastBelowExit := currentBelowExit }
  else
    let elapsed := sampling.elapse now
    { elapsed with
      continuousLimitMilliseconds :=
        if currentAtLimit ≠ sampling.lastAtLimit ∧ currentAtLimit then 0
        else elapsed.continuousLimitMilliseconds
      continuousBelowExitMilliseconds :=
        if currentBelowExit ≠ sampling.lastBelowExit ∧ currentBelowExit then 0
        else elapsed.continuousBelowExitMilliseconds
      lastTickMilliseconds := now
      lastAtLimit := currentAtLimit
      lastBelowExit := currentBelowExit }

def clippedMilliseconds (cutoff : ℚ) (history : List ClipInterval) : ℚ :=
  (history.map fun interval =>
    if interval.clipped then max 0 (interval.finish - max interval.start cutoff) else 0).sum

/-- `CalculateRatio`: the ratio and the history without the intervals before the window. -/
def calculateRatio (now : ℚ) (windowMilliseconds : Int) (history : List ClipInterval) :
    ℚ × List ClipInterval :=
  let cutoff := now - windowMilliseconds
  let history := history.dropWhile fun interval => interval.finish ≤ cutoff
  (clamp01 (clippedMilliseconds cutoff history / windowMilliseconds), history)

namespace SourceState

variable (s : SourceState) (now : ℚ) (settings : NormalizedSettings)

/-- The tick of a source whose estimate is not reliable. -/
def suspend : Option DetectorTransitionKind × SourceState :=
  (if s.isClipping then some .clippingEnded else none,
    { s with
      isClipping := false
      atLimit := false
      clipRatio := 0
      sampling := { lastTickMilliseconds := now } })

/-- The tick of a reliable source after its levels have been evaluated. -/
def detect : Option DetectorTransitionKind × SourceState :=
  let currentAtLimit := settings.entryThresholdPercent / 100 ≤ s.levels.combinedCommandLevel
  let currentBelowExit := s.levels.combinedCommandLevel < settings.exitThresholdPercent / 100
  let sampling := s.sampling.advance now settings currentAtLimit currentBelowExit
  let ratio := calculateRatio now settings.ratioWindowMilliseconds sampling.history
  let sampled := { s with
    atLimit := currentAtLimit
    clipRatio := ratio.1
    sampling := { sampling with history := ratio.2 } }
  if !s.isClipping && (settings.continuousLimitMilliseconds ≤ sampling.continuousLimitMilliseconds ||
      settings.ratioTriggerPercent / 100 ≤ ratio.1) then
    (some .clippingStarted, { sampled with isClipping := true })
  else if s.isClipping && currentBelowExit &&
      settings.exitHoldMilliseconds ≤ sampling.continuousBelowExitMilliseconds then
    (some .clippingEnded,
      { sampled with
        isClipping := false
        clipRatio := 0
        sampling := { sampling with history := [], continuousLimitMilliseconds := 0 } })
  else (none, sampled)

def tick (sine : Sine) : Option DetectorTransitionKind × SourceState :=
  let evaluated := s.evaluateEffects sine now
  if evaluated.estimateReliable then evaluated.detect now settings else evaluated.suspend now

/-- Behind the evaluation a tick changes only what the hysteresis keeps. -/
theorem tick_evaluates (sine : Sine) : ∃ isClipping atLimit clipRatio sampling,
    (s.tick now settings sine).2 = { s.evaluateEffects sine now with
      isClipping := isClipping, atLimit := atLimit, clipRatio := clipRatio, sampling := sampling } := by
  unfold tick
  simp only
  split
  · unfold detect
    simp only
    split
    · exact ⟨_, _, _, _, rfl⟩
    · split
      · exact ⟨_, _, _, _, rfl⟩
      · exact ⟨_, _, _, _, rfl⟩
  · exact ⟨_, _, _, _, rfl⟩

end SourceState

end Hysteresis

end FfbInterceptor.Engine
