import FfbInterceptor.Engine.Source

/-! The tables of devices and effects of a source: what a full table refuses, and which entries a
frame leaves behind. -/
namespace FfbInterceptor.Engine
open FfbInterceptor.Library FfbInterceptor.Protocol FfbInterceptor.Server

section Refusals

namespace SourceState

variable (s : SourceState)

def lacksDevice (deviceId : UInt32) : Bool :=
  !s.devices.contains deviceId && MaximumDevices ≤ s.devices.count

def lacksEffect (key : EffectKey) : Bool :=
  !s.effects.contains key && MaximumEffects ≤ s.effects.count

def refuses (frame : ProtocolFrame) : Bool :=
  match frame.messageType with
  | .hello | .dropNotice => false
  | .deviceCreated | .deviceCommand => 0 ≤ frame.hresult && s.lacksDevice frame.deviceId
  | .devicePropertyChanged =>
    0 ≤ frame.hresult && frame.propertyId = 1 && s.lacksDevice frame.deviceId
  | .effectCreated =>
    0 ≤ frame.hresult && frame.effectId ≠ 0 &&
      (s.lacksEffect (frameKey frame) || s.lacksDevice frame.deviceId)
  | .effectParametersChanged =>
    0 ≤ frame.hresult && frame.effectId ≠ 0 &&
      (s.lacksEffect (frameKey frame) ||
        s.lacksDevice (((s.effects.find? (frameKey frame)).map EffectState.deviceId).getD frame.deviceId))
  | .effectCommand =>
    0 ≤ frame.hresult && frame.effectCommand = some .start && !s.effects.contains (frameKey frame) &&
      (s.lacksEffect (frameKey frame) || s.lacksDevice frame.deviceId)

structure Refused (refused : SourceState) : Prop where
  flag : refused.persistentReliabilityIssues.stateCapacityExceeded = true
  effects : refused.effects = s.effects
  devices : refused.devices = s.devices
  droppedFrames : refused.droppedFrames = s.droppedFrames

end SourceState

variable {s : SourceState}

theorem refused_recordDeviceStateDrop (t : SourceState) : t.Refused t.recordDeviceStateDrop :=
  ⟨by simp [SourceState.recordDeviceStateDrop, DetectorReliabilityIssue.union], rfl, rfl, rfl⟩

theorem refused_recordEffectStateDrop (t : SourceState) : t.Refused t.recordEffectStateDrop :=
  ⟨by simp [SourceState.recordEffectStateDrop, DetectorReliabilityIssue.union], rfl, rfl, rfl⟩

theorem SourceState.Refused.recordEffectStateDrop {t : SourceState} (h : s.Refused t) :
    s.Refused t.recordEffectStateDrop :=
  ⟨(refused_recordEffectStateDrop t).flag, h.effects, h.devices, h.droppedFrames⟩

theorem getOrCreateDevice_of_lacks {deviceId : UInt32} (h : s.lacksDevice deviceId = true) :
    s.getOrCreateDevice deviceId = (none, s.recordDeviceStateDrop) := by
  simp only [SourceState.lacksDevice, Dictionary.contains, Bool.and_eq_true, Bool.not_eq_true',
    Option.isSome_eq_false_iff, Option.isNone_iff_eq_none, decide_eq_true_eq] at h
  simp only [SourceState.getOrCreateDevice, h.1, h.2, ↓reduceIte]

theorem getOrCreateEffect_of_lacks {key : EffectKey} (kind : EffectKind)
    (heffect : s.effects.contains key = false)
    (h : (s.lacksEffect key || s.lacksDevice key.deviceId) = true) :
    ∃ refused, s.getOrCreateEffect key kind = .error refused ∧ s.Refused refused := by
  have hnone : s.effects.find? key = none := by
    rw [Dictionary.contains] at heffect
    simpa using heffect
  by_cases hcount : MaximumEffects ≤ s.effects.count
  · refine ⟨s.recordEffectStateDrop, ?_, ?_⟩
    · simp only [SourceState.getOrCreateEffect, hnone, hcount, ↓reduceIte]
    · exact refused_recordEffectStateDrop s
  · have hdevice : s.lacksDevice key.deviceId = true := by
      simpa [SourceState.lacksEffect, hcount] using h
    refine ⟨s.recordDeviceStateDrop.recordEffectStateDrop, ?_, ?_⟩
    · simp only [SourceState.getOrCreateEffect, hnone, hcount, ↓reduceIte,
        getOrCreateDevice_of_lacks hdevice]
    · exact (refused_recordDeviceStateDrop s).recordEffectStateDrop

/-- Every refusal leaves its flag and nothing else. -/
theorem refused_apply {frame : ProtocolFrame} (h : s.refuses frame = true) (now : ℚ) :
    s.Refused (s.apply frame now) := by
  have hsucceeded : 0 ≤ frame.hresult → ¬ frame.hresult < 0 := Int32.not_lt.mpr
  cases htype : frame.messageType with
  | hello | dropNotice =>
    simp only [SourceState.refuses, htype] at h
    cases h
  | deviceCreated =>
    simp only [SourceState.refuses, htype, Bool.and_eq_true, decide_eq_true_eq] at h
    simp only [SourceState.apply, hsucceeded h.1, htype, reduceCtorEq, false_and, ↓reduceIte,
      getOrCreateDevice_of_lacks h.2]
    exact refused_recordDeviceStateDrop s
  | deviceCommand =>
    simp only [SourceState.refuses, htype, Bool.and_eq_true, decide_eq_true_eq] at h
    simp only [SourceState.apply, hsucceeded h.1, htype, reduceCtorEq, false_and, ↓reduceIte,
      SourceState.applyDeviceCommand, getOrCreateDevice_of_lacks h.2]
    exact refused_recordDeviceStateDrop s
  | devicePropertyChanged =>
    simp only [SourceState.refuses, htype, Bool.and_eq_true, decide_eq_true_eq] at h
    simp only [SourceState.apply, hsucceeded h.1.1, htype, reduceCtorEq, false_and, ↓reduceIte,
      SourceState.applyDeviceProperty, h.1.2, getOrCreateDevice_of_lacks h.2]
    exact refused_recordDeviceStateDrop s
  | effectCreated =>
    simp only [SourceState.refuses, htype, Bool.and_eq_true, decide_eq_true_eq] at h
    simp only [SourceState.apply, hsucceeded h.1.1, htype, reduceCtorEq, false_and, ↓reduceIte,
      SourceState.applyEffectCreated, h.1.2]
    split
    · exact refused_recordEffectStateDrop s
    · rename_i heffect
      have hdevice : s.lacksDevice frame.deviceId = true := by
        cases Bool.or_eq_true _ _ |>.mp h.2 with
        | inl hlacks => exact absurd hlacks heffect
        | inr hlacks => exact hlacks
      simp only [getOrCreateDevice_of_lacks hdevice]
      exact (refused_recordDeviceStateDrop s).recordEffectStateDrop
  | effectParametersChanged =>
    simp only [SourceState.refuses, htype, Bool.and_eq_true, decide_eq_true_eq] at h
    simp only [SourceState.apply, hsucceeded h.1.1, htype, reduceCtorEq, false_and, ↓reduceIte,
      SourceState.applyEffectParameters, h.1.2]
    cases hfind : s.effects.find? (frameKey frame) with
    | none =>
      have heffect : s.effects.contains (frameKey frame) = false := by
        simp [Dictionary.contains, hfind]
      rw [hfind] at h
      obtain ⟨refused, hrefused, hkept⟩ := getOrCreateEffect_of_lacks .unknown heffect h.2
      simp only [hrefused]
      exact hkept
    | some effect =>
      have hdevice : s.lacksDevice effect.deviceId = true := by
        have heffect : s.lacksEffect (frameKey frame) = false := by
          simp [SourceState.lacksEffect, Dictionary.contains, hfind]
        simpa [hfind, heffect] using h.2
      simp only [SourceState.getOrCreateEffect, hfind, getOrCreateDevice_of_lacks hdevice]
      exact refused_recordDeviceStateDrop s
  | effectCommand =>
    simp only [SourceState.refuses, htype, Bool.and_eq_true, decide_eq_true_eq, Bool.not_eq_true'] at h
    obtain ⟨refused, hrefused, hkept⟩ := getOrCreateEffect_of_lacks frame.effectKind h.1.2 h.2
    simp only [SourceState.apply, hsucceeded h.1.1.1, htype, reduceCtorEq, false_and, ↓reduceIte,
      SourceState.applyEffectCommand, h.1.1.2, ne_eq, not_true_eq_false, decide_false, Bool.and_false,
      Bool.false_eq_true, hrefused]
    exact hkept

end Refusals

section Unlimited

namespace SourceState

variable (s : SourceState) (frame : ProtocolFrame) (now : ℚ)

/-- What a source knows of a device, the defaults before the first frame about it. -/
def deviceOf (deviceId : UInt32) : DeviceState := (s.devices.find? deviceId).getD {}

def effectOf (key : EffectKey) (kind : EffectKind) : EffectState :=
  (s.effects.find? key).getD { deviceId := key.deviceId, effectId := key.effectId, kind := kind }

def withDevice (deviceId : UInt32) : SourceState :=
  if s.devices.contains deviceId then s
  else { s with devices := s.devices.set deviceId {} }

def withEffect (key : EffectKey) (kind : EffectKind) : SourceState :=
  if s.effects.contains key then s
  else { s.withDevice key.deviceId with effects := s.effects.set key (s.effectOf key kind) }

def unlimitedCreated : SourceState :=
  if frame.effectId = 0 then s
  else
    { s.withDevice frame.deviceId with
      effects := s.effects.set (frameKey frame) (createdEffect frame)
      lastEffectKind := frame.effectKind }

def unlimitedParameters : SourceState :=
  if frame.effectId = 0 then s
  else
    let effect := s.effectOf (frameKey frame) .unknown
    let s := s.withEffect (frameKey frame) .unknown
    let device := s.deviceOf effect.deviceId
    let s := s.withDevice effect.deviceId
    let current := if effect.active && !device.paused then effect.expireIfFinished now else effect
    let updated := current.update frame now
    { s with effects := s.effects.set (frameKey frame) updated, lastEffectKind := updated.kind }

def unlimitedCommand : SourceState :=
  if !s.effects.contains (frameKey frame) && frame.effectCommand ≠ some .start then s
  else
    let effect := (s.effectOf (frameKey frame) frame.effectKind).withKind frame.effectKind
    let s := { s.withEffect (frameKey frame) frame.effectKind with lastEffectKind := effect.kind }
    match frame.effectCommand with
    | some .start =>
      let s := if hasFlags frame.flags DiesSolo then s.stopOthers (frameKey frame) else s
      { s with effects := s.effects.set (frameKey frame) (effect.begin now frame.iterations) }
    | some .stop | some .unload => { s with effects := s.effects.set (frameKey frame) effect.stop }
    | some .release => { s with effects := s.effects.remove (frameKey frame) }
    | some .download | none => { s with effects := s.effects.set (frameKey frame) effect }

def unlimitedDeviceCommand (deviceId command : UInt32) : SourceState :=
  let p := Playback.command ⟨s.deviceOf deviceId, s.effects⟩ deviceId command now
  { s.withDevice deviceId with
    effects := p.effects
    devices := (s.withDevice deviceId).devices.set deviceId p.device }

def unlimitedProperty : SourceState :=
  if frame.propertyId = 1 then
    { s.withDevice frame.deviceId with
      devices := (s.withDevice frame.deviceId).devices.set frame.deviceId
        { s.deviceOf frame.deviceId with gain := normalizeUnsigned frame.gain } }
  else s

def applyUnlimited : SourceState :=
  if frame.messageType = .dropNotice then s.applyDropNotice frame now
  else if frame.hresult < 0 ∧ frame.messageType ≠ .hello then s
  else match frame.messageType with
    | .deviceCreated => s.withDevice frame.deviceId
    | .devicePropertyChanged => s.unlimitedProperty frame
    | .effectCreated => s.unlimitedCreated frame
    | .effectParametersChanged => s.unlimitedParameters frame now
    | .effectCommand => s.unlimitedCommand frame now
    | .deviceCommand => s.unlimitedDeviceCommand now frame.deviceId frame.diFlags
    | .hello | .dropNotice => s

end SourceState

variable {s : SourceState}

@[simp] theorem effects_withDevice (deviceId : UInt32) : (s.withDevice deviceId).effects = s.effects := by
  unfold SourceState.withDevice
  split <;> rfl

theorem getOrCreateDevice_of_room {deviceId : UInt32} (h : s.lacksDevice deviceId = false) :
    s.getOrCreateDevice deviceId = (some (s.deviceOf deviceId), s.withDevice deviceId) := by
  unfold SourceState.getOrCreateDevice SourceState.withDevice SourceState.deviceOf
  cases hfind : s.devices.find? deviceId with
  | some device => simp [Dictionary.contains, hfind]
  | none =>
    have hroom : ¬ MaximumDevices ≤ s.devices.count := by
      simpa [SourceState.lacksDevice, Dictionary.contains, hfind] using h
    simp [Dictionary.contains, hfind, hroom]

theorem lacksDevice_withDevice (deviceId : UInt32) :
    (s.withDevice deviceId).lacksDevice deviceId = false := by
  unfold SourceState.withDevice
  split
  · rename_i h
    simp [SourceState.lacksDevice, h]
  · simp [SourceState.lacksDevice, Dictionary.contains, Dictionary.find?_set_self]

theorem getOrCreateEffect_of_room {key : EffectKey} (kind : EffectKind)
    (heffect : s.lacksEffect key = false)
    (hdevice : s.effects.contains key = true ∨ s.lacksDevice key.deviceId = false) :
    s.getOrCreateEffect key kind = .ok (s.effectOf key kind, s.withEffect key kind) := by
  unfold SourceState.getOrCreateEffect SourceState.withEffect SourceState.effectOf
  cases hfind : s.effects.find? key with
  | some effect => simp [Dictionary.contains, hfind]
  | none =>
    have huntracked : s.effects.contains key = false := by simp [Dictionary.contains, hfind]
    have hroom : ¬ MaximumEffects ≤ s.effects.count := by
      simpa [SourceState.lacksEffect, huntracked] using heffect
    have hready := getOrCreateDevice_of_room (hdevice.resolve_left (by simp [huntracked]))
    simp only [hroom, ↓reduceIte, hready, huntracked, Bool.false_eq_true, effects_withDevice,
      Option.getD_none]

/-- A frame that is not refused acts as it would without limits. -/
theorem apply_of_room {frame : ProtocolFrame} (h : s.refuses frame = false) (now : ℚ) :
    s.apply frame now = s.applyUnlimited frame now := by
  unfold SourceState.apply SourceState.applyUnlimited
  by_cases hdrop : frame.messageType = .dropNotice
  · rw [if_pos hdrop, if_pos hdrop]
  rw [if_neg hdrop, if_neg hdrop]
  by_cases hfailed : frame.hresult < 0 ∧ frame.messageType ≠ .hello
  · rw [if_pos hfailed, if_pos hfailed]
  rw [if_neg hfailed, if_neg hfailed]
  cases htype : frame.messageType with
  | hello | dropNotice => rfl
  | deviceCreated =>
    have hsucceeded : 0 ≤ frame.hresult := by simpa [htype] using hfailed
    have hroom : s.lacksDevice frame.deviceId = false := by
      simpa [SourceState.refuses, htype, hsucceeded] using h
    simp only [getOrCreateDevice_of_room hroom]
  | devicePropertyChanged =>
    have hsucceeded : 0 ≤ frame.hresult := by simpa [htype] using hfailed
    simp only [SourceState.applyDeviceProperty, SourceState.unlimitedProperty]
    split
    · rename_i hproperty
      have hroom : s.lacksDevice frame.deviceId = false := by
        simpa [SourceState.refuses, htype, hsucceeded, hproperty] using h
      simp only [getOrCreateDevice_of_room hroom]
    · rfl
  | deviceCommand =>
    have hsucceeded : 0 ≤ frame.hresult := by simpa [htype] using hfailed
    have hroom : s.lacksDevice frame.deviceId = false := by
      simpa [SourceState.refuses, htype, hsucceeded] using h
    simp only [SourceState.applyDeviceCommand, getOrCreateDevice_of_room hroom,
      SourceState.unlimitedDeviceCommand, effects_withDevice]
  | effectCreated =>
    have hsucceeded : 0 ≤ frame.hresult := by simpa [htype] using hfailed
    simp only [SourceState.applyEffectCreated, SourceState.unlimitedCreated]
    split
    · rfl
    · rename_i hid
      have hroom : s.lacksEffect (frameKey frame) = false ∧ s.lacksDevice frame.deviceId = false := by
        simpa [SourceState.refuses, htype, hsucceeded, hid] using h
      have hfull : (!s.effects.contains (frameKey frame) &&
          decide (MaximumEffects ≤ s.effects.count)) = false := hroom.1
      simp only [hfull, Bool.false_eq_true, ↓reduceIte, getOrCreateDevice_of_room hroom.2, effects_withDevice]
  | effectParametersChanged =>
    have hsucceeded : 0 ≤ frame.hresult := by simpa [htype] using hfailed
    simp only [SourceState.applyEffectParameters, SourceState.unlimitedParameters]
    split
    · rfl
    · rename_i hid
      have hroom : s.lacksEffect (frameKey frame) = false ∧ s.lacksDevice
          (((s.effects.find? (frameKey frame)).map EffectState.deviceId).getD frame.deviceId) =
            false := by
        simpa [SourceState.refuses, htype, hsucceeded, hid] using h
      have hdevice : (s.withEffect (frameKey frame) .unknown).lacksDevice
          (s.effectOf (frameKey frame) .unknown).deviceId = false := by
        cases hfind : s.effects.find? (frameKey frame) with
        | some effect =>
          simpa [SourceState.withEffect, SourceState.effectOf, Dictionary.contains, hfind] using hroom.2
        | none =>
          simp only [SourceState.withEffect, SourceState.effectOf, Dictionary.contains, hfind,
            Option.isSome_none, Bool.false_eq_true, ↓reduceIte, Option.getD_none]
          exact lacksDevice_withDevice frame.deviceId
      have htracked : s.effects.contains (frameKey frame) = true ∨
          s.lacksDevice (frameKey frame).deviceId = false := by
        cases hfind : s.effects.find? (frameKey frame) with
        | some effect => exact Or.inl (by simp [Dictionary.contains, hfind])
        | none =>
          simp only [hfind, Option.map_none, Option.getD_none] at hroom
          exact Or.inr hroom.2
      simp only [getOrCreateEffect_of_room .unknown hroom.1 htracked, getOrCreateDevice_of_room hdevice]
  | effectCommand =>
    have hsucceeded : 0 ≤ frame.hresult := by simpa [htype] using hfailed
    simp only [SourceState.applyEffectCommand, SourceState.unlimitedCommand]
    split
    · rfl
    · rename_i hcommand
      have hroom : s.lacksEffect (frameKey frame) = false ∧
          (s.effects.contains (frameKey frame) = true ∨
            s.lacksDevice (frameKey frame).deviceId = false) := by
        cases htracked : s.effects.contains (frameKey frame) with
        | true => exact ⟨by simp [SourceState.lacksEffect, htracked], Or.inl rfl⟩
        | false =>
          have hstart : frame.effectCommand = some .start := by simpa [htracked] using hcommand
          have hlacks : s.lacksEffect (frameKey frame) = false ∧
              s.lacksDevice frame.deviceId = false := by
            simpa [SourceState.refuses, htype, hsucceeded, hstart, htracked] using h
          exact ⟨hlacks.1, Or.inr hlacks.2⟩
      have hget := getOrCreateEffect_of_room frame.effectKind hroom.1 hroom.2
      cases frame.effectCommand with
      | none => simp only [hget]
      | some command =>
        cases command with
        | download | start | stop | unload | release => simp only [hget]

end Unlimited

section Contents

def SourceState.admits (s : SourceState) (frame : ProtocolFrame) : Bool :=
  match frame.messageType with
  | .hello | .dropNotice => false
  | .deviceCreated | .deviceCommand => true
  | .devicePropertyChanged => frame.propertyId = 1
  | .effectCreated | .effectParametersChanged => frame.effectId ≠ 0
  | .effectCommand => frame.effectCommand = some .start && !s.effects.contains (frameKey frame)

variable {s : SourceState} (frame : ProtocolFrame) (now : ℚ)

theorem contains_withDevice (deviceId other : UInt32) :
    (s.withDevice deviceId).devices.contains other =
      (decide (other = deviceId) || s.devices.contains other) := by
  unfold SourceState.withDevice
  split
  · rename_i h
    by_cases hsame : other = deviceId
    · simp [hsame, h]
    · simp [hsame]
  · exact Dictionary.contains_set _ _ _ _

theorem contains_withEffect (key : EffectKey) (kind : EffectKind) (other : UInt32) :
    (s.withEffect key kind).devices.contains other =
      ((!s.effects.contains key && decide (other = key.deviceId)) || s.devices.contains other) := by
  unfold SourceState.withEffect
  cases htracked : s.effects.contains key with
  | true => rfl
  | false => exact contains_withDevice key.deviceId other

theorem droppedFrames_withDevice (deviceId : UInt32) :
    (s.withDevice deviceId).droppedFrames = s.droppedFrames := by
  unfold SourceState.withDevice
  split <;> rfl

theorem droppedFrames_withEffect (key : EffectKey) (kind : EffectKind) :
    (s.withEffect key kind).droppedFrames = s.droppedFrames := by
  unfold SourceState.withEffect
  split
  · rfl
  · exact droppedFrames_withDevice key.deviceId

theorem tables_unlimitedCommand (other : UInt32) :
    (s.unlimitedCommand frame now).devices.contains other =
        ((frame.effectCommand = some .start && !s.effects.contains (frameKey frame) &&
          decide (other = frame.deviceId)) || s.devices.contains other) ∧
      (s.unlimitedCommand frame now).droppedFrames = s.droppedFrames := by
  unfold SourceState.unlimitedCommand
  cases htracked : s.effects.contains (frameKey frame) with
  | true =>
    have hsame : s.withEffect (frameKey frame) frame.effectKind = s := by
      rw [SourceState.withEffect, htracked, if_pos rfl]
    simp only [Bool.not_true, Bool.false_and, Bool.false_eq_true, ↓reduceIte, hsame, Bool.and_false,
      Bool.false_or]
    split
    · split <;> exact ⟨rfl, rfl⟩
    · exact ⟨rfl, rfl⟩
    · exact ⟨rfl, rfl⟩
    · exact ⟨rfl, rfl⟩
    · exact ⟨rfl, rfl⟩
    · exact ⟨rfl, rfl⟩
  | false =>
    by_cases hstart : frame.effectCommand = some .start
    · have hdevices := contains_withEffect (s := s) (frameKey frame) frame.effectKind other
      have hdropped := droppedFrames_withEffect (s := s) (frameKey frame) frame.effectKind
      rw [htracked] at hdevices
      simp only [hstart, ne_eq, not_true_eq_false, decide_false, Bool.and_false, Bool.false_eq_true,
        ↓reduceIte, decide_true, Bool.not_false, Bool.true_and]
      split <;> exact ⟨hdevices, hdropped⟩
    · simp [hstart]

theorem tables_applyUnlimited (hdrop : frame.messageType ≠ .dropNotice) (other : UInt32)
    (howner : ∀ effect, s.effects.find? (frameKey frame) = some effect →
      effect.deviceId = frame.deviceId) :
    (s.applyUnlimited frame now).devices.contains other =
        ((decide (¬ (frame.hresult < 0 ∧ frame.messageType ≠ .hello)) && s.admits frame &&
          decide (other = frame.deviceId)) || s.devices.contains other) ∧
      (s.applyUnlimited frame now).droppedFrames = s.droppedFrames := by
  have hset : ∀ device, ((s.withDevice frame.deviceId).devices.set frame.deviceId device).contains other =
      (decide (other = frame.deviceId) || s.devices.contains other) := by
    intro device
    rw [Dictionary.contains_set, contains_withDevice, ← Bool.or_assoc, Bool.or_self]
  unfold SourceState.applyUnlimited
  rw [if_neg hdrop]
  by_cases hfailed : frame.hresult < 0 ∧ frame.messageType ≠ .hello
  · simp [hfailed]
  rw [if_neg hfailed, decide_eq_true hfailed, Bool.true_and]
  unfold SourceState.admits
  cases htype : frame.messageType with
  | hello | dropNotice => simp
  | deviceCreated =>
    simp only [Bool.true_and]
    exact ⟨contains_withDevice _ _, droppedFrames_withDevice _⟩
  | deviceCommand =>
    simp only [Bool.true_and]
    exact ⟨hset _, droppedFrames_withDevice _⟩
  | devicePropertyChanged =>
    simp only [SourceState.unlimitedProperty]
    by_cases hproperty : frame.propertyId = 1
    · simp only [hproperty, ↓reduceIte, decide_true, Bool.true_and]
      exact ⟨hset _, droppedFrames_withDevice _⟩
    · simp [hproperty]
  | effectCreated =>
    simp only [SourceState.unlimitedCreated]
    by_cases hid : frame.effectId = 0
    · simp [hid]
    · simp only [hid, ↓reduceIte, ne_eq, not_false_eq_true, decide_true, Bool.true_and]
      exact ⟨contains_withDevice _ _, droppedFrames_withDevice _⟩
  | effectParametersChanged =>
    simp only [SourceState.unlimitedParameters]
    by_cases hid : frame.effectId = 0
    · simp [hid]
    · have hdevice : (s.effectOf (frameKey frame) .unknown).deviceId = frame.deviceId := by
        unfold SourceState.effectOf
        cases hfind : s.effects.find? (frameKey frame) with
        | none => rfl
        | some effect => exact howner effect hfind
      simp only [hid, ↓reduceIte, ne_eq, not_false_eq_true, decide_true, Bool.true_and, hdevice]
      refine ⟨?_, (droppedFrames_withDevice _).trans (droppedFrames_withEffect _ _)⟩
      rw [contains_withDevice, contains_withEffect]
      by_cases hsame : other = frame.deviceId
      · simp [hsame]
      · simp [hsame, frameKey]
  | effectCommand => exact tables_unlimitedCommand frame now other

end Contents

end FfbInterceptor.Engine
