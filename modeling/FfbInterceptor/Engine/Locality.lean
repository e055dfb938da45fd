import FfbInterceptor.Engine.Capacity

/-! A frame acts on the device it names, and most frames on one effect of it alone. -/
namespace FfbInterceptor.Engine
open FfbInterceptor.Library FfbInterceptor.Protocol FfbInterceptor.Server

/-- The frame is about one effect: it is neither a device's own nor a solo start. -/
def ActsOnOneEffect (frame : ProtocolFrame) : Prop :=
  match frame.messageType with
  | .effectCreated | .effectParametersChanged => True
  | .effectCommand => frame.effectCommand = some .start → hasFlags frame.flags DiesSolo = false
  | _ => False

section Frames
variable {s : SourceState} {frame : ProtocolFrame}

/-- To the effects of other devices a frame means nothing. -/
theorem happening_of_other_device (hnotice : frame.messageType ≠ .dropNotice) {key : EffectKey}
    (hother : key.deviceId ≠ frame.deviceId) : s.happening key frame = .nothing := by
  have hdevice : frame.deviceId ≠ key.deviceId := Ne.symm hother
  have hkey : frameKey frame ≠ key := fun h => hdevice (congrArg EffectKey.deviceId h)
  have hmeaning : frameHappening key frame = .nothing := by
    unfold frameHappening
    cases frame.messageType with
    | hello | dropNotice | deviceCreated => rfl
    | devicePropertyChanged => exact if_neg fun h => hdevice h.2
    | effectCreated | effectParametersChanged => exact if_neg fun h => hkey h.2
    | effectCommand => exact (if_neg hkey).trans (if_neg fun h => hdevice h.2.2)
    | deviceCommand => exact if_neg hdevice
  unfold SourceState.happening SourceState.happens
  rw [if_neg hnotice, hmeaning, ite_self, ite_self]

theorem happening_of_other_effect (hone : ActsOnOneEffect frame) {key : EffectKey}
    (hother : key ≠ frameKey frame) : s.happening key frame = .nothing := by
  have hkey : frameKey frame ≠ key := Ne.symm hother
  have hmeaning : frameHappening key frame = .nothing ∧ frame.messageType ≠ .dropNotice := by
    unfold ActsOnOneEffect at hone
    unfold frameHappening
    cases htype : frame.messageType with
    | hello | dropNotice | deviceCreated | devicePropertyChanged | deviceCommand =>
      rw [htype] at hone
      exact hone.elim
    | effectCreated | effectParametersChanged => exact ⟨if_neg fun h => hkey h.2, nofun⟩
    | effectCommand =>
      rw [htype] at hone
      refine ⟨?_, nofun⟩
      have hsolo : ¬ (frame.effectCommand = some .start ∧ hasFlags frame.flags DiesSolo = true ∧
          frame.deviceId = key.deviceId) := by
        intro hstopped
        have hplain := hone hstopped.1
        rw [hstopped.2.1] at hplain
        cases hplain
      exact (if_neg hkey).trans (if_neg hsolo)
  unfold SourceState.happening SourceState.happens
  rw [if_neg hmeaning.2, hmeaning.1, ite_self, ite_self]

theorem slot_of_nothing (hfiled : FiledEffects s.effects) {key : EffectKey}
    (hnothing : s.happening key frame = .nothing) (now : ℚ) :
    (s.apply frame now).effects.find? key = s.effects.find? key ∧
      (s.apply frame now).deviceOf key.deviceId = s.deviceOf key.deviceId := by
  have hslot := slot_apply frame now hfiled key
  rw [hnothing] at hslot
  exact ⟨congrArg Slot.effect hslot, congrArg Slot.device hslot⟩

theorem devices_apply_of_ne (hfiled : FiledEffects s.effects) (hnotice : frame.messageType ≠ .dropNotice)
    {deviceId : UInt32} (hother : deviceId ≠ frame.deviceId) (now : ℚ) :
    (s.apply frame now).devices.find? deviceId = s.devices.find? deviceId := by
  cases hrefuses : s.refuses frame with
  | true => rw [(refused_apply hrefuses now).devices]
  | false =>
    have howner : ∀ effect, s.effects.find? (frameKey frame) = some effect →
        effect.deviceId = frame.deviceId := fun effect heffect =>
      congrArg EffectKey.deviceId (hfiled (frameKey frame) effect heffect)
    have htracked := (tables_applyUnlimited frame now hnotice deviceId howner).1
    rw [← apply_of_room hrefuses, decide_eq_false hother, Bool.and_false, Bool.false_or] at htracked
    have hnothing : s.happening ⟨deviceId, 0⟩ frame = .nothing := happening_of_other_device hnotice hother
    have hdevice := (slot_of_nothing hfiled hnothing now).2
    simp only [SourceState.deviceOf] at hdevice
    simp only [Dictionary.contains] at htracked
    cases hbefore : s.devices.find? deviceId with
    | none =>
      rw [hbefore, Option.isSome_none, Option.isSome_eq_false_iff, Option.isNone_iff_eq_none] at htracked
      exact htracked
    | some device =>
      rw [hbefore, Option.isSome_some, Option.isSome_iff_exists] at htracked
      obtain ⟨after, hafter⟩ := htracked
      rw [hbefore, hafter, Option.getD_some, Option.getD_some] at hdevice
      rw [hafter, hdevice]

end Frames

/-- In every state a source can reach, a frame that is no notice of drops leaves the effects and the
records of other devices as they are, and a frame about one effect leaves all other effects so. -/
theorem frame_acts_on_own_device {sine : Sine} {settings : DetectorSettings} (calls : List Call)
    {key : SourceKey} {s : SourceState}
    (hreached : (ClippingEngine.after sine settings calls).sources.find? key = some s)
    {frame : ProtocolFrame} (hnotice : frame.messageType ≠ .dropNotice) (now : ℚ) :
    (∀ effectKey, effectKey.deviceId ≠ frame.deviceId →
      (s.apply frame now).effects.find? effectKey = s.effects.find? effectKey) ∧
    (∀ deviceId, deviceId ≠ frame.deviceId →
      (s.apply frame now).devices.find? deviceId = s.devices.find? deviceId) ∧
    (ActsOnOneEffect frame → ∀ effectKey, effectKey ≠ frameKey frame →
      (s.apply frame now).effects.find? effectKey = s.effects.find? effectKey) ∧
    FiledEffects s.effects ∧ FiledEffects (s.apply frame now).effects := by
  have hfiled : FiledEffects s.effects := ((withinLimits_after calls).sources key s hreached).filed
  refine ⟨fun effectKey hother => ?_, fun deviceId hother => ?_, fun hone effectKey hother => ?_, hfiled, ?_⟩
  · exact (slot_of_nothing hfiled (happening_of_other_device hnotice hother) now).1
  · exact devices_apply_of_ne hfiled hnotice hother now
  · exact (slot_of_nothing hfiled (happening_of_other_effect hone hother) now).1
  · exact filed_apply hfiled frame now

def oneEffect : List Call :=
  let identity : SourceIdentity := ⟨⟨1, ""⟩, "", "", 64⟩
  [.connect identity 1 0,
    .processFrame identity.key
      { messageType := .effectCreated, flags := 0, effectParameterPresence := .absent, processId := 1,
        deviceId := 7, effectId := 1 } 1,
    .processFrame identity.key
      { messageType := .effectCommand, flags := 0, effectParameterPresence := .unknown, processId := 1,
        deviceId := 7, effectId := 1, effectCommand := some .start } 2]

def stopAllOf8 : ProtocolFrame :=
  { messageType := .deviceCommand, flags := 0, effectParameterPresence := .unknown,
    deviceId := 8, diFlags := DisffcStopAll }

/-- `StopAll` of device 8 leaves it playing. -/
theorem other_device_plays_on :
    ∃ s, (ClippingEngine.after flat {} oneEffect).sources.find? ⟨1, ""⟩ = some s ∧
      (s.effects.find? ⟨7, 1⟩).any EffectState.active = true ∧
      (s.apply stopAllOf8 3).effects.find? ⟨7, 1⟩ = s.effects.find? ⟨7, 1⟩ := by
  have hplays : ((ClippingEngine.after flat {} oneEffect).sources.find? ⟨1, ""⟩).any (fun s =>
      (s.effects.find? ⟨7, 1⟩).any EffectState.active) = true := by decide +kernel
  cases hs : (ClippingEngine.after flat {} oneEffect).sources.find? ⟨1, ""⟩ with
  | none =>
    rw [hs] at hplays
    cases hplays
  | some s =>
    rw [hs] at hplays
    have hnotice : stopAllOf8.messageType ≠ .dropNotice := nofun
    exact ⟨s, rfl, hplays, (frame_acts_on_own_device oneEffect hs hnotice 3).1 ⟨7, 1⟩ (by decide)⟩

end FfbInterceptor.Engine
