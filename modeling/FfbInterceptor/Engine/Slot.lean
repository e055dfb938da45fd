import FfbInterceptor.Engine.Schedule
import FfbInterceptor.Engine.Tables
import FfbInterceptor.Engine.Tick

/-! One effect and its device: the small machine that every frame and every tick of a source drives,
and the proof that the tables of the source move this way at every key. -/
namespace FfbInterceptor.Engine
open FfbInterceptor.Library FfbInterceptor.Protocol FfbInterceptor.Server

structure Slot where
  device : DeviceState := {}
  effect : Option EffectState := none

inductive Happening where
  | nothing
  | forgotten
  | gain (gain : ℚ)
  | created (effect : EffectState)
  | updated (frame : ProtocolFrame)
  | commanded (frame : ProtocolFrame)
  | stopped
  | device (command : UInt32)

namespace Slot

variable (slot : Slot)

def stopAll : Slot where
  device := { slot.device with paused := false }
  effect := slot.effect.map EffectState.stop

def reset : Slot :=
  { slot.stopAll with device := { slot.device with paused := false, actuatorsEnabled := false } }

def pause (now : ℚ) : Slot :=
  if slot.device.paused then slot
  else { slot with device := { slot.device with paused := true, pausedAtMilliseconds := now } }

def resume (now : ℚ) : Slot :=
  if slot.device.paused then
    { device := { slot.device with paused := false }
      effect := slot.effect.map fun effect =>
        effect.resumeAfterPause slot.device.pausedAtMilliseconds now }
  else slot

def setActuators (enabled : Bool) : Slot :=
  { slot with device := { slot.device with actuatorsEnabled := enabled } }

def command (command : UInt32) (now : ℚ) : Slot :=
  let slot := if hasFlags command DisffcReset then slot.reset else slot
  let slot := if hasFlags command DisffcStopAll then slot.stopAll else slot
  let slot := if hasFlags command DisffcPause then slot.pause now else slot
  let slot := if hasFlags command DisffcContinue then slot.resume now else slot
  let slot := if hasFlags command DisffcActuatorsOff then slot.setActuators false else slot
  if hasFlags command DisffcActuatorsOn then slot.setActuators true else slot

def effectOf (frame : ProtocolFrame) (kind : EffectKind) : EffectState :=
  slot.effect.getD { deviceId := frame.deviceId, effectId := frame.effectId, kind := kind }

def update (frame : ProtocolFrame) (now : ℚ) : Slot :=
  let effect := slot.effectOf frame .unknown
  let current := if effect.active && !slot.device.paused then effect.expireIfFinished now else effect
  { slot with effect := some (current.update frame now) }

def obey (frame : ProtocolFrame) (now : ℚ) : Slot :=
  match frame.effectCommand with
  | some .start =>
    { slot with
      effect := some (((slot.effectOf frame frame.effectKind).withKind frame.effectKind).begin now
        frame.iterations) }
  | some .stop | some .unload =>
    { slot with effect := slot.effect.map fun effect => (effect.withKind frame.effectKind).stop }
  | some .release => { slot with effect := none }
  | some .download | none =>
    { slot with effect := slot.effect.map fun effect => effect.withKind frame.effectKind }

def take (now : ℚ) : Happening → Slot
  | .nothing => slot
  | .forgotten => {}
  | .gain gain => { slot with device := { slot.device with gain := gain } }
  | .created effect => { slot with effect := some effect }
  | .updated frame => slot.update frame now
  | .commanded frame => slot.obey frame now
  | .stopped => { slot with effect := slot.effect.map EffectState.stop }
  | .device command => slot.command command now

/-- A tick looks at the effect unless its device is paused. -/
def look (now : ℚ) : Slot :=
  if slot.device.paused then slot
  else { slot with effect := slot.effect.map fun effect => (effect.isProducing now).2 }

end Slot

def frameHappening (key : EffectKey) (frame : ProtocolFrame) : Happening :=
  match frame.messageType with
  | .hello | .dropNotice | .deviceCreated => .nothing
  | .devicePropertyChanged =>
    if frame.propertyId = 1 ∧ frame.deviceId = key.deviceId then .gain (normalizeUnsigned frame.gain)
    else .nothing
  | .effectCreated =>
    if frame.effectId ≠ 0 ∧ frameKey frame = key then .created (createdEffect frame) else .nothing
  | .effectParametersChanged =>
    if frame.effectId ≠ 0 ∧ frameKey frame = key then .updated frame else .nothing
  | .effectCommand =>
    if frameKey frame = key then .commanded frame
    else if frame.effectCommand = some .start ∧ hasFlags frame.flags DiesSolo = true ∧
        frame.deviceId = key.deviceId then .stopped
    else .nothing
  | .deviceCommand => if frame.deviceId = key.deviceId then .device frame.diFlags else .nothing

namespace SourceState

variable (s : SourceState) (key : EffectKey) (frame : ProtocolFrame)

def slot : Slot := ⟨s.deviceOf key.deviceId, s.effects.find? key⟩

def happens : Happening :=
  if frame.messageType = .dropNotice then
    if s.droppedFrames < frame.dropped.toNat then .forgotten else .nothing
  else if frame.hresult < 0 ∧ frame.messageType ≠ .hello then .nothing
  else frameHappening key frame

def happening : Happening := if s.refuses frame then .nothing else s.happens key frame

end SourceState

section Entries

variable {s : SourceState}

def FiledEffects (effects : Dictionary EffectKey EffectState) : Prop :=
  ∀ key effect, effects.find? key = some effect → effect.key = key

theorem FiledEffects.map {effects : Dictionary EffectKey EffectState} (h : FiledEffects effects)
    {f : EffectKey → EffectState → EffectState} (hf : ∀ key effect, (f key effect).key = effect.key) :
    FiledEffects (effects.map f) := by
  intro key effect heffect
  rw [Dictionary.find?_map, Option.map_eq_some_iff] at heffect
  obtain ⟨before, hbefore, rfl⟩ := heffect
  rw [hf, h key before hbefore]

theorem deviceOf_set (devices : Dictionary UInt32 DeviceState) (deviceId other : UInt32)
    (device : DeviceState) :
    ((devices.set deviceId device).find? other).getD {} =
      if other = deviceId then device else (devices.find? other).getD {} := by
  rw [Dictionary.find?_set]
  split <;> rfl

@[simp] theorem deviceOf_withDevice (deviceId other : UInt32) :
    (s.withDevice deviceId).deviceOf other = s.deviceOf other := by
  unfold SourceState.withDevice
  split
  · rfl
  · rename_i huntracked
    rw [SourceState.deviceOf, deviceOf_set]
    split
    · rename_i hsame
      rw [Dictionary.contains, Bool.not_eq_true, Option.isSome_eq_false_iff,
        Option.isNone_iff_eq_none] at huntracked
      rw [SourceState.deviceOf, hsame, huntracked, Option.getD_none]
    · rfl

@[simp] theorem deviceOf_withEffect (key : EffectKey) (kind : EffectKind) (other : UInt32) :
    (s.withEffect key kind).deviceOf other = s.deviceOf other := by
  unfold SourceState.withEffect
  split
  · rfl
  · exact deviceOf_withDevice key.deviceId other

theorem find?_withEffect_of_ne {key other : EffectKey} (kind : EffectKind) (h : other ≠ key) :
    (s.withEffect key kind).effects.find? other = s.effects.find? other := by
  unfold SourceState.withEffect
  split
  · rfl
  · exact Dictionary.find?_set_of_ne _ _ h

end Entries

section Commands

def Playback.slot (p : Playback) (key : EffectKey) : Slot := ⟨p.device, p.effects.find? key⟩

/-- A part of a device command, seen from the slots. -/
structure Playback.Becomes (deviceId : UInt32) (p p' : Playback) (act : Slot → Slot) : Prop where
  filed : FiledEffects p'.effects
  own : ∀ key, key.deviceId = deviceId → p'.slot key = act (p.slot key)
  other : ∀ key, key.deviceId ≠ deviceId → p'.effects.find? key = p.effects.find? key

variable {p p' p'' : Playback} {deviceId : UInt32} {act act' : Slot → Slot}

theorem Playback.Becomes.trans (h : p.Becomes deviceId p' act) (h' : p'.Becomes deviceId p'' act') :
    p.Becomes deviceId p'' (fun slot => act' (act slot)) :=
  ⟨h'.filed, fun key hkey => by rw [h'.own key hkey, h.own key hkey],
    fun key hkey => by rw [h'.other key hkey, h.other key hkey]⟩

theorem Playback.Becomes.ite (flag : Bool) (hfiled : FiledEffects p.effects)
    (h : p.Becomes deviceId p' act) :
    p.Becomes deviceId (if flag then p' else p) (fun slot => if flag then act slot else slot) := by
  cases flag with
  | true => exact h
  | false => exact ⟨hfiled, fun key hkey => rfl, fun key hkey => rfl⟩

variable (deviceId)

theorem Playback.becomes_of_map (hfiled : FiledEffects p.effects) (device : DeviceState)
    {f : EffectState → EffectState} (hf : ∀ effect, (f effect).key = effect.key) :
    p.Becomes deviceId
      { device := device
        effects := p.effects.map fun _ effect => if effect.deviceId = deviceId then f effect else effect }
      (fun slot => { device := device, effect := slot.effect.map f }) := by
  refine ⟨hfiled.map ?_, ?_, ?_⟩
  · intro key effect
    split
    · exact hf effect
    · rfl
  · intro key hkey
    simp only [Playback.slot, Dictionary.find?_map]
    cases hfind : p.effects.find? key with
    | none => rfl
    | some effect =>
      have howner : effect.deviceId = deviceId := by
        rw [← hkey, ← hfiled key effect hfind]
        rfl
      simp only [Option.map_some, howner, ↓reduceIte]
  · intro key hkey
    simp only [Dictionary.find?_map]
    cases hfind : p.effects.find? key with
    | none => rfl
    | some effect =>
      have howner : effect.deviceId ≠ deviceId := by
        intro howner
        exact hkey (by rw [← howner, ← hfiled key effect hfind]; rfl)
      simp only [Option.map_some, howner, ↓reduceIte]

theorem key_resumeAfterPause (effect : EffectState) (pausedAt now : ℚ) :
    (effect.resumeAfterPause pausedAt now).key = effect.key := by
  unfold EffectState.resumeAfterPause EffectState.shiftSchedule
  split <;> rfl

theorem Playback.becomes_stopAll (hfiled : FiledEffects p.effects) :
    p.Becomes deviceId (p.stopAll deviceId) Slot.stopAll := by
  have hmap := becomes_of_map deviceId hfiled { p.device with paused := false }
    (f := EffectState.stop) (fun _ => rfl)
  exact ⟨hmap.filed, hmap.own, hmap.other⟩

theorem Playback.becomes_reset (hfiled : FiledEffects p.effects) :
    p.Becomes deviceId (p.reset deviceId) Slot.reset := by
  have hmap := becomes_of_map deviceId hfiled
    { p.device with paused := false, actuatorsEnabled := false } (f := EffectState.stop) (fun _ => rfl)
  exact ⟨hmap.filed, hmap.own, hmap.other⟩

theorem Playback.becomes_pause (hfiled : FiledEffects p.effects) (now : ℚ) :
    p.Becomes deviceId (p.pause now) (fun slot => slot.pause now) := by
  unfold Playback.pause
  split
  · rename_i hpaused
    refine ⟨hfiled, ?_, fun key hkey => rfl⟩
    intro key hkey
    simp only [Playback.slot, Slot.pause, hpaused, ↓reduceIte]
  · rename_i hpaused
    refine ⟨hfiled, ?_, fun key hkey => rfl⟩
    intro key hkey
    simp only [Playback.slot, Slot.pause, hpaused]
    rfl

theorem Playback.becomes_resume (hfiled : FiledEffects p.effects) (now : ℚ) :
    p.Becomes deviceId (p.resume deviceId now) (fun slot => slot.resume now) := by
  unfold Playback.resume
  split
  · rename_i hpaused
    have hmap := becomes_of_map deviceId hfiled { p.device with paused := false }
      (fun effect => key_resumeAfterPause effect p.device.pausedAtMilliseconds now)
    refine ⟨hmap.filed, ?_, hmap.other⟩
    intro key hkey
    rw [hmap.own key hkey]
    simp only [Playback.slot, Slot.resume, hpaused, ↓reduceIte]
  · rename_i hpaused
    refine ⟨hfiled, ?_, fun key hkey => rfl⟩
    intro key hkey
    simp only [Playback.slot, Slot.resume, hpaused]
    rfl

theorem Playback.becomes_setActuators (hfiled : FiledEffects p.effects) (enabled : Bool) :
    p.Becomes deviceId (p.setActuators enabled) (fun slot => slot.setActuators enabled) :=
  ⟨hfiled, fun _ _ => rfl, fun _ _ => rfl⟩

/-- A device command drives every slot of its device and no other. -/
theorem Playback.becomes_command (hfiled : FiledEffects p.effects) (command : UInt32) (now : ℚ) :
    p.Becomes deviceId (p.command deviceId command now) (fun slot => slot.command command now) := by
  have hreset := Becomes.ite (hasFlags command DisffcReset) hfiled
    (becomes_reset deviceId hfiled)
  have hstop := hreset.trans (.ite (hasFlags command DisffcStopAll) hreset.filed
    (becomes_stopAll deviceId hreset.filed))
  have hpause := hstop.trans (.ite (hasFlags command DisffcPause) hstop.filed
    (becomes_pause deviceId hstop.filed now))
  have hresume := hpause.trans (.ite (hasFlags command DisffcContinue) hpause.filed
    (becomes_resume deviceId hpause.filed now))
  have hoff := hresume.trans (.ite (hasFlags command DisffcActuatorsOff) hresume.filed
    (becomes_setActuators deviceId hresume.filed false))
  exact hoff.trans (.ite (hasFlags command DisffcActuatorsOn) hoff.filed
    (becomes_setActuators deviceId hoff.filed true))

theorem Slot.command_keeps {P : Slot → Prop} {slot : Slot} {now : ℚ}
    (hreset : ∀ s : Slot, P s → P s.reset) (hstop : ∀ s : Slot, P s → P s.stopAll)
    (hpause : ∀ s : Slot, P s → P (s.pause now)) (hresume : ∀ s : Slot, P s → P (s.resume now))
    (hactuators : ∀ (s : Slot) (enabled : Bool), P s → P (s.setActuators enabled)) (h : P slot)
    (command : UInt32) : P (slot.command command now) := by
  have hite : ∀ (flag : Bool) {s acted : Slot}, P s → (P s → P acted) →
      P (if flag then acted else s) := by
    intro flag s acted hs hacted
    cases flag with
    | true => exact hacted hs
    | false => exact hs
  have hafterReset := hite (hasFlags command DisffcReset) h (hreset slot)
  have hafterStop := hite (hasFlags command DisffcStopAll) hafterReset (hstop _)
  have hafterPause := hite (hasFlags command DisffcPause) hafterStop (hpause _)
  have hafterResume := hite (hasFlags command DisffcContinue) hafterPause (hresume _)
  have hafterOff := hite (hasFlags command DisffcActuatorsOff) hafterResume (hactuators _ false)
  exact hite (hasFlags command DisffcActuatorsOn) hafterOff (hactuators _ true)

theorem isSome_command (slot : Slot) (command : UInt32) (now : ℚ) :
    (slot.command command now).effect.isSome = slot.effect.isSome := by
  apply Slot.command_keeps (P := fun s => s.effect.isSome = slot.effect.isSome) _ _ _ _ _ rfl command
  · exact fun s hs => Option.isSome_map.trans hs
  · exact fun s hs => Option.isSome_map.trans hs
  · intro s hs
    unfold Slot.pause
    split <;> exact hs
  · intro s hs
    unfold Slot.resume
    split
    · exact Option.isSome_map.trans hs
    · exact hs
  · exact fun s enabled hs => hs

end Commands

section Frames

variable {s : SourceState} {key : EffectKey} (frame : ProtocolFrame) (now : ℚ)

theorem deviceId_effectOf (hfiled : FiledEffects s.effects) (key : EffectKey) (kind : EffectKind) :
    (s.effectOf key kind).deviceId = key.deviceId := by
  unfold SourceState.effectOf
  cases hfind : s.effects.find? key with
  | none => rfl
  | some effect => exact congrArg EffectKey.deviceId (hfiled key effect hfind)

theorem slot_eq {t : SourceState} {slot : Slot} (hdevice : t.deviceOf key.deviceId = slot.device)
    (heffect : t.effects.find? key = slot.effect) : t.slot key = slot := by
  rw [SourceState.slot, hdevice, heffect]

theorem slot_unlimitedCreated :
    (s.unlimitedCreated frame).slot key = (s.slot key).take now
      (if frame.effectId ≠ 0 ∧ frameKey frame = key then .created (createdEffect frame)
        else .nothing) := by
  unfold SourceState.unlimitedCreated
  by_cases hid : frame.effectId = 0
  · simp only [hid, ↓reduceIte, ne_eq, not_true_eq_false, false_and, Slot.take]
  by_cases hkey : frameKey frame = key
  · subst hkey
    simp only [hid, ↓reduceIte, ne_eq, not_false_eq_true, and_self]
    exact slot_eq (deviceOf_withDevice _ _) (Dictionary.find?_set_self _ _ _)
  · simp only [hid, hkey, ↓reduceIte, and_false]
    exact slot_eq (deviceOf_withDevice _ _) (Dictionary.find?_set_of_ne _ _ (Ne.symm hkey))

theorem slot_unlimitedParameters (hfiled : FiledEffects s.effects) :
    (s.unlimitedParameters frame now).slot key = (s.slot key).take now
      (if frame.effectId ≠ 0 ∧ frameKey frame = key then .updated frame else .nothing) := by
  unfold SourceState.unlimitedParameters
  by_cases hid : frame.effectId = 0
  · simp only [hid, ↓reduceIte, ne_eq, not_true_eq_false, false_and, Slot.take]
  by_cases hkey : frameKey frame = key
  · subst hkey
    simp only [hid, ↓reduceIte, ne_eq, not_false_eq_true, and_self]
    refine slot_eq ?_ ?_
    · exact (deviceOf_withDevice _ _).trans (deviceOf_withEffect _ _ _)
    · simp only [Dictionary.find?_set_self, deviceOf_withEffect, deviceId_effectOf hfiled]
      rfl
  · simp only [hid, hkey, ↓reduceIte, and_false]
    refine slot_eq ?_ ?_
    · exact (deviceOf_withDevice _ _).trans (deviceOf_withEffect _ _ _)
    · simp only [effects_withDevice, Dictionary.find?_set_of_ne _ _ (Ne.symm hkey),
        find?_withEffect_of_ne _ (Ne.symm hkey)]
      rfl

theorem find?_stopOthers (hfiled : FiledEffects s.effects) (hkey : frameKey frame ≠ key)
    {t : SourceState} (ht : t.effects.find? key = s.effects.find? key) :
    (t.stopOthers (frameKey frame)).effects.find? key = (s.effects.find? key).map fun effect =>
      if frame.deviceId = key.deviceId then effect.stop else effect := by
  simp only [SourceState.stopOthers, Dictionary.find?_map, ht]
  cases hfind : s.effects.find? key with
  | none => rfl
  | some effect =>
    have hown := hfiled key effect hfind
    have hcondition : (effect.deviceId = (frameKey frame).deviceId ∧
        effect.effectId ≠ (frameKey frame).effectId) ↔ frame.deviceId = key.deviceId := by
      rw [← hown]
      constructor
      · rintro ⟨hdevice, -⟩
        exact hdevice.symm
      · intro hdevice
        refine ⟨hdevice.symm, ?_⟩
        intro heffect
        apply hkey
        rw [← hown]
        exact (EffectKey.mk.injEq _ _ _ _).mpr ⟨hdevice, heffect.symm⟩
    simp only [Option.map_some, hcondition]

theorem slot_obey (htracked : frame.effectCommand = some .start ∨
      ∃ effect, s.effects.find? (frameKey frame) = some effect) :
    (s.unlimitedCommand frame now).slot (frameKey frame) =
      (s.slot (frameKey frame)).obey frame now := by
  have hcontains : frame.effectCommand ≠ some .start → s.effects.contains (frameKey frame) = true := by
    intro hstart
    obtain ⟨effect, heffect⟩ := htracked.resolve_left hstart
    rw [Dictionary.contains, heffect, Option.isSome_some]
  have hguard : (!s.effects.contains (frameKey frame) &&
      decide (frame.effectCommand ≠ some .start)) = false := by
    by_cases hstart : frame.effectCommand = some .start
    · simp [hstart]
    · simp [hcontains hstart]
  have hmap : ∀ f : EffectState → EffectState, frame.effectCommand ≠ some .start →
      some (f (s.effectOf (frameKey frame) frame.effectKind)) =
        (s.effects.find? (frameKey frame)).map f := by
    intro f hstart
    obtain ⟨effect, heffect⟩ := htracked.resolve_left hstart
    rw [SourceState.effectOf, heffect, Option.getD_some, Option.map_some]
  simp only [SourceState.unlimitedCommand, hguard, Bool.false_eq_true, ↓reduceIte, Slot.obey]
  cases hcommand : frame.effectCommand with
  | none =>
    refine slot_eq (deviceOf_withEffect _ _ _) ?_
    rw [Dictionary.find?_set_self]
    exact hmap (fun effect => effect.withKind frame.effectKind) (by rw [hcommand]; decide)
  | some command =>
    cases command with
    | start =>
      refine slot_eq ?_ (Dictionary.find?_set_self _ _ _)
      by_cases hsolo : hasFlags frame.flags DiesSolo = true
      · simp only [hsolo, ↓reduceIte]
        exact deviceOf_withEffect _ _ _
      · simp only [hsolo, Bool.false_eq_true, ↓reduceIte]
        exact deviceOf_withEffect _ _ _
    | stop | unload =>
      refine slot_eq (deviceOf_withEffect _ _ _) ?_
      rw [Dictionary.find?_set_self]
      exact hmap (fun effect => (effect.withKind frame.effectKind).stop) (by rw [hcommand]; decide)
    | release =>
      refine slot_eq (deviceOf_withEffect _ _ _) ?_
      rw [Dictionary.find?_remove, if_pos rfl]
    | download =>
      refine slot_eq (deviceOf_withEffect _ _ _) ?_
      rw [Dictionary.find?_set_self]
      exact hmap (fun effect => effect.withKind frame.effectKind) (by rw [hcommand]; decide)

theorem slot_unlimitedCommand_of_ne (hfiled : FiledEffects s.effects) (hkey : frameKey frame ≠ key) :
    (s.unlimitedCommand frame now).slot key = (s.slot key).take now
      (if frame.effectCommand = some .start ∧ hasFlags frame.flags DiesSolo = true ∧
        frame.deviceId = key.deviceId then .stopped else .nothing) := by
  have hother := find?_withEffect_of_ne (s := s) frame.effectKind (Ne.symm hkey)
  unfold SourceState.unlimitedCommand
  split
  · rename_i hguard
    have hstart : frame.effectCommand ≠ some .start := by
      rw [Bool.and_eq_true, decide_eq_true_eq] at hguard
      exact hguard.2
    rw [if_neg fun hall => hstart hall.1]
    rfl
  cases hcommand : frame.effectCommand with
  | none =>
    exact slot_eq (deviceOf_withEffect _ _ _)
      ((Dictionary.find?_set_of_ne _ _ (Ne.symm hkey)).trans hother)
  | some command =>
    cases command with
    | start =>
      by_cases hsolo : hasFlags frame.flags DiesSolo = true
      · have hstopped := find?_stopOthers frame hfiled hkey
          (t := { s.withEffect (frameKey frame) frame.effectKind with
            lastEffectKind :=
              ((s.effectOf (frameKey frame) frame.effectKind).withKind frame.effectKind).kind }) hother
        simp only [hsolo, ↓reduceIte, true_and]
        refine slot_eq ?_ ?_
        · refine (deviceOf_withEffect (frameKey frame) frame.effectKind _).trans ?_
          split <;> rfl
        · rw [Dictionary.find?_set_of_ne _ _ (Ne.symm hkey), hstopped]
          split
          · rfl
          · exact Option.map_id'
      · simp only [hsolo, Bool.false_eq_true, ↓reduceIte, false_and, and_false]
        exact slot_eq (deviceOf_withEffect _ _ _)
          ((Dictionary.find?_set_of_ne _ _ (Ne.symm hkey)).trans hother)
    | stop | unload | download =>
      exact slot_eq (deviceOf_withEffect _ _ _)
        ((Dictionary.find?_set_of_ne _ _ (Ne.symm hkey)).trans hother)
    | release =>
      refine slot_eq (deviceOf_withEffect _ _ _) ?_
      rw [Dictionary.find?_remove, if_neg (Ne.symm hkey)]
      exact hother

theorem slot_unlimitedCommand (hfiled : FiledEffects s.effects) :
    (s.unlimitedCommand frame now).slot key = (s.slot key).take now
      (if frameKey frame = key then .commanded frame
        else if frame.effectCommand = some .start ∧ hasFlags frame.flags DiesSolo = true ∧
          frame.deviceId = key.deviceId then .stopped
        else .nothing) := by
  by_cases hkey : frameKey frame = key
  · subst hkey
    rw [if_pos rfl]
    by_cases htracked : frame.effectCommand = some .start ∨
        ∃ effect, s.effects.find? (frameKey frame) = some effect
    · exact slot_obey frame now htracked
    · rw [not_or] at htracked
      have hnone : s.effects.find? (frameKey frame) = none := by
        cases hfind : s.effects.find? (frameKey frame) with
        | none => rfl
        | some effect => exact absurd ⟨effect, hfind⟩ htracked.2
      have hkept : s.unlimitedCommand frame now = s := by
        simp [SourceState.unlimitedCommand, Dictionary.contains, hnone, htracked.1]
      rw [hkept]
      simp only [Slot.take, Slot.obey, SourceState.slot, hnone, Option.map_none]
      split
      · rename_i hstart
        exact absurd hstart htracked.1
      · rfl
      · rfl
      · rfl
      · rfl
      · rfl
  · rw [if_neg hkey]
    exact slot_unlimitedCommand_of_ne frame now hfiled hkey

theorem slot_applyUnlimited (hfiled : FiledEffects s.effects) :
    (s.applyUnlimited frame now).slot key = (s.slot key).take now (s.happens key frame) := by
  unfold SourceState.applyUnlimited SourceState.happens
  by_cases hdrop : frame.messageType = .dropNotice
  · simp only [hdrop, ↓reduceIte, SourceState.applyDropNotice]
    split
    · rfl
    · rfl
  rw [if_neg hdrop, if_neg hdrop]
  by_cases hfailed : frame.hresult < 0 ∧ frame.messageType ≠ .hello
  · rw [if_pos hfailed, if_pos hfailed]
    rfl
  rw [if_neg hfailed, if_neg hfailed]
  unfold frameHappening
  cases htype : frame.messageType with
  | hello | dropNotice => rfl
  | deviceCreated => exact slot_eq (deviceOf_withDevice _ _) (by rw [effects_withDevice]; rfl)
  | devicePropertyChanged =>
    simp only [SourceState.unlimitedProperty]
    by_cases hproperty : frame.propertyId = 1
    · simp only [hproperty, ↓reduceIte, true_and]
      refine slot_eq ?_ ?_
      · rw [SourceState.deviceOf, deviceOf_set]
        by_cases hdevice : frame.deviceId = key.deviceId
        · simp only [hdevice, ↓reduceIte]
          rfl
        · simp only [hdevice, Ne.symm hdevice, ↓reduceIte]
          exact deviceOf_withDevice _ _
      · simp only [effects_withDevice]
        split <;> rfl
    · simp only [hproperty, ↓reduceIte, false_and]
      rfl
  | effectCreated => exact slot_unlimitedCreated frame now
  | effectParametersChanged => exact slot_unlimitedParameters frame now hfiled
  | effectCommand => exact slot_unlimitedCommand frame now hfiled
  | deviceCommand =>
    have hcommand := Playback.becomes_command (p := ⟨s.deviceOf frame.deviceId, s.effects⟩)
      frame.deviceId hfiled frame.diFlags now
    simp only [SourceState.unlimitedDeviceCommand]
    by_cases hdevice : frame.deviceId = key.deviceId
    · have hslot := hcommand.own key hdevice.symm
      simp only [hdevice, ↓reduceIte]
      rw [hdevice] at hslot
      refine slot_eq ?_ ?_
      · rw [SourceState.deviceOf, deviceOf_set, if_pos rfl]
        exact congrArg Slot.device hslot
      · exact congrArg Slot.effect hslot
    · simp only [hdevice, ↓reduceIte]
      refine slot_eq ?_ ?_
      · rw [SourceState.deviceOf, deviceOf_set, if_neg (Ne.symm hdevice)]
        exact deviceOf_withDevice _ _
      · exact hcommand.other key (Ne.symm hdevice)

/-- A frame drives every slot of a source by what it means to that slot. -/
theorem slot_apply (hfiled : FiledEffects s.effects) (key : EffectKey) :
    (s.apply frame now).slot key = (s.slot key).take now (s.happening key frame) := by
  unfold SourceState.happening
  cases hrefuses : s.refuses frame with
  | true =>
    have hkept := refused_apply hrefuses now
    exact slot_eq (by rw [SourceState.deviceOf, hkept.devices]; rfl) (by rw [hkept.effects]; rfl)
  | false =>
    rw [apply_of_room hrefuses]
    exact slot_applyUnlimited frame now hfiled

end Frames

section Filing

variable {s : SourceState} {key : EffectKey}

/-- What happens to a slot is about its own effect. -/
def Happening.For (key : EffectKey) : Happening → Prop
  | .created effect => effect.key = key ∧ effect.active = false
  | .updated frame | .commanded frame => frameKey frame = key
  | .nothing | .forgotten | .gain _ | .stopped | .device _ => True

theorem happening_for (s : SourceState) (key : EffectKey) (frame : ProtocolFrame) :
    (s.happening key frame).For key := by
  have hcreated : (createdEffect frame).key = frameKey frame ∧ (createdEffect frame).active = false := by
    unfold createdEffect
    simp only
    split <;> exact ⟨rfl, rfl⟩
  unfold SourceState.happening SourceState.happens frameHappening
  repeat' split
  all_goals simp_all [Happening.For]

theorem key_withKind (effect : EffectState) (kind : EffectKind) :
    (effect.withKind kind).key = effect.key := by
  unfold EffectState.withKind
  split <;> rfl

theorem key_expireIfFinished (effect : EffectState) (now : ℚ) :
    (effect.expireIfFinished now).key = effect.key := by
  unfold EffectState.expireIfFinished
  split <;> rfl

theorem key_isProducing (effect : EffectState) (now : ℚ) :
    (effect.isProducing now).2.key = effect.key := by
  unfold EffectState.isProducing
  split
  · rfl
  · exact key_expireIfFinished effect now

theorem key_update (effect : EffectState) (frame : ProtocolFrame) (now : ℚ) :
    (effect.update frame now).key = effect.key := by
  have hforces : ∀ e : EffectState, (e.assignForces frame).key = e.key := by
    intro e
    unfold EffectState.assignForces
    split <;> rfl
  have henvelope : ∀ e : EffectState, (e.assignEnvelope frame).key = e.key := by
    intro e
    unfold EffectState.assignEnvelope
    split <;> rfl
  have htiming : ∀ e : EffectState, (e.assignTiming frame).key = e.key := fun _ => rfl
  have htrigger : ∀ e : EffectState, (e.assignTrigger frame).key = e.key := fun _ => rfl
  have hassign : (effect.assign frame).key = effect.key := by
    simp only [EffectState.assign, henvelope, htrigger, hforces, htiming, key_withKind]
  have hreschedule : ((effect.assign frame).reschedule frame now).key = effect.key := by
    unfold EffectState.reschedule
    split
    · exact hassign
    · split <;> exact hassign
  unfold EffectState.update
  simp only
  split <;> exact hreschedule

theorem key_getD {effect : Option EffectState} (h : ∀ e, effect = some e → e.key = key)
    {fresh : EffectState} (hfresh : fresh.key = key) : (effect.getD fresh).key = key := by
  cases effect with
  | none => exact hfresh
  | some effect => exact h effect rfl

theorem filed_map {effect : Option EffectState} (h : ∀ e, effect = some e → e.key = key)
    {f : EffectState → EffectState} (hf : ∀ e, (f e).key = e.key) :
    ∀ e, effect.map f = some e → e.key = key := by
  intro e he
  obtain ⟨before, hbefore, rfl⟩ := Option.map_eq_some_iff.mp he
  rw [hf, h before hbefore]

theorem Slot.filed_command {slot : Slot} (hfiled : ∀ e, slot.effect = some e → e.key = key)
    (command : UInt32) (now : ℚ) : ∀ e, (slot.command command now).effect = some e → e.key = key := by
  apply Slot.command_keeps (P := fun s => ∀ e, s.effect = some e → e.key = key) _ _ _ _ _ hfiled command
  · exact fun s hs => filed_map hs fun _ => rfl
  · exact fun s hs => filed_map hs fun _ => rfl
  · intro s hs
    unfold Slot.pause
    split <;> exact hs
  · intro s hs
    unfold Slot.resume
    split
    · exact filed_map hs fun e => key_resumeAfterPause e _ now
    · exact hs
  · exact fun s enabled hs => hs

theorem Slot.filed_take {slot : Slot} {h : Happening} (hfiled : ∀ e, slot.effect = some e → e.key = key)
    (hfor : h.For key) (now : ℚ) : ∀ e, (slot.take now h).effect = some e → e.key = key := by
  cases h with
  | nothing | gain gain => exact hfiled
  | forgotten => exact fun e he => by cases he
  | created effect =>
    rintro e ⟨⟩
    exact hfor.1
  | updated frame =>
    rintro e ⟨⟩
    rw [key_update]
    split
    · rw [key_expireIfFinished]
      exact key_getD hfiled hfor
    · exact key_getD hfiled hfor
  | commanded frame =>
    simp only [Slot.take, Slot.obey]
    split
    · rintro e ⟨⟩
      exact (key_withKind _ _).trans (key_getD hfiled hfor)
    · exact filed_map hfiled fun e => key_withKind e frame.effectKind
    · exact filed_map hfiled fun e => key_withKind e frame.effectKind
    · exact fun e he => by cases he
    · exact filed_map hfiled fun e => key_withKind e frame.effectKind
    · exact filed_map hfiled fun e => key_withKind e frame.effectKind
  | stopped => exact filed_map hfiled fun _ => rfl
  | device command => exact Slot.filed_command hfiled command now

theorem filed_apply (hfiled : FiledEffects s.effects) (frame : ProtocolFrame) (now : ℚ) :
    FiledEffects (s.apply frame now).effects := by
  intro key effect heffect
  have hslot := slot_apply frame now hfiled key
  have hafter : ((s.apply frame now).slot key).effect = some effect := heffect
  rw [hslot] at hafter
  exact Slot.filed_take (hfiled key) (happening_for s key frame) now effect hafter

end Filing

section Ticks

variable {s : SourceState} {sine : Sine} (now : ℚ) (settings : NormalizedSettings)

theorem tables_tick (s : SourceState) (sine : Sine) :
    (s.tick now settings sine).2.effects =
        s.effects.map (fun _ effect => evaluateEffect s.devices now effect) ∧
      (s.tick now settings sine).2.devices = s.devices ∧
      (s.tick now settings sine).2.droppedFrames = s.droppedFrames ∧
      (s.tick now settings sine).2.unobservedTriggerEffectCount =
        s.effects.values.countP EffectState.hasUnobservableTrigger := by
  obtain ⟨isClipping, atLimit, clipRatio, sampling, htick⟩ := s.tick_evaluates now settings sine
  rw [htick]
  exact ⟨rfl, rfl, rfl, rfl⟩

theorem key_evaluateEffect (devices : Dictionary UInt32 DeviceState) (effect : EffectState) :
    (evaluateEffect devices now effect).key = effect.key := by
  unfold evaluateEffect
  split
  · rfl
  · split
    · rfl
    · exact key_isProducing effect now

theorem filed_tick (hfiled : FiledEffects s.effects) (sine : Sine) :
    FiledEffects (s.tick now settings sine).2.effects := by
  rw [(tables_tick now settings s sine).1]
  exact hfiled.map fun _ effect => key_evaluateEffect now s.devices effect

/-- A tick looks at every slot whose device is tracked. -/
theorem slot_tick (hfiled : FiledEffects s.effects) (sine : Sine) (key : EffectKey) :
    (s.tick now settings sine).2.slot key =
      if s.devices.contains key.deviceId then (s.slot key).look now else s.slot key := by
  obtain ⟨heffects, hdevices, -, -⟩ := tables_tick now settings s sine
  have hdevice : (s.tick now settings sine).2.deviceOf key.deviceId = s.deviceOf key.deviceId := by
    rw [SourceState.deviceOf, hdevices]
    rfl
  have hevaluate : (s.tick now settings sine).2.effects.find? key =
      (s.effects.find? key).map (evaluateEffect s.devices now) := by
    rw [heffects, Dictionary.find?_map]
  have hlook : (s.effects.find? key).map (evaluateEffect s.devices now) =
      (if s.devices.contains key.deviceId then (s.slot key).look now else s.slot key).effect := by
    cases hfind : s.effects.find? key with
    | none =>
      simp only [Slot.look, SourceState.slot, hfind, Option.map_none]
      split
      · split <;> rfl
      · rfl
    | some effect =>
      have howner : effect.deviceId = key.deviceId :=
        congrArg EffectKey.deviceId (hfiled key effect hfind)
      simp only [evaluateEffect, Option.map_some, howner, Slot.look, SourceState.slot,
        SourceState.deviceOf, Dictionary.contains, hfind]
      cases hknown : s.devices.find? key.deviceId with
      | none => rfl
      | some device =>
        simp only [Option.isSome_some, ↓reduceIte, Option.getD_some]
        split <;> rfl
  refine slot_eq (hdevice.trans ?_) (hevaluate.trans hlook)
  unfold Slot.look
  split
  · split <;> rfl
  · rfl

end Ticks

end FfbInterceptor.Engine
