import FfbInterceptor.Engine.Capacity
import FfbInterceptor.Telemetry.Filling
import FfbInterceptor.Telemetry.Stream

/-! The way of an effect's parameters from the call of the game into the state of the detector: the
capture, the frame, and the merge into the tracked effect. -/
namespace FfbInterceptor.Engine
open FfbInterceptor.Library FfbInterceptor.Protocol FfbInterceptor.Server FfbInterceptor.Telemetry

section Frames
variable {s : SourceState} {frame : ProtocolFrame} {key : EffectKey}

/-- What is known of an effect, the defaults where it is not tracked. -/
def SourceState.parametersOf (s : SourceState) (key : EffectKey) (kind : EffectKind) : Parameters :=
  ((s.effects.find? key).map (EffectState.parameters kind)).getD (.defaults kind)

theorem admitted_of_tracked (h : s.WithinLimits) (hkey : frameKey frame = key)
    (htype : frame.messageType = .effectParametersChanged)
    (htracked : s.effects.contains key = true) : s.refuses frame = false := by
  subst hkey
  have hhoused := h.housed _ htracked
  obtain ⟨effect, heffect⟩ := Option.isSome_iff_exists.mp htracked
  have howner : effect.deviceId = frame.deviceId :=
    congrArg EffectKey.deviceId (h.filed _ effect heffect)
  have hhoused : s.devices.contains frame.deviceId = true := hhoused
  simp only [SourceState.refuses, htype, SourceState.lacksEffect, htracked,
    SourceState.lacksDevice, heffect, Option.map_some, Option.getD_some, howner, hhoused,
    Bool.not_true, Bool.false_and, Bool.or_self, Bool.and_false]

/-- A frame that comes through acts on the effect it names. -/
theorem find?_apply (key : EffectKey) (hfiled : FiledEffects s.effects) (now : ℚ)
    (hok : 0 ≤ frame.hresult) (hdrop : frame.messageType ≠ .dropNotice) (hroom : s.refuses frame = false) :
    (s.apply frame now).effects.find? key =
      ((s.slot key).take now (frameHappening key frame)).effect := by
  have hslot := congrArg Slot.effect (slot_apply frame now hfiled key)
  have hfailed : ¬ frame.hresult < 0 := Int32.not_lt.mpr hok
  simp only [SourceState.happening, hroom, SourceState.happens, hdrop, hfailed, false_and,
    Bool.false_eq_true, ↓reduceIte] at hslot
  exact hslot

theorem updated_parameters (hfiled : FiledEffects s.effects) (now : ℚ) (kind : EffectKind)
    (htype : frame.messageType = .effectParametersChanged) (hok : 0 ≤ frame.hresult)
    (hid : frame.effectId ≠ 0) (hkind : frame.effectKind = kind) (hknown : kind ≠ .unknown)
    (hroom : s.refuses frame = false) :
    ∃ new, (s.apply frame now).effects.find? (frameKey frame) = some new ∧ new.kind = kind ∧
      new.parameters kind = (s.parametersOf (frameKey frame) kind).merge (hasFlags frame.flags)
        (frameParameters kind frame) := by
  have hfind := find?_apply (frameKey frame) hfiled now hok (by rw [htype]; exact nofun) hroom
  simp only [frameHappening, htype, ne_eq, hid, not_false_eq_true, and_self, ↓reduceIte,
    Slot.take, Slot.update] at hfind
  refine ⟨_, hfind, ?_, ?_⟩
  · subst hkind
    exact kind_update _ frame now hknown
  · have hcurrent : ∀ (flag : Bool) (effect : EffectState),
        (if flag then effect.expireIfFinished now else effect).parameters kind =
          effect.parameters kind := by
      intro flag effect
      cases flag with
      | false => rfl
      | true => exact parameters_expireIfFinished effect kind now
    rw [parameters_update, hcurrent, SourceState.parametersOf, Slot.effectOf, SourceState.slot]
    cases s.effects.find? (frameKey frame) <;> rfl

theorem created_effect (hfiled : FiledEffects s.effects) (now : ℚ)
    (htype : frame.messageType = .effectCreated) (hok : 0 ≤ frame.hresult)
    (hid : frame.effectId ≠ 0) (hroom : s.refuses frame = false) :
    (s.apply frame now).effects.find? (frameKey frame) = some (createdEffect frame) := by
  have hfind := find?_apply (frameKey frame) hfiled now hok (by rw [htype]; exact nofun) hroom
  simpa only [frameHappening, htype, ne_eq, hid, not_false_eq_true, and_self, ↓reduceIte,
    Slot.take] using hfind

end Frames

section Calls
variable {p : Producer} {ids : Producer.EffectIds} {kind : EffectKind}

/-- The frame of a `SetParameters` carries the structure's values where its flags select them. -/
theorem parameters_setParameters {effect : DIEFFECT} {flags : UInt32} (hr : Int32)
    (hkind : p.effectKindFromGuid ids.guid = kind)
    (hvalid : effect.Valid p.win64 (hasFlags flags) kind) :
    ∃ zero : Parameters, frameParameters kind (p.setParameters ids (some effect) flags hr).delivered =
      zero.merge (hasFlags flags) (effect.parameters kind) := by
  have hcaptures := captures_update (p.setParameters ids none flags hr) nofun
  have hfill := parameters_fillEffectParameters (p.setParameters ids none flags hr)
    (hcaptures ▸ hvalid) ⟨hkind ▸ EffectKind.ofValue_value _, rfl⟩
  rw [hcaptures] at hfill
  exact ⟨_, hfill⟩

theorem parameters_emitEffect {effect : DIEFFECT} (hr : Int32)
    (hkind : p.effectKindFromGuid ids.guid = kind)
    (hvalid : effect.Valid p.win64 (fun _ => true) kind) :
    frameParameters kind (p.emitEffect ids.deviceId ids.effectId ids.guid (some effect) hr).delivered =
      effect.parameters kind := by
  let start : Event :=
    { p.emitEffect ids.deviceId ids.effectId ids.guid none hr with effectParameterPresence := .present }
  have hcaptures := captures_creation start rfl
  have hfill := parameters_fillEffectParameters start (hcaptures ▸ hvalid)
    ⟨hkind ▸ EffectKind.ofValue_value _, rfl⟩
  rw [hcaptures, merge_all] at hfill
  exact hfill

/-- What a frame of a call on an effect says besides the parameters. -/
structure Names (frame : ProtocolFrame) (type : MessageType) (ids : Producer.EffectIds)
    (kind : EffectKind) (hr : Int32) : Prop where
  messageType : frame.messageType = type
  key : frameKey frame = ⟨ids.deviceId, ids.effectId⟩
  effectId : frame.effectId = ids.effectId
  effectKind : frame.effectKind = kind
  hresult : frame.hresult = hr

theorem names_delivered {start event : Event} (h : Captured start event) (hr : Int32)
    (hkind : p.effectKindFromGuid ids.guid = kind)
    (hvalue : start.effectKind = (p.effectKindFromGuid ids.guid).value)
    (hdevice : start.deviceId = ids.deviceId) (heffect : start.effectId = ids.effectId)
    (hresult : start.hresult = hr) :
    Names event.delivered start.type ids kind hr where
  messageType := h.type
  key := by
    simp only [frameKey, Event.delivered, Event.received, h.deviceId, h.effectId, hdevice, heffect]
  effectId := h.effectId.trans heffect
  effectKind := by
    simp only [Event.delivered, Event.received, h.effectKind, hvalue, EffectKind.ofValue_value,
      hkind]
  hresult := h.hresult.trans hresult

end Calls

section Updates
variable {sine : Sine} {settings : DetectorSettings} {calls : List Call} {source : SourceKey}
  {s : SourceState} {p : Producer} {ids : Producer.EffectIds} {kind : EffectKind} {hr : Int32}

theorem update_merges (hlimits : s.WithinLimits) (hkind : p.effectKindFromGuid ids.guid = kind)
    (hknown : kind ≠ .unknown) (hid : ids.effectId ≠ 0) (hok : 0 ≤ hr) (now : ℚ)
    {effect : DIEFFECT} {flags : UInt32} (hvalid : effect.Valid p.win64 (hasFlags flags) kind) :
    ∃ frame, decode (serializeEvent (p.setParameters ids (some effect) flags hr)) = .ok frame ∧
      (s.effects.contains ⟨ids.deviceId, ids.effectId⟩ = true → s.refuses frame = false) ∧
      (s.refuses frame = false → ∃ new,
        (s.apply frame now).effects.find? ⟨ids.deviceId, ids.effectId⟩ = some new ∧
        new.kind = kind ∧ new.parameters kind =
          (s.parametersOf ⟨ids.deviceId, ids.effectId⟩ kind).merge (hasFlags flags)
            (effect.parameters kind)) := by
  have hcaptured : Captured (p.setParameters ids none flags hr)
      (p.setParameters ids (some effect) flags hr) :=
    captured_fillEffectParameters _ _ (Nat.zero_le _) (Nat.zero_le _)
  have hnames := names_delivered hcaptured hr hkind rfl rfl rfl rfl
  have hflags : (p.setParameters ids (some effect) flags hr).delivered.flags = flags := by
    refine (wireFlags_of_ne ?_).trans hcaptured.flags
    rw [hcaptured.type]
    exact nofun
  obtain ⟨zero, hparameters⟩ := parameters_setParameters hr hkind hvalid
  refine ⟨_, (sendable_wrapped (.setParameters ids (some effect) flags hr)).1.decode, ?_, ?_⟩
  · exact admitted_of_tracked hlimits hnames.key hnames.messageType
  · intro hroom
    have hupdated := updated_parameters hlimits.filed now kind hnames.messageType
      (by rw [hnames.hresult]; exact hok) (by rw [hnames.effectId]; exact hid) hnames.effectKind
      hknown hroom
    rwa [hnames.key, hflags, hparameters, merge_merge] at hupdated

theorem captured_emitEffect (p : Producer) (ids : Producer.EffectIds) (effect : Option DIEFFECT)
    (hr : Int32) :
    Captured
      { p.emitEffect ids.deviceId ids.effectId ids.guid none hr with
        effectParameterPresence := if effect.isSome then .present else .absent }
      (p.emitEffect ids.deviceId ids.effectId ids.guid effect hr) :=
  captured_fillEffectParameters _ _ (Nat.zero_le _) (Nat.zero_le _)

theorem presence_emitEffect (p : Producer) (ids : Producer.EffectIds) (effect : DIEFFECT)
    (hr : Int32) : (p.emitEffect ids.deviceId ids.effectId ids.guid (some effect)
      hr).delivered.effectParameterPresence = .present := by
  have hcaptured := captured_emitEffect p ids (some effect) hr
  have htype : (p.emitEffect ids.deviceId ids.effectId ids.guid (some effect) hr).type =
      .effectCreated := hcaptured.type
  simp only [Event.delivered, Event.received, Event.receivedPresence, htype, ↓reduceIte]
  exact hcaptured.effectParameterPresence

theorem creation_sets (hlimits : s.WithinLimits) (hkind : p.effectKindFromGuid ids.guid = kind)
    (hid : ids.effectId ≠ 0) (hok : 0 ≤ hr) (now : ℚ) {effect : Option DIEFFECT}
    {parameters : Parameters} (hparameters : (createdEffect (p.emitEffect ids.deviceId ids.effectId
      ids.guid effect hr).delivered).parameters kind = parameters) :
    ∃ frame, decode (serializeEvent
        (p.emitEffect ids.deviceId ids.effectId ids.guid effect hr)) = .ok frame ∧
      (s.refuses frame = false → ∃ new,
        (s.apply frame now).effects.find? ⟨ids.deviceId, ids.effectId⟩ = some new ∧
        new.kind = kind ∧ new.parameters kind = parameters) := by
  have hnames := names_delivered (captured_emitEffect p ids effect hr) hr hkind rfl rfl rfl rfl
  refine ⟨_, (sendable_wrapped (.emitEffect ..)).1.decode, ?_⟩
  intro hroom
  have hcreated := created_effect hlimits.filed now hnames.messageType
    (by rw [hnames.hresult]; exact hok) (by rw [hnames.effectId]; exact hid) hroom
  rw [hnames.key] at hcreated
  exact ⟨_, hcreated, (kind_createdEffect _).trans hnames.effectKind, hparameters⟩

/-- A successful `SetParameters` merges exactly the selected parameters of the structure into the
tracked effect; a `CreateEffect` sets all of them, or leaves the defaults without a structure. -/
theorem partial_updates (p : Producer) (ids : Producer.EffectIds) (kind : EffectKind) (hr : Int32)
    (hkind : p.effectKindFromGuid ids.guid = kind) (hknown : kind ≠ .unknown)
    (hid : ids.effectId ≠ 0) (hok : 0 ≤ hr)
    (hs : (ClippingEngine.after sine settings calls).sources.find? source = some s) (now : ℚ) :
    let key : EffectKey := ⟨ids.deviceId, ids.effectId⟩
    (∀ (effect : DIEFFECT) (flags : UInt32), effect.Valid p.win64 (hasFlags flags) kind →
      ∃ frame, decode (serializeEvent (p.setParameters ids (some effect) flags hr)) = .ok frame ∧
        (s.effects.contains key = true → s.refuses frame = false) ∧
        (s.refuses frame = false → ∃ new, (s.apply frame now).effects.find? key = some new ∧
          new.kind = kind ∧ new.parameters kind =
            (s.parametersOf key kind).merge (hasFlags flags) (effect.parameters kind))) ∧
    (∀ effect : DIEFFECT, effect.Valid p.win64 (fun _ => true) kind →
      ∃ frame, decode (serializeEvent
          (p.emitEffect ids.deviceId ids.effectId ids.guid (some effect) hr)) = .ok frame ∧
        (s.refuses frame = false → ∃ new, (s.apply frame now).effects.find? key = some new ∧
          new.kind = kind ∧ new.parameters kind = effect.parameters kind)) ∧
    ∃ frame, decode (serializeEvent
        (p.emitEffect ids.deviceId ids.effectId ids.guid none hr)) = .ok frame ∧
      (s.refuses frame = false → ∃ new, (s.apply frame now).effects.find? key = some new ∧
        new.kind = kind ∧ new.parameters kind = .defaults kind) := by
  intro key
  have hlimits := (withinLimits_after calls).sources source s hs
  refine ⟨fun effect flags hvalid => ?_, fun effect hvalid => ?_, ?_⟩
  · exact update_merges hlimits hkind hknown hid hok now hvalid
  · apply creation_sets hlimits hkind hid hok now
    rw [parameters_createdEffect, parameters_emitEffect hr hkind hvalid]
    rw [presence_emitEffect]
    exact nofun
  · apply creation_sets hlimits hkind hid hok now
    apply parameters_createdEffect_absent
    rfl

def constantProducer : Producer where
  processId := 7
  processId_ne := by decide
  sessionTicks := 5000
  qpcFrequency := 10000000
  win64 := true
  basename := "game.exe".toList
  effectKindFromGuid := fun _ => .constant
  clock := fun sequence => sequence.toUInt64

/-- A structure of full size with a gain, and pointers that must not be looked at. -/
def gainUpdate : DIEFFECT where
  dwSize := some 80
  dwFlags := some 0
  dwDuration := some 0
  dwSamplePeriod := some 0
  dwGain := some 4321
  dwTriggerButton := some 0
  dwTriggerRepeatInterval := some 0
  cAxes := some 8
  rgdwAxes := none
  rglDirection := none
  lpEnvelope := none
  cbTypeSpecificParams := some 4
  lpvTypeSpecificParams := none
  dwStartDelay := some 0

theorem gainUpdate_valid : gainUpdate.Valid true (hasFlags DIEP_GAIN) .constant where
  full := ⟨80, rfl, by decide⟩
  fields := by simp [gainUpdate]
  axes h := absurd h (by decide)
  directions h := absurd h (by decide)
  envelope h := absurd h (by decide)
  typeSpecific h := absurd h (by decide)

def wholeEffect : DIEFFECT :=
  { gainUpdate with
    dwGain := some 10000
    cAxes := some 1
    rgdwAxes := some (some fun _ => some 0)
    rglDirection := some (some fun _ => some 0)
    lpEnvelope := some none
    lpvTypeSpecificParams := some (some fun _ => some 5000) }

def createdFrame : ProtocolFrame :=
  (decode (serializeEvent (constantProducer.emitEffect 1 1 (Vector.replicate 16 0)
    (some wholeEffect) 0))).toOption.get (by decide +kernel)

def playingCalls : List Call :=
  [.connect ⟨⟨7, "s"⟩, "1.0", "game.exe", 64⟩ 1 0, .processFrame ⟨7, "s"⟩ createdFrame 1]

def playingSource : SourceState :=
  ((ClippingEngine.after flat {} playingCalls).sources.find? ⟨7, "s"⟩).get (by decide +kernel)

/-- An update of the gain alone leaves the force that was created. -/
theorem partial_updates_sample :
    ∃ frame new, decode (serializeEvent (constantProducer.setParameters
        ⟨1, 1, Vector.replicate 16 0⟩ (some gainUpdate) DIEP_GAIN 0)) = .ok frame ∧
      (playingSource.apply frame 5).effects.find? ⟨1, 1⟩ = some new ∧ new.kind = .constant ∧
      new.parameters .constant =
        { playingSource.parametersOf ⟨1, 1⟩ .constant with gain := 4321 / 10000 } ∧
      (new.parameters .constant).force = .constant 5000 := by
  have htracked : playingSource.effects.contains ⟨1, 1⟩ = true := by decide +kernel
  have hmerged : (playingSource.parametersOf ⟨1, 1⟩ .constant).merge (hasFlags DIEP_GAIN)
      (gainUpdate.parameters .constant) =
        { playingSource.parametersOf ⟨1, 1⟩ .constant with gain := 4321 / 10000 } := by
    decide +kernel
  have hforce : ((playingSource.parametersOf ⟨1, 1⟩ .constant).merge (hasFlags DIEP_GAIN)
      (gainUpdate.parameters .constant)).force = .constant 5000 := by decide +kernel
  have hfound : (ClippingEngine.after flat {} playingCalls).sources.find? ⟨7, "s"⟩ =
      some playingSource := (Option.some_get _).symm
  obtain ⟨frame, hframe, hroom, hmerge⟩ := (partial_updates constantProducer
    ⟨1, 1, Vector.replicate 16 0⟩ .constant 0 rfl nofun (by decide) (by decide) hfound 5).1
    gainUpdate DIEP_GAIN gainUpdate_valid
  obtain ⟨new, hnew, hkind, hparameters⟩ := hmerge (hroom htracked)
  exact ⟨frame, new, hframe, hnew, hkind, hparameters.trans hmerged,
    (congrArg Parameters.force hparameters).trans hforce⟩

end Updates

end FfbInterceptor.Engine
