import FfbInterceptor.Engine.Updates
import FfbInterceptor.Engine.Finished
import FfbInterceptor.Engine.Locality
import FfbInterceptor.Library.Latch

/-! The loss of the acquisition: a flag shared by the wrappers of a device stops its effects in the
detector once for each loss the wrappers look for. -/
namespace FfbInterceptor.Engine
open FfbInterceptor.Library FfbInterceptor.Protocol FfbInterceptor.Server FfbInterceptor.Telemetry

def DIERR_INPUTLOST : Int32 := -2147024866
def DIERR_NOTACQUIRED : Int32 := -2147024884
def DIERR_OTHERAPPHASPRIO : Int32 := -2147024891

def acquisitionIsLost (hr : Int32) : Bool :=
  hr = DIERR_INPUTLOST || hr = DIERR_NOTACQUIRED || hr = DIERR_OTHERAPPHASPRIO

structure WrapperDevice8State where
  playbackInvalidated : Bool := true

/-- The wrappers of one device; the allocation of their state may have failed. -/
structure WrapperDevice8 where
  deviceId : UInt32
  state : Option WrapperDevice8State

namespace WrapperDevice8

variable (p : Producer) (wrapper : WrapperDevice8)

/-- The exchange of the flag, and the command if it was not set. -/
def invalidatePlayback (telemetryHr : Int32) : WrapperDevice8 × List Event :=
  match wrapper.state with
  | none => (wrapper, [])
  | some state =>
    ({ wrapper with state := some { state with playbackInvalidated := true } },
      if state.playbackInvalidated then []
      else [p.emitDeviceCommand wrapper.deviceId DisffcStopAll telemetryHr])

def acquire (hr : Int32) : WrapperDevice8 × List Event :=
  if 0 ≤ hr ∧ wrapper.state.isSome then
    ({ wrapper with state := wrapper.state.map fun state => { state with playbackInvalidated := false } },
      [])
  else if acquisitionIsLost hr then wrapper.invalidatePlayback p 0
  else (wrapper, [])

def unacquire (hr : Int32) : WrapperDevice8 × List Event :=
  if 0 ≤ hr then wrapper.invalidatePlayback p hr else (wrapper, [])

/-- What the three calls that read the device do with their result. -/
def checkAcquisition (hr : Int32) : WrapperDevice8 × List Event :=
  if acquisitionIsLost hr then wrapper.invalidatePlayback p 0 else (wrapper, [])

def getDeviceState (hr : Int32) : WrapperDevice8 × List Event := wrapper.checkAcquisition p hr

def getDeviceData (hr : Int32) : WrapperDevice8 × List Event := wrapper.checkAcquisition p hr

def poll (hr : Int32) : WrapperDevice8 × List Event := wrapper.checkAcquisition p hr

def sendForceFeedbackCommand (flags : UInt32) (hr : Int32) : WrapperDevice8 × List Event :=
  (wrapper, [p.emitDeviceCommand wrapper.deviceId flags hr])

end WrapperDevice8

/-- A call on a wrapper of the device or on one of its effects, with the result of the real call. -/
inductive DeviceCall where
  | acquire (hr : Int32)
  | unacquire (hr : Int32)
  | getDeviceState (hr : Int32)
  | getDeviceData (hr : Int32)
  | poll (hr : Int32)
  | sendForceFeedbackCommand (flags : UInt32) (hr : Int32)
  | start (effectId : UInt32) (guid : Vector UInt8 16) (iterations flags : UInt32) (hr : Int32)
  | stop (effectId : UInt32) (guid : Vector UInt8 16) (hr : Int32)
  | setParameters (effectId : UInt32) (guid : Vector UInt8 16) (effect : Option DIEFFECT)
      (flags : UInt32) (hr : Int32)

namespace DeviceCall

def result : DeviceCall → Int32
  | acquire hr | unacquire hr | getDeviceState hr | getDeviceData hr | poll hr
  | sendForceFeedbackCommand _ hr | start _ _ _ _ hr | stop _ _ hr | setParameters _ _ _ _ hr => hr

def acquires : DeviceCall → Bool
  | acquire hr => 0 ≤ hr
  | _ => false

/-- The device is no longer acquired: the result says so, or an `Unacquire` succeeded. -/
def loses : DeviceCall → Bool
  | unacquire hr => 0 ≤ hr || acquisitionIsLost hr
  | call => acquisitionIsLost call.result

/-- An effect begins to play: a successful `Start`, `DIEP_START` update or restarting update. -/
def begins : DeviceCall → Bool
  | start _ _ _ _ hr => 0 ≤ hr
  | setParameters _ _ _ flags hr =>
    0 ≤ hr && (hasFlags flags DiepStart || hr &&& DiEffectRestarted ≠ 0)
  | _ => false

/-- The wrappers look for a loss in the result of these calls. -/
def looks : DeviceCall → Bool
  | acquire _ | getDeviceState _ | getDeviceData _ | poll _ => true
  | unacquire hr => 0 ≤ hr
  | _ => false

/-- What a call does to the wrappers, and the events it emits. -/
def perform (p : Producer) (wrapper : WrapperDevice8) : DeviceCall → WrapperDevice8 × List Event
  | acquire hr => wrapper.acquire p hr
  | unacquire hr => wrapper.unacquire p hr
  | getDeviceState hr => wrapper.getDeviceState p hr
  | getDeviceData hr => wrapper.getDeviceData p hr
  | poll hr => wrapper.poll p hr
  | sendForceFeedbackCommand flags hr => wrapper.sendForceFeedbackCommand p flags hr
  | start effectId guid iterations flags hr =>
    (wrapper, [p.start ⟨wrapper.deviceId, effectId, guid⟩ iterations flags hr])
  | stop effectId guid hr => (wrapper, [p.stop ⟨wrapper.deviceId, effectId, guid⟩ hr])
  | setParameters effectId guid effect flags hr =>
    (wrapper, [p.setParameters ⟨wrapper.deviceId, effectId, guid⟩ effect flags hr])

/-- How a call moves the flag of the wrappers: set is tripped. -/
def move (call : DeviceCall) : Latch.Move :=
  if call.acquires then .arm else if call.looks && call.loses then .trip else .leave

end DeviceCall
def SourceState.deliver (now : ℚ) (s : SourceState) (event : Event) : SourceState :=
  match decode (serializeEvent event) with
  | .ok frame => s.apply frame now
  | .error _ => s

def SourceState.Quiet (s : SourceState) (deviceId : UInt32) : Prop :=
  ∀ key effect, key.deviceId = deviceId → s.effects.find? key = some effect → effect.active = false

/-- A device in the hands of the game: its wrappers, what the detector has made of the frames so far,
and of the history whether the device is acquired, whether it was lost since an effect last began, and
how often it was acquired and was stopped for a loss. -/
structure DeviceHistory where
  wrapper : WrapperDevice8
  source : SourceState
  acquired : Bool := false
  lost : Bool := false
  acquisitions : Nat := 0
  stopAlls : Nat := 0

namespace DeviceHistory

def start (source : SourceState) (deviceId : UInt32) (allocated : Bool) : DeviceHistory where
  wrapper := ⟨deviceId, if allocated then some {} else none⟩
  source := source

def step (p : Producer) (history : DeviceHistory) (call : DeviceCall × ℚ) : DeviceHistory :=
  let (wrapper, events) := call.1.perform p history.wrapper
  { wrapper := wrapper
    source := events.foldl (SourceState.deliver call.2) history.source
    acquired := !call.1.loses && (history.acquired || call.1.acquires)
    lost := call.1.loses || (history.lost && !call.1.begins)
    acquisitions := history.acquisitions + call.1.acquires.toNat
    stopAlls := history.stopAlls + if call.1.looks then events.length else 0 }

/-- The device is lost in a call whose result the wrappers do not look at, or without a state to keep
the flag in, while an effect is active. -/
def Unnoticed (history : DeviceHistory) (call : DeviceCall × ℚ) : Prop :=
  call.1.loses = true ∧ (call.1.looks = false ∨ history.wrapper.state = none) ∧
    ¬ history.source.Quiet history.wrapper.deviceId

/-- What begins to play does so on an acquired device. -/
def InOrder (history : DeviceHistory) (call : DeviceCall × ℚ) : Prop :=
  call.1.begins = true → history.acquired = true

end DeviceHistory

section Slots
variable {slot : Slot} {now : ℚ}

def Slot.Quiet (slot : Slot) : Prop := ∀ effect, slot.effect = some effect → effect.active = false

theorem Slot.Quiet.map (h : slot.Quiet) {f : EffectState → EffectState}
    (hf : ∀ effect : EffectState, effect.active = false → (f effect).active = false)
    (device : DeviceState) : Slot.Quiet ⟨device, slot.effect.map f⟩ := by
  intro effect heffect
  obtain ⟨before, hbefore, rfl⟩ := Option.map_eq_some_iff.mp heffect
  exact hf before (h before hbefore)

theorem Slot.quiet_of_stop (slot : Slot) (device : DeviceState) :
    Slot.Quiet ⟨device, slot.effect.map EffectState.stop⟩ := by
  intro effect heffect
  obtain ⟨before, -, rfl⟩ := Option.map_eq_some_iff.mp heffect
  rfl

theorem Slot.Quiet.command (h : slot.Quiet) (command : UInt32) : (slot.command command now).Quiet := by
  apply Slot.command_keeps (P := Slot.Quiet) _ _ _ _ _ h command
  · exact fun s hs => s.quiet_of_stop _
  · exact fun s hs => s.quiet_of_stop _
  · intro s hs
    unfold Slot.pause
    split <;> exact hs
  · intro s hs
    unfold Slot.resume
    split
    · apply hs.map
      intro effect hactive
      rw [EffectState.resumeAfterPause_of_inactive hactive]
      exact hactive
    · exact hs
  · exact fun s enabled hs => hs

theorem active_withKind {effect : EffectState} (kind : EffectKind) :
    (effect.withKind kind).active = effect.active :=
  EffectState.active_of_schedule (EffectState.schedule_withKind kind)

/-- An update that does not begin a playback leaves an inactive effect inactive. -/
theorem Slot.Quiet.update (h : slot.Quiet) {frame : ProtocolFrame}
    (hbegins : ¬ (Happening.updated frame).Begins) : (slot.update frame now).Quiet := by
  have hstart : hasFlags frame.flags DiepStart = false ∧ EffectState.restarted frame = false := by
    simpa [Happening.Begins] using hbegins
  have hinactive : (slot.effectOf frame .unknown).active = false := by
    unfold Slot.effectOf
    cases heffect : slot.effect with
    | none => rfl
    | some effect => exact h effect heffect
  intro effect heffect
  obtain rfl := Option.some.inj heffect
  rw [hinactive, Bool.false_and, if_neg Bool.false_ne_true,
    update_of_kept hstart.1 hstart.2 (by rw [hinactive, Bool.false_and])]
  exact (EffectState.active_of_schedule (EffectState.schedule_assign frame)).trans hinactive

theorem Slot.Quiet.take (h : slot.Quiet) {event : Happening} {key : EffectKey} (hfor : event.For key)
    (hbegins : ¬ event.Begins) : (slot.take now event).Quiet := by
  have hkind : ∀ kind, Slot.Quiet ⟨slot.device, slot.effect.map fun effect => effect.withKind kind⟩ :=
    fun kind => h.map (fun effect hactive => (active_withKind kind).trans hactive) _
  cases event with
  | nothing | gain gain => exact h
  | forgotten =>
    intro effect heffect
    cases heffect
  | created effect =>
    intro new hnew
    obtain rfl := Option.some.inj hnew
    exact hfor.2
  | updated frame => exact h.update hbegins
  | commanded frame =>
    simp only [Slot.take, Slot.obey]
    split
    · next hstart => exact absurd hstart hbegins
    · exact h.map (fun effect hactive => rfl) _
    · exact h.map (fun effect hactive => rfl) _
    · intro effect heffect
      cases heffect
    · exact hkind frame.effectKind
    · exact hkind frame.effectKind
  | stopped => exact slot.quiet_of_stop _
  | device command => exact h.command command

end Slots
section Frames
variable {s : SourceState} {frame : ProtocolFrame} {deviceId : UInt32} {now : ℚ} {p : Producer}

theorem quiet_iff_slots : s.Quiet deviceId ↔
    ∀ key : EffectKey, key.deviceId = deviceId → (s.slot key).Quiet :=
  ⟨fun h key hkey effect => h key effect hkey, fun h key effect hkey => h key hkey effect⟩

theorem SourceState.Quiet.apply (h : s.Quiet deviceId) (hfiled : FiledEffects s.effects)
    (hbegins : ∀ key, ¬ Begins key (now, .frame frame)) : (s.apply frame now).Quiet deviceId := by
  rw [quiet_iff_slots] at h ⊢
  intro key hkey
  rw [slot_apply frame now hfiled key]
  refine (h key hkey).take (happening_for s key frame) ?_
  intro hbegun
  cases hevent : s.happening key frame with
  | commanded frame' =>
    obtain ⟨rfl, hsucceeded, hnamed, htype⟩ := happening_about.2 hevent
    rw [hevent] at hbegun
    exact hbegins key ⟨hsucceeded, hnamed, Or.inl ⟨htype, hbegun⟩⟩
  | updated frame' =>
    obtain ⟨rfl, hsucceeded, hnamed, htype⟩ := happening_about.1 hevent
    rw [hevent] at hbegun
    exact hbegins key ⟨hsucceeded, hnamed, Or.inr ⟨htype, hbegun⟩⟩
  | nothing | forgotten | gain _ | created _ | stopped | device _ =>
    rw [hevent] at hbegun
    exact hbegun

theorem find?_apply_failed (hfiled : FiledEffects s.effects) (hfailed : frame.hresult < 0)
    (htype : frame.messageType ≠ .hello) (hdrop : frame.messageType ≠ .dropNotice) (key : EffectKey) :
    (s.apply frame now).effects.find? key = s.effects.find? key := by
  have hnothing : s.happening key frame = .nothing := by
    unfold SourceState.happening SourceState.happens
    simp only [hdrop, hfailed, htype, ne_eq, not_false_eq_true, and_self, ↓reduceIte, ite_self]
  exact (slot_of_nothing hfiled hnothing now).1

/-- The stop of a loss reaches every effect of the device, tracked or not. -/
theorem quiet_stopAll (hlimits : s.WithinLimits) {hr : Int32} (hok : 0 ≤ hr) :
    (s.apply (p.emitDeviceCommand deviceId DisffcStopAll hr).delivered now).Quiet deviceId := by
  let frame := (p.emitDeviceCommand deviceId DisffcStopAll hr).delivered
  have htype : frame.messageType = .deviceCommand := rfl
  have hdevice : frame.deviceId = deviceId := rfl
  have hresult : frame.hresult = hr := rfl
  rw [quiet_iff_slots]
  intro key hkey
  have hslot := slot_apply frame now hlimits.filed key
  rw [hslot]
  unfold SourceState.happening
  cases hrefuses : s.refuses frame with
  | true =>
    -- without room for the device none of its effects is tracked
    have huntracked : s.devices.contains deviceId = false := by
      simp only [SourceState.refuses, htype, SourceState.lacksDevice, hdevice, Bool.and_eq_true,
        Bool.not_eq_true'] at hrefuses
      exact hrefuses.2.1
    intro effect heffect
    have hhoused := hlimits.housed key (Option.isSome_iff_exists.mpr ⟨effect, heffect⟩)
    rw [hkey, huntracked] at hhoused
    cases hhoused
  | false =>
    have hfailed : ¬ frame.hresult < 0 := Int32.not_lt.mpr (hresult ▸ hok)
    have hstopped : s.happens key frame = .device DisffcStopAll := by
      unfold SourceState.happens
      rw [if_neg (by rw [htype]; decide), if_neg (fun h => hfailed h.1)]
      unfold frameHappening
      rw [htype]
      exact if_pos (hdevice.trans hkey.symm)
    rw [hstopped]
    exact Slot.quiet_of_stop (s.slot key) _

end Frames
section Calls
variable {p : Producer} {call : DeviceCall} {wrapper : WrapperDevice8} {now : ℚ}

/-- What the event of a call says about it. -/
structure DeviceCall.Reports (p : Producer) (call : DeviceCall) (event : Event) : Prop where
  wrapped : p.Wrapped event
  hresult : event.delivered.hresult = call.result
  ordinary : event.delivered.messageType ≠ .hello ∧ event.delivered.messageType ≠ .dropNotice
  begins : ∀ key now, Begins key (now, .frame event.delivered) → call.begins = true

theorem deliver_eq {event : Event} (h : p.Wrapped event) (s : SourceState) (now : ℚ) :
    s.deliver now event = s.apply event.delivered now := by
  rw [SourceState.deliver, (sendable_wrapped h).1.decode]

theorem reports_deviceCommand (deviceId flags : UInt32) (hr : Int32) :
    (DeviceCall.sendForceFeedbackCommand flags hr).Reports p (p.emitDeviceCommand deviceId flags hr) where
  wrapped := .emitDeviceCommand deviceId flags hr
  hresult := rfl
  ordinary := ⟨nofun, nofun⟩
  begins := by
    rintro key now ⟨-, -, ⟨htype, -⟩ | ⟨htype, -⟩⟩
    · cases htype
    · cases htype

theorem reports_start (deviceId effectId : UInt32) (guid : Vector UInt8 16) (iterations flags : UInt32)
    (hr : Int32) : (DeviceCall.start effectId guid iterations flags hr).Reports p
      (p.start ⟨deviceId, effectId, guid⟩ iterations flags hr) where
  wrapped := .start ..
  hresult := rfl
  ordinary := ⟨nofun, nofun⟩
  begins _ _ h := decide_eq_true h.1

theorem reports_stop (deviceId effectId : UInt32) (guid : Vector UInt8 16) (hr : Int32) :
    (DeviceCall.stop effectId guid hr).Reports p (p.stop ⟨deviceId, effectId, guid⟩ hr) where
  wrapped := .stop ..
  hresult := rfl
  ordinary := ⟨nofun, nofun⟩
  begins := by
    rintro key now ⟨-, -, ⟨-, hcommand⟩ | ⟨htype, -⟩⟩
    · cases hcommand
    · cases htype

theorem reports_setParameters (deviceId effectId : UInt32) (guid : Vector UInt8 16)
    (effect : Option DIEFFECT) (flags : UInt32) (hr : Int32) :
    (DeviceCall.setParameters effectId guid effect flags hr).Reports p
      (p.setParameters ⟨deviceId, effectId, guid⟩ effect flags hr) := by
  have hcaptured : Captured (p.setParameters ⟨deviceId, effectId, guid⟩ none flags hr)
      (p.setParameters ⟨deviceId, effectId, guid⟩ effect flags hr) :=
    captured_fillEffectParameters _ _ (Nat.zero_le _) (Nat.zero_le _)
  have htype : (p.setParameters ⟨deviceId, effectId, guid⟩ effect flags hr).delivered.messageType =
      .effectParametersChanged := hcaptured.type
  have hresult : (p.setParameters ⟨deviceId, effectId, guid⟩ effect flags hr).delivered.hresult = hr :=
    hcaptured.hresult
  have hflags : (p.setParameters ⟨deviceId, effectId, guid⟩ effect flags hr).delivered.flags = flags := by
    refine (wireFlags_of_ne ?_).trans hcaptured.flags
    rw [hcaptured.type]
    exact nofun
  refine ⟨.setParameters .., hresult, by rw [htype]; exact ⟨nofun, nofun⟩, ?_⟩
  intro key now ⟨hok, _, hmeaning⟩
  rw [htype, hflags, EffectState.restarted, hresult] at hmeaning
  rw [hresult] at hok
  cases hmeaning with
  | inl hstart => cases hstart.1
  | inr hupdate => simpa [DeviceCall.begins, hok] using hupdate.2

theorem acquisitionIsLost_neg {hr : Int32} (h : acquisitionIsLost hr = true) : hr < 0 := by
  simp only [acquisitionIsLost, Bool.or_eq_true, decide_eq_true_eq] at h
  obtain (rfl | rfl) | rfl := h <;> decide

theorem acquisitionIsLost_of_ok {hr : Int32} (h : 0 ≤ hr) : acquisitionIsLost hr = false := by
  rw [Bool.eq_false_iff]
  exact fun hlost => absurd (acquisitionIsLost_neg hlost) (Int32.not_lt.mpr h)

theorem DeviceCall.loses_of_begins (h : call.begins = true) : call.loses = false := by
  cases call with
  | start effectId guid iterations flags hr => exact acquisitionIsLost_of_ok (of_decide_eq_true h)
  | setParameters effectId guid effect flags hr =>
    exact acquisitionIsLost_of_ok (of_decide_eq_true (Bool.and_eq_true_iff.mp h).1)
  | acquire hr | unacquire hr | getDeviceState hr | getDeviceData hr | poll hr
  | sendForceFeedbackCommand flags hr | stop effectId guid hr => cases h

theorem DeviceCall.result_neg (hloses : call.loses = true) (hlooks : call.looks = false) :
    call.result < 0 := by
  cases call with
  | unacquire hr =>
    simp only [DeviceCall.looks] at hlooks
    rw [DeviceCall.loses, hlooks, Bool.false_or] at hloses
    exact acquisitionIsLost_neg hloses
  | acquire hr | getDeviceState hr | getDeviceData hr | poll hr | sendForceFeedbackCommand flags hr
  | start effectId guid iterations flags hr | stop effectId guid hr
  | setParameters effectId guid effect flags hr => exact acquisitionIsLost_neg hloses

/-- What a call does: it trips the latch of the device, arms it, or only reports itself. -/
inductive DeviceCall.Performs (p : Producer) (call : DeviceCall) (wrapper : WrapperDevice8) :
    WrapperDevice8 × List Event → Prop where
  | trips (state : WrapperDevice8State) (hr : Int32) (hstate : wrapper.state = some state)
      (hloses : call.loses = true) (hbegins : call.begins = false) (hlooks : call.looks = true)
      (hacquires : call.acquires = false) (hok : 0 ≤ hr) :
      Performs p call wrapper
        ({ wrapper with state := some { state with playbackInvalidated := true } },
          if state.playbackInvalidated then []
          else [p.emitDeviceCommand wrapper.deviceId DisffcStopAll hr])
  | arms (state : WrapperDevice8State) (hstate : wrapper.state = some state)
      (hloses : call.loses = false) (hbegins : call.begins = false) (hlooks : call.looks = true)
      (hacquires : call.acquires = true) :
      Performs p call wrapper
        ({ wrapper with state := some { state with playbackInvalidated := false } }, [])
  | reports (events : List Event) (hevents : ∀ event ∈ events, call.Reports p event)
      (hlooks : call.looks = true → events = [])
      (hunnoticed : call.loses = true → call.looks = false ∨ wrapper.state = none)
      (hacquires : call.acquires = true → wrapper.state = none) :
      Performs p call wrapper (wrapper, events)

theorem performs_invalidatePlayback {hr : Int32} (hloses : call.loses = true)
    (hbegins : call.begins = false) (hlooks : call.looks = true) (hacquires : call.acquires = false)
    (hok : 0 ≤ hr) : call.Performs p wrapper (wrapper.invalidatePlayback p hr) := by
  unfold WrapperDevice8.invalidatePlayback
  cases hstate : wrapper.state with
  | none =>
    refine .reports [] ?_ (fun _ => rfl) (fun _ => .inr hstate) (fun _ => hstate)
    exact fun event hmem => absurd hmem List.not_mem_nil
  | some state => exact .trips state hr hstate hloses hbegins hlooks hacquires hok

/-- A call without an event of its own that finds nothing lost. -/
theorem performs_nothing (hloses : call.loses = false) (hacquires : call.acquires = false) :
    call.Performs p wrapper (wrapper, []) := by
  refine .reports [] ?_ (fun _ => rfl) ?_ ?_
  · exact fun event hmem => absurd hmem List.not_mem_nil
  · exact fun h => absurd h (by rw [hloses]; exact Bool.false_ne_true)
  · exact fun h => absurd h (by rw [hacquires]; exact Bool.false_ne_true)

theorem performs_checkAcquisition {hr : Int32} (hloses : call.loses = acquisitionIsLost hr)
    (hbegins : call.begins = false) (hlooks : call.looks = true) (hacquires : call.acquires = false) :
    call.Performs p wrapper (wrapper.checkAcquisition p hr) := by
  unfold WrapperDevice8.checkAcquisition
  cases hlost : acquisitionIsLost hr with
  | true => exact performs_invalidatePlayback (hloses.trans hlost) hbegins hlooks hacquires (by decide)
  | false => exact performs_nothing (hloses.trans hlost) hacquires

theorem performs_report {event : Event} (hreports : call.Reports p event) (hlooks : call.looks = false)
    (hacquires : call.acquires = false) : call.Performs p wrapper (wrapper, [event]) := by
  refine .reports [event] ?_ ?_ (fun _ => .inl hlooks) ?_
  · intro other hmem
    rw [List.mem_singleton.mp hmem]
    exact hreports
  · exact fun h => absurd h (by rw [hlooks]; exact Bool.false_ne_true)
  · exact fun h => absurd h (by rw [hacquires]; exact Bool.false_ne_true)

theorem performs (p : Producer) (call : DeviceCall) (wrapper : WrapperDevice8) :
    call.Performs p wrapper (call.perform p wrapper) := by
  cases call with
  | acquire hr =>
    simp only [DeviceCall.perform, WrapperDevice8.acquire]
    by_cases hok : 0 ≤ hr
    · have hkept : acquisitionIsLost hr = false := acquisitionIsLost_of_ok hok
      have hacquires : (DeviceCall.acquire hr).acquires = true := decide_eq_true hok
      cases hstate : wrapper.state with
      | none =>
        simp only [Option.isSome_none, Bool.false_eq_true, and_false, ↓reduceIte, hkept]
        refine .reports [] ?_ (fun _ => rfl) (fun _ => .inr hstate) (fun _ => hstate)
        exact fun event hmem => absurd hmem List.not_mem_nil
      | some state =>
        simp only [Option.isSome_some, and_true, hok, ↓reduceIte, Option.map_some]
        exact .arms state hstate hkept rfl rfl hacquires
    · have hacquires : (DeviceCall.acquire hr).acquires = false := decide_eq_false hok
      rw [if_neg (fun h => hok h.1)]
      exact performs_checkAcquisition rfl rfl rfl hacquires
  | unacquire hr =>
    simp only [DeviceCall.perform, WrapperDevice8.unacquire]
    by_cases hok : 0 ≤ hr
    · rw [if_pos hok]
      have hlooks : (DeviceCall.unacquire hr).looks = true := decide_eq_true hok
      refine performs_invalidatePlayback ?_ rfl hlooks rfl hok
      simp only [DeviceCall.loses, hok, decide_true, Bool.true_or]
    · rw [if_neg hok]
      have hlooks : (DeviceCall.unacquire hr).looks = false := decide_eq_false hok
      refine .reports [] ?_ (fun _ => rfl) (fun _ => .inl hlooks) nofun
      exact fun event hmem => absurd hmem List.not_mem_nil
  | getDeviceState hr | getDeviceData hr | poll hr => exact performs_checkAcquisition rfl rfl rfl rfl
  | sendForceFeedbackCommand flags hr =>
    exact performs_report (reports_deviceCommand wrapper.deviceId flags hr) rfl rfl
  | start effectId guid iterations flags hr =>
    exact performs_report (reports_start wrapper.deviceId effectId guid iterations flags hr) rfl rfl
  | stop effectId guid hr => exact performs_report (reports_stop wrapper.deviceId effectId guid hr) rfl rfl
  | setParameters effectId guid effect flags hr =>
    exact performs_report (reports_setParameters wrapper.deviceId effectId guid effect flags hr) rfl rfl

end Calls
section Histories
variable {p : Producer} {call : DeviceCall} {history : DeviceHistory} {deviceId : UInt32} {now : ℚ}
  {s : SourceState} {events : List Event}

theorem limits_deliver (h : s.WithinLimits) (hevents : ∀ event ∈ events, p.Wrapped event) :
    (events.foldl (SourceState.deliver now) s).WithinLimits := by
  induction events generalizing s with
  | nil => exact h
  | cons event events ih =>
    rw [List.foldl_cons, deliver_eq (hevents event List.mem_cons_self)]
    exact ih (h.apply _ now) fun e he => hevents e (List.mem_cons_of_mem _ he)

theorem quiet_deliver (h : s.Quiet deviceId) (hlimits : s.WithinLimits)
    (hevents : ∀ event ∈ events, call.Reports p event) (hbegins : call.begins = false) :
    (events.foldl (SourceState.deliver now) s).Quiet deviceId := by
  induction events generalizing s with
  | nil => exact h
  | cons event events ih =>
    have hreports := hevents event List.mem_cons_self
    rw [List.foldl_cons, deliver_eq hreports.wrapped]
    refine ih (h.apply hlimits.filed ?_) (hlimits.apply _ now) fun e he =>
      hevents e (List.mem_cons_of_mem _ he)
    intro key hbegun
    rw [hreports.begins key now hbegun] at hbegins
    cases hbegins

theorem find?_deliver (hlimits : s.WithinLimits) (hevents : ∀ event ∈ events, call.Reports p event)
    (hfailed : call.result < 0) (key : EffectKey) :
    (events.foldl (SourceState.deliver now) s).effects.find? key = s.effects.find? key := by
  induction events generalizing s with
  | nil => rfl
  | cons event events ih =>
    have hreports := hevents event List.mem_cons_self
    rw [List.foldl_cons, deliver_eq hreports.wrapped,
      ih (hlimits.apply _ now) fun e he => hevents e (List.mem_cons_of_mem _ he)]
    exact find?_apply_failed hlimits.filed (hreports.hresult ▸ hfailed) hreports.ordinary.1
      hreports.ordinary.2 key

namespace DeviceHistory

/-- The tables of the detector are in order, and the wrappers are those of the device. -/
structure Housed (history : DeviceHistory) (deviceId : UInt32) : Prop where
  limits : history.source.WithinLimits
  device : history.wrapper.deviceId = deviceId

theorem Housed.step (h : history.Housed deviceId) (call : DeviceCall × ℚ) :
    (history.step p call).Housed deviceId := by
  have hperforms := performs p call.1 history.wrapper
  unfold DeviceHistory.step
  generalize call.1.perform p history.wrapper = done at hperforms ⊢
  cases hperforms with
  | trips state hr hstate hloses hbegins hlooks hacquires hok =>
    refine ⟨?_, h.device⟩
    apply limits_deliver h.limits (p := p)
    intro event hmem
    split at hmem
    · cases hmem
    · rw [List.mem_singleton.mp hmem]
      exact .emitDeviceCommand ..
  | arms state hstate hloses hbegins hlooks hacquires => exact ⟨h.limits, h.device⟩
  | reports events hevents hlooks hunnoticed hacquires =>
    exact ⟨limits_deliver h.limits fun event hmem => (hevents event hmem).wrapped, h.device⟩

structure Sound (history : DeviceHistory) (deviceId : UInt32) : Prop where
  housed : history.Housed deviceId
  invalidated : ∀ state, history.wrapper.state = some state → state.playbackInvalidated = true →
    history.source.Quiet deviceId
  acquired : ∀ state, history.wrapper.state = some state → history.acquired = true →
    state.playbackInvalidated = false
  lost : history.lost = true → history.source.Quiet deviceId

theorem Sound.step (h : history.Sound deviceId) {call : DeviceCall × ℚ}
    (horder : history.InOrder call) (hnoticed : ¬ history.Unnoticed call) :
    (history.step p call).Sound deviceId := by
  have hhoused := h.housed.step (p := p) call
  have hperforms := performs p call.1 history.wrapper
  unfold DeviceHistory.step at hhoused ⊢
  generalize call.1.perform p history.wrapper = done at hperforms hhoused ⊢
  cases hperforms with
  | trips state hr hstate hloses hbegins hlooks hacquires hok =>
    have hquiet : ((if state.playbackInvalidated then []
        else [p.emitDeviceCommand history.wrapper.deviceId DisffcStopAll hr]).foldl
          (SourceState.deliver call.2) history.source).Quiet deviceId := by
      cases hflag : state.playbackInvalidated with
      | true => exact h.invalidated state hstate hflag
      | false =>
        rw [if_neg Bool.false_ne_true, h.housed.device, List.foldl_cons, List.foldl_nil,
          deliver_eq (.emitDeviceCommand deviceId DisffcStopAll hr)]
        exact quiet_stopAll h.housed.limits hok
    refine ⟨hhoused, fun _ _ _ => hquiet, ?_, fun _ => hquiet⟩
    intro _ _ hacquired
    simp [hloses] at hacquired
  | arms state hstate hloses hbegins hlooks hacquires =>
    refine ⟨hhoused, ?_, ?_, ?_⟩
    · intro after hafter hflag
      obtain rfl := Option.some.inj hafter
      cases hflag
    · intro after hafter _
      obtain rfl := Option.some.inj hafter
      rfl
    · intro hlost
      exact h.lost (by simpa [hloses, hbegins] using hlost)
  | reports events hevents hlooks hunnoticed hacquires =>
    by_cases hbegins : call.1.begins = true
    · -- what begins does so on an acquired device, where the flag is not set
      have hunset := fun state hstate => h.acquired state hstate (horder hbegins)
      refine ⟨hhoused, ?_, fun state hstate _ => hunset state hstate, ?_⟩
      · intro state hstate hflag
        rw [hunset state hstate] at hflag
        cases hflag
      · intro hlost
        simp [DeviceCall.loses_of_begins hbegins, hbegins] at hlost
    · rw [Bool.not_eq_true] at hbegins
      have hkept : history.source.Quiet deviceId →
          (events.foldl (SourceState.deliver call.2) history.source).Quiet deviceId :=
        fun hquiet => quiet_deliver hquiet h.housed.limits hevents hbegins
      refine ⟨hhoused, fun state hstate hflag => hkept (h.invalidated state hstate hflag), ?_, ?_⟩
      · intro state hstate hacquired
        have hbefore : history.acquired = true := by
          simp only [Bool.and_eq_true, Bool.or_eq_true] at hacquired
          refine hacquired.2.resolve_right fun hacq => ?_
          rw [hacquires hacq] at hstate
          cases hstate
        exact h.acquired state hstate hbefore
      · intro hlost
        apply hkept
        by_cases hloses : call.1.loses = true
        · by_contra hactive
          exact hnoticed ⟨hloses, hunnoticed hloses, h.housed.device ▸ hactive⟩
        · exact h.lost (by simpa [hloses, hbegins] using hlost)

theorem Housed.unnoticed (h : history.Housed deviceId) {call : DeviceCall × ℚ}
    (hunnoticed : history.Unnoticed call) : (history.step p call).lost = true ∧
      ¬ (history.step p call).source.Quiet deviceId := by
  obtain ⟨hloses, hblind, hactive⟩ := hunnoticed
  have hperforms := performs p call.1 history.wrapper
  unfold DeviceHistory.step
  generalize call.1.perform p history.wrapper = done at hperforms ⊢
  cases hperforms with
  | trips state hr hstate _ _ hlooks _ _ =>
    rw [hlooks, hstate] at hblind
    cases hblind with
    | inl h => cases h
    | inr h => cases h
  | arms state hstate hkept _ _ _ =>
    rw [hloses] at hkept
    cases hkept
  | reports events hevents hlooks _ _ =>
    refine ⟨by simp [hloses], fun hquiet => hactive ?_⟩
    intro key effect hkey heffect
    refine hquiet key effect (hkey.trans h.device) ?_
    cases hlooked : call.1.looks with
    | true =>
      rw [hlooks hlooked]
      exact heffect
    | false =>
      exact (find?_deliver h.limits hevents (DeviceCall.result_neg hloses hlooked) key).trans heffect

/-- The flag of the wrappers is a latch: acquiring arms it, a loss that is looked for trips it. -/
theorem latch_step {state : WrapperDevice8State} (hstate : history.wrapper.state = some state)
    (call : DeviceCall × ℚ) :
    (history.step p call).wrapper.state =
        some ⟨Latch.next state.playbackInvalidated call.1.move⟩ ∧
      (history.step p call).stopAlls =
        history.stopAlls + (Latch.signals state.playbackInvalidated call.1.move).toNat := by
  have hperforms := performs p call.1 history.wrapper
  unfold DeviceHistory.step
  generalize call.1.perform p history.wrapper = done at hperforms ⊢
  cases hperforms with
  | trips tripped hr htripped hloses _ hlooks hacquires _ =>
    obtain rfl := Option.some.inj (htripped.symm.trans hstate)
    have hmove : call.1.move = .trip := by simp [DeviceCall.move, hacquires, hlooks, hloses]
    refine ⟨by rw [hmove]; rfl, ?_⟩
    simp only [hmove, hlooks, ↓reduceIte]
    cases tripped.playbackInvalidated <;> rfl
  | arms armed harmed _ _ hlooks hacquires =>
    have hmove : call.1.move = .arm := by simp [DeviceCall.move, hacquires]
    refine ⟨by rw [hmove]; rfl, ?_⟩
    simp only [hmove, List.length_nil, ite_self]
    rfl
  | reports events _ hlooks hunnoticed hacquires =>
    have hnot : call.1.acquires = false := by
      rw [Bool.eq_false_iff]
      intro hacq
      rw [hacquires hacq] at hstate
      cases hstate
    have hmove : call.1.move = .leave := by
      by_cases hloses : call.1.loses = true
      · cases hunnoticed hloses with
        | inl hblind => simp [DeviceCall.move, hnot, hblind]
        | inr hnone =>
          rw [hnone] at hstate
          cases hstate
      · simp [DeviceCall.move, hnot, hloses]
    refine ⟨by rw [hmove]; exact hstate, ?_⟩
    simp only [hmove]
    split
    · next hlooked =>
      rw [hlooks hlooked]
      rfl
    · rfl

theorem unlatched_step (hstate : history.wrapper.state = none) (call : DeviceCall × ℚ) :
    (history.step p call).wrapper.state = none ∧
      (history.step p call).stopAlls = history.stopAlls := by
  have hperforms := performs p call.1 history.wrapper
  unfold DeviceHistory.step
  generalize call.1.perform p history.wrapper = done at hperforms ⊢
  cases hperforms with
  | trips state _ hsome _ _ _ _ _ | arms state hsome _ _ _ _ =>
    rw [hstate] at hsome
    cases hsome
  | reports events _ hlooks _ _ =>
    refine ⟨hstate, ?_⟩
    simp only
    split
    · next hlooked =>
      rw [hlooks hlooked]
      rfl
    · rfl

theorem acquisitions_step (call : DeviceCall × ℚ) : (history.step p call).acquisitions =
    history.acquisitions + call.1.acquires.toNat := rfl

theorem move_eq_arm_iff (call : DeviceCall) : call.move = .arm ↔ call.acquires = true := by
  unfold DeviceCall.move
  cases call.acquires with
  | true => simp
  | false => cases call.looks && call.loses <;> simp

def moves (calls : List (DeviceCall × ℚ)) : List Latch.Move := calls.map fun call => call.1.move

@[simp] theorem moves_cons (call : DeviceCall × ℚ) (calls : List (DeviceCall × ℚ)) :
    moves (call :: calls) = call.1.move :: moves calls := rfl

theorem acquisitions_run (calls : List (DeviceCall × ℚ)) :
    (Runs.run (DeviceHistory.step p) history calls).acquisitions =
      history.acquisitions + (moves calls).count .arm := by
  induction calls generalizing history with
  | nil => rfl
  | cons call calls ih =>
    have hfirst : call.1.acquires.toNat = if call.1.move == .arm then 1 else 0 := by
      cases hacquires : call.1.acquires with
      | true => simp [(move_eq_arm_iff call.1).mpr hacquires]
      | false => simp [mt (move_eq_arm_iff call.1).mp (by rw [hacquires]; exact Bool.false_ne_true)]
    rw [Runs.run_cons, ih, acquisitions_step, moves_cons, List.count_cons, hfirst]
    omega

theorem stopAlls_run {state : WrapperDevice8State} (hstate : history.wrapper.state = some state)
    (calls : List (DeviceCall × ℚ)) :
    (Runs.run (DeviceHistory.step p) history calls).stopAlls =
      history.stopAlls + Latch.signalCount state.playbackInvalidated (moves calls) := by
  induction calls generalizing history state with
  | nil => rfl
  | cons call calls ih =>
    obtain ⟨hnext, hcount⟩ := latch_step (p := p) hstate call
    rw [Runs.run_cons, ih hnext, hcount, moves_cons, Latch.signalCount, Nat.add_assoc]

theorem stopAlls_run_none (hstate : history.wrapper.state = none) (calls : List (DeviceCall × ℚ)) :
    (Runs.run (DeviceHistory.step p) history calls).stopAlls = history.stopAlls := by
  induction calls generalizing history with
  | nil => rfl
  | cons call calls ih =>
    obtain ⟨hnext, hcount⟩ := unlatched_step (p := p) hstate call
    rw [Runs.run_cons, ih hnext, hcount]

theorem stopAlls_le (source : SourceState) (deviceId : UInt32) (allocated : Bool)
    (calls : List (DeviceCall × ℚ)) :
    (Runs.run (DeviceHistory.step p) (start source deviceId allocated) calls).stopAlls ≤
      (Runs.run (DeviceHistory.step p) (start source deviceId allocated) calls).acquisitions := by
  cases allocated with
  | false => exact (stopAlls_run_none rfl calls).trans_le (Nat.zero_le _)
  | true =>
    rw [stopAlls_run rfl, acquisitions_run]
    exact Nat.add_le_add_left (Latch.signalCount_le true (moves calls)) 0

/-- Until the device is acquired again it is stopped once at most. -/
theorem stopAlls_run_le {calls : List (DeviceCall × ℚ)}
    (hkept : ∀ call ∈ calls, call.1.acquires = false) :
    (Runs.run (DeviceHistory.step p) history calls).stopAlls ≤ history.stopAlls + 1 := by
  cases hstate : history.wrapper.state with
  | none => exact (stopAlls_run_none hstate calls).trans_le (Nat.le_succ _)
  | some state =>
    rw [stopAlls_run hstate]
    apply Nat.add_le_add_left
    apply Latch.signalCount_le_one
    intro harm
    obtain ⟨call, hmem, hmove⟩ := List.mem_map.mp harm
    have hacquires := (move_eq_arm_iff call.1).mp hmove
    rw [hkept call hmem] at hacquires
    cases hacquires

theorem sound_start {source : SourceState} (hlimits : source.WithinLimits)
    (hquiet : source.Quiet deviceId) (allocated : Bool) :
    (start source deviceId allocated).Sound deviceId where
  housed := ⟨hlimits, rfl⟩
  invalidated _ _ _ := hquiet
  acquired _ _ h := nomatch h
  lost h := nomatch h

end DeviceHistory

open DeviceHistory in
/-- After a loss no effect of the device is active until one begins anew, in every run in which no loss
with an active effect escapes the wrappers and in no other; and it is stopped for a loss at most once
for each time it was acquired. -/
theorem loss_stops_iff (p : Producer) {source : SourceState} (hlimits : source.WithinLimits)
    {deviceId : UInt32} (hquiet : source.Quiet deviceId) (allocated : Bool)
    (calls : List (DeviceCall × ℚ))
    (horder : Runs.Throughout (step p) InOrder (start source deviceId allocated) calls) :
    let after := Runs.run (step p) (start source deviceId allocated)
    ((∀ before, before <+: calls → (after before).lost = true → (after before).source.Quiet deviceId) ↔
      Runs.Throughout (step p) (fun history call => ¬ history.Unnoticed call)
        (start source deviceId allocated) calls) ∧
    (∀ before, before <+: calls → (after before).stopAlls ≤ (after before).acquisitions) ∧
    ∀ before stretch, before ++ stretch <+: calls → (∀ call ∈ stretch, call.1.acquires = false) →
      (after (before ++ stretch)).stopAlls ≤ (after before).stopAlls + 1 := by
  intro after
  have hhoused : ∀ before, (after before).Housed deviceId := fun before =>
    Runs.run_invariant (P := fun history : DeviceHistory => history.Housed deviceId)
      (fun history call h => h.step call) (sound_start hlimits hquiet allocated).housed before
  refine ⟨⟨?_, ?_⟩, ?_, ?_⟩
  · intro hstops before call rest hsplit hunnoticed
    obtain ⟨hlost, hactive⟩ := (hhoused before).unnoticed (p := p) hunnoticed
    have hlast : after (before ++ [call]) = (after before).step p call := Runs.run_append _ _ _ _
    refine hactive ?_
    rw [← hlast] at hlost ⊢
    exact hstops _ ⟨rest, by rw [hsplit, List.append_assoc, List.singleton_append]⟩ hlost
  · intro hnoticed before hbefore
    have hboth : Runs.Throughout (step p)
        (fun history call => history.InOrder call ∧ ¬ history.Unnoticed call)
        (start source deviceId allocated) before :=
      fun first call rest hsplit => ⟨horder.initial hbefore first call rest hsplit,
        hnoticed.initial hbefore first call rest hsplit⟩
    have hsound := hboth.invariant (P := fun history : DeviceHistory => history.Sound deviceId)
      (fun history call hsuits h => h.step hsuits.1 hsuits.2) (sound_start hlimits hquiet allocated)
    exact hsound.lost
  · exact fun before _ => stopAlls_le source deviceId allocated before
  · intro before stretch _ hkept
    have hsplit : after (before ++ stretch) = Runs.run (step p) (after before) stretch :=
      Runs.run_append _ _ _ _
    rw [hsplit]
    exact stopAlls_run_le hkept

end Histories

section Samples
open DeviceHistory

def sampleGuid : Vector UInt8 16 := Vector.replicate 16 0

def sampleBegin : List (DeviceCall × ℚ) := [(.acquire 0, 0), (.start 1 sampleGuid 1 0 0, 1)]

def samplePolled : List (DeviceCall × ℚ) :=
  sampleBegin ++ [(.poll DIERR_INPUTLOST, 2), (.poll DIERR_INPUTLOST, 3)]

def sampleCommand : List (DeviceCall × ℚ) :=
  sampleBegin ++ [(.sendForceFeedbackCommand DisffcContinue DIERR_INPUTLOST, 2)]

def freshSource : SourceState := { identity := ⟨⟨7, "s"⟩, "1.0", "game.exe", 64⟩ }

theorem inOrder_sample (source : SourceState) {later : List (DeviceCall × ℚ)}
    (hlater : ∀ call ∈ later, call.1.begins = false) :
    Runs.Throughout (step constantProducer) InOrder (start source 1 true) (sampleBegin ++ later) := by
  simp only [sampleBegin, List.cons_append, List.nil_append, Runs.throughout_cons]
  refine ⟨nofun, fun _ => rfl, ?_⟩
  intro before call rest hsplit hbegins
  rw [hlater call (by rw [hsplit]; exact List.mem_append_right _ List.mem_cons_self)] at hbegins
  cases hbegins

theorem quiet_freshSource (deviceId : UInt32) : freshSource.Quiet deviceId := by
  intro key effect _ heffect
  cases heffect

theorem polled_loss_stops_once :
    let after := Runs.run (step constantProducer) (start freshSource 1 true)
    ((∀ before, before <+: samplePolled → (after before).lost = true → (after before).source.Quiet 1) ↔
      Runs.Throughout (step constantProducer) (fun history call => ¬ history.Unnoticed call)
        (start freshSource 1 true) samplePolled) ∧
    (∀ before, before <+: samplePolled → (after before).stopAlls ≤ (after before).acquisitions) ∧
    ∀ before stretch, before ++ stretch <+: samplePolled →
      (∀ call ∈ stretch, call.1.acquires = false) →
      (after (before ++ stretch)).stopAlls ≤ (after before).stopAlls + 1 :=
  loss_stops_iff constantProducer (withinLimits_new _) (quiet_freshSource 1) true samplePolled
    (inOrder_sample freshSource (by decide))

/-- The command returned `DIERR_INPUTLOST`, and the effect goes on. -/
theorem lost_command_goes_on :
    Runs.Throughout (step constantProducer) InOrder (start freshSource 1 true) sampleCommand ∧
      (Runs.run (step constantProducer) (start freshSource 1 true) sampleCommand).lost = true ∧
      ¬ (Runs.run (step constantProducer) (start freshSource 1 true) sampleCommand).source.Quiet 1 := by
  refine ⟨inOrder_sample freshSource (by decide), by decide +kernel, fun hquiet => ?_⟩
  have hactive : ((Runs.run (step constantProducer) (start freshSource 1 true)
      sampleCommand).source.effects.find? ⟨1, 1⟩).map EffectState.active = some true := by
    decide +kernel
  obtain ⟨effect, heffect, hactive⟩ := Option.map_eq_some_iff.mp hactive
  rw [hquiet ⟨1, 1⟩ effect rfl heffect] at hactive
  cases hactive

end Samples
end FfbInterceptor.Engine
