import FfbInterceptor.Engine.Finished

/-! Pausing is a stopped clock: a run with pauses, and the run without them in which the events of a
device come at its accumulated unpaused time, play the same effects. -/
namespace FfbInterceptor.Engine
open FfbInterceptor.Library FfbInterceptor.Protocol FfbInterceptor.Server

section Effects

/-- Two effects at two times: both are over, or the second is the first at the other time. -/
inductive Follows (time : ℚ) (effect : EffectState) (time' : ℚ) (effect' : EffectState) : Prop
  | live (alive : effect.live time = true) (moved : effect' = effect.delay (time' - time))
  | finished (ended : effect.live time = false) (ended' : effect'.live time' = false)
      (same : ∃ schedule, effect' = effect.withSchedule schedule)

variable {effect effect' : EffectState} {time time' now : ℚ}

theorem Follows.of_delay (effect : EffectState) (time time' : ℚ) :
    Follows time effect time' (effect.delay (time' - time)) := by
  cases hlive : effect.live time with
  | true => exact .live hlive rfl
  | false =>
    exact .finished hlive ((EffectState.live_moved effect time time').trans hlive)
      ⟨_, EffectState.delay_eq_withSchedule _⟩

theorem Follows.refl (h : effect.active = false) (time time' : ℚ) : Follows time effect time' effect :=
  .finished (EffectState.over_of_inactive h time) (EffectState.over_of_inactive h time')
    ⟨effect.schedule, rfl⟩

theorem Follows.same (h : Follows time effect time' effect') :
    ∃ schedule, effect' = effect.withSchedule schedule := by
  cases h with
  | live alive moved => exact ⟨_, moved.trans (EffectState.delay_eq_withSchedule _)⟩
  | finished ended ended' same => exact same

theorem Follows.advance (h : Follows time effect time' effect') (hle : time ≤ now) :
    Follows now effect (time' + (now - time)) effect' := by
  cases h with
  | live alive moved =>
    have hshift : time' - time = time' + (now - time) - now := by ring
    rw [moved, hshift]
    exact .of_delay effect now _
  | finished ended ended' same =>
    refine .finished (EffectState.over_of_le ended hle) (EffectState.over_of_le ended' ?_) same
    linarith

theorem Follows.begin (hsame : ∃ schedule, effect' = effect.withSchedule schedule)
    (iterations : UInt32) :
    Follows now (effect.begin now iterations) time' (effect'.begin time' iterations) := by
  obtain ⟨schedule, rfl⟩ := hsame
  rw [EffectState.begin_withSchedule, EffectState.begin_moved effect now time']
  exact .of_delay _ now time'

theorem Follows.stop (hsame : ∃ schedule, effect' = effect.withSchedule schedule) :
    Follows time effect.stop time' effect'.stop := by
  obtain ⟨schedule, rfl⟩ := hsame
  exact .finished (EffectState.over_stop time) (EffectState.over_stop time')
    ⟨(effect.withSchedule schedule).stop.schedule, rfl⟩

theorem Follows.withKind (h : Follows time effect time' effect') (kind : EffectKind) :
    Follows time (effect.withKind kind) time' (effect'.withKind kind) := by
  have hlive : ∀ (e : EffectState) (t : ℚ), (e.withKind kind).live t = e.live t :=
    fun e t => EffectState.live_of_schedule (EffectState.schedule_withKind kind) t
  cases h with
  | live alive moved =>
    rw [moved, EffectState.withKind_delay]
    exact .of_delay _ time time'
  | finished ended ended' same =>
    obtain ⟨schedule, rfl⟩ := same
    exact .finished ((hlive _ _).trans ended) ((hlive _ _).trans ended')
      ⟨schedule, EffectState.withKind_withSchedule schedule kind⟩

theorem Follows.resume {pausedAt : ℚ}
    (h : Follows (max pausedAt effect.playbackRequestedMilliseconds) effect time' effect')
    (hpaused : pausedAt ≤ now)
    (hrequested : effect.active = true → effect.playbackRequestedMilliseconds ≤ now) :
    Follows now (effect.resumeAfterPause pausedAt now) time' effect' := by
  cases h with
  | live alive moved =>
    have hactive : effect.active = true := by
      rw [EffectState.live, Bool.and_eq_true] at alive
      exact alive.1
    have hle := max_le hpaused (hrequested hactive)
    have hshift : effect' = (effect.delay (now - max pausedAt
        effect.playbackRequestedMilliseconds)).delay (time' - now) := by
      rw [moved, EffectState.delay_delay]
      congr 1
      ring
    rw [EffectState.resumeAfterPause_of_active hactive hle, hshift]
    exact .of_delay _ now time'
  | finished ended ended' same =>
    refine .finished (over_resumeAfterPause ended hpaused hrequested) ended' ?_
    obtain ⟨schedule, rfl⟩ := same
    refine ⟨schedule, ?_⟩
    unfold EffectState.resumeAfterPause EffectState.shiftSchedule
    split <;> rfl

theorem Follows.look_right (h : Follows time effect time' effect') :
    Follows time effect time' (effect'.isProducing time').2 := by
  cases h with
  | live alive moved =>
    have halive' := EffectState.live_moved effect time time'
    rw [← moved, alive] at halive'
    rw [EffectState.isProducing_snd_of_live halive']
    exact .live alive moved
  | finished ended ended' same =>
    obtain ⟨hlooked, hsame⟩ := EffectState.isProducing_snd_of_over ended'
    obtain ⟨schedule, rfl⟩ := same
    refine .finished ended hlooked ?_
    rw [hsame]
    exact ⟨_, rfl⟩

theorem Follows.look_left (h : Follows time effect time' effect') :
    Follows time (effect.isProducing time).2 time' effect' := by
  cases h with
  | live alive moved =>
    rw [EffectState.isProducing_snd_of_live alive]
    exact .live alive moved
  | finished ended ended' same =>
    obtain ⟨hlooked, hsame⟩ := EffectState.isProducing_snd_of_over ended
    obtain ⟨schedule, rfl⟩ := same
    refine .finished hlooked ended' ⟨schedule, ?_⟩
    rw [hsame]
    rfl

theorem Follows.update (h : Follows now effect time' effect') (frame : ProtocolFrame) :
    Follows now ((if effect.active && true then effect.expireIfFinished now else effect).update frame now)
      time' ((if effect'.active && true then effect'.expireIfFinished time' else effect').update frame
        time') := by
  cases h with
  | live alive moved =>
    have halive' := EffectState.live_moved effect now time'
    rw [← moved, alive] at halive'
    rw [EffectState.expiry_of_live alive, EffectState.expiry_of_live halive', moved,
      EffectState.update_moved]
    exact .of_delay _ now time'
  | finished ended ended' same =>
    obtain ⟨schedule, rfl⟩ := same
    rw [EffectState.expiry_of_over ended, EffectState.expiry_of_over ended']
    have hinactive : ({ effect with active := false } : EffectState).active = false := rfl
    have hupdate := EffectState.update_of_inactive frame hinactive
      { schedule with active := false } rfl now time'
    cases hupdate with
    | inl hbegun =>
      have hstep : ({ effect.withSchedule schedule with active := false } : EffectState).update frame
          time' = (({ effect with active := false } : EffectState).update frame now).delay
            (time' - now) := hbegun
      rw [hstep]
      exact .of_delay _ now time'
    | inr hkept =>
      have hstep : ({ effect.withSchedule schedule with active := false } : EffectState).update frame
          time' = (({ effect with active := false } : EffectState).update frame now).withSchedule
            { schedule with active := false } := hkept.2
      rw [hstep]
      exact .finished (EffectState.over_of_inactive hkept.1 now)
        (EffectState.over_of_inactive rfl time') ⟨_, rfl⟩

theorem Follows.isProducing (h : Follows time effect time' effect') :
    (effect'.isProducing time').1 = (effect.isProducing time).1 := by
  cases h with
  | live alive moved =>
    rw [moved, EffectState.isProducing_moved]
  | finished ended ended' same =>
    rw [EffectState.isProducing_fst, EffectState.isProducing_fst, ended, ended']
    rfl

end Effects

section Slots

def DeviceState.running (device : DeviceState) : DeviceState :=
  { device with paused := false, pausedAtMilliseconds := 0 }

def withoutPauses (command : UInt32) : UInt32 := command &&& ~~~(DisffcPause ||| DisffcContinue)

def Happening.withoutPauses : Happening → Happening
  | .device command => .device (Engine.withoutPauses command)
  | event => event

/-- The same slot at the unpaused time of its device. -/
structure Mirrors (now : ℚ) (slot : Slot) (time : ℚ) (slot' : Slot) : Prop where
  device : slot'.device = slot.device.running
  effect : Option.Rel (fun e e' => Follows (slot.device.position now e) e time e') slot.effect slot'.effect

variable {slot slot' : Slot} {now time : ℚ}

theorem Mirrors.effects (h : Mirrors now slot time slot') :
    (slot.effect = none ∧ slot'.effect = none) ∨ ∃ e e', slot.effect = some e ∧
      slot'.effect = some e' ∧ Follows (slot.device.position now e) e time e' := by
  have heffect := h.effect
  generalize slot.effect = own at heffect ⊢
  generalize slot'.effect = other at heffect ⊢
  cases heffect with
  | none => exact Or.inl ⟨rfl, rfl⟩
  | some hfollows => exact Or.inr ⟨_, _, rfl, rfl, hfollows⟩

theorem Mirrors.map (h : Mirrors now slot time slot') {device device' : DeviceState}
    (hdevice : device' = device.running) {f g : EffectState → EffectState}
    (hf : ∀ e e', slot.effect = some e → Follows (slot.device.position now e) e time e' →
      Follows (device.position now (f e)) (f e) time (g e')) :
    Mirrors now ⟨device, slot.effect.map f⟩ time ⟨device', slot'.effect.map g⟩ := by
  refine ⟨hdevice, ?_⟩
  cases h.effects with
  | inl hnone =>
    rw [hnone.1, hnone.2]
    exact .none
  | inr hsome =>
    obtain ⟨e, e', hown, hother, hfollows⟩ := hsome
    rw [hown, hother]
    exact .some (hf e e' hown hfollows)

theorem Mirrors.setDevice (h : Mirrors now slot time slot') {device device' : DeviceState}
    (hdevice : device' = device.running)
    (hposition : ∀ e e', slot.effect = some e → Follows (slot.device.position now e) e time e' →
      Follows (device.position now e) e time e') :
    Mirrors now { slot with device := device } time { slot' with device := device' } := by
  have hmap := h.map (f := id) (g := id) hdevice hposition
  simp only [Option.map_id, id_eq] at hmap
  exact hmap

theorem Mirrors.stopAll (h : Mirrors now slot time slot') : Mirrors now slot.stopAll time slot'.stopAll := by
  refine h.map ?_ ?_
  · rw [h.device]
    rfl
  · intro e e' he hfollows
    exact .stop hfollows.same

theorem Mirrors.reset (h : Mirrors now slot time slot') : Mirrors now slot.reset time slot'.reset := by
  refine h.map ?_ ?_
  · rw [h.device]
    rfl
  · intro e e' he hfollows
    exact .stop hfollows.same

theorem Mirrors.pause (h : Mirrors now slot time slot') (htimely : slot.Timely now) :
    Mirrors now (slot.pause now) time slot' := by
  unfold Slot.pause
  split
  · exact h
  · rename_i hpaused
    refine h.setDevice (h.device.trans ?_) ?_
    · rfl
    · intro e e' he hfollows
      simp only [DeviceState.position, hpaused, Bool.false_eq_true, ↓reduceIte] at hfollows ⊢
      cases hactive : e.active with
      | true =>
        rw [max_eq_left (htimely.requested e he hactive)]
        exact hfollows
      | false =>
        have hover := EffectState.over_of_inactive hactive
        cases hfollows with
        | live alive moved =>
          rw [hover] at alive
          cases alive
        | finished ended ended' same => exact .finished (hover _) ended' same

theorem Mirrors.resume (h : Mirrors now slot time slot') (htimely : slot.Timely now) :
    Mirrors now (slot.resume now) time slot' := by
  unfold Slot.resume
  split
  · rename_i hpaused
    have hdevice : slot'.device = ({ slot.device with paused := false } : DeviceState).running := by
      rw [h.device]
      rfl
    have hmap := h.map (g := id) hdevice
      (f := fun effect => effect.resumeAfterPause slot.device.pausedAtMilliseconds now) (by
        intro e e' he hfollows
        simp only [DeviceState.position, hpaused, ↓reduceIte] at hfollows
        exact hfollows.resume (htimely.paused hpaused) (htimely.requested e he))
    rw [Option.map_id] at hmap
    exact hmap
  · exact h

theorem Mirrors.setActuators (h : Mirrors now slot time slot') (enabled : Bool) :
    Mirrors now (slot.setActuators enabled) time (slot'.setActuators enabled) := by
  refine h.setDevice ?_ fun e e' he hfollows => hfollows
  rw [h.device]
  rfl

theorem Mirrors.ite {acted acted' : Slot} (h : Mirrors now slot time slot') (flag : Bool)
    (hacted : Mirrors now acted time acted') :
    Mirrors now (if flag then acted else slot) time (if flag then acted' else slot') := by
  cases flag with
  | true => exact hacted
  | false => exact h

theorem hasFlags_withoutPauses (command flags : UInt32)
    (h : ~~~(DisffcPause ||| DisffcContinue) &&& flags = flags) :
    hasFlags (withoutPauses command) flags = hasFlags command flags := by
  unfold hasFlags withoutPauses
  rw [UInt32.and_assoc, h]

theorem hasFlags_withoutPauses_pause (command : UInt32) :
    hasFlags (withoutPauses command) DisffcPause = false ∧
      hasFlags (withoutPauses command) DisffcContinue = false := by
  have hpause : ~~~(DisffcPause ||| DisffcContinue) &&& DisffcPause = 0 := by decide
  have hcontinue : ~~~(DisffcPause ||| DisffcContinue) &&& DisffcContinue = 0 := by decide
  unfold hasFlags withoutPauses
  rw [UInt32.and_assoc, UInt32.and_assoc, hpause, hcontinue, UInt32.and_zero]
  exact ⟨rfl, rfl⟩

theorem Mirrors.command (h : Mirrors now slot time slot') (htimely : slot.Timely now)
    (command : UInt32) :
    Mirrors now (slot.command command now) time (slot'.command (withoutPauses command) time) := by
  have hreset := h.ite (hasFlags command DisffcReset) h.reset
  have treset := htimely.ite (hasFlags command DisffcReset) htimely.reset
  have hstop := hreset.ite (hasFlags command DisffcStopAll) hreset.stopAll
  have tstop := treset.ite (hasFlags command DisffcStopAll) treset.stopAll
  have hpause := hstop.ite (hasFlags command DisffcPause) (hstop.pause tstop)
  have tpause := tstop.ite (hasFlags command DisffcPause) tstop.pause
  rw [ite_self] at hpause
  have hresume := hpause.ite (hasFlags command DisffcContinue) (hpause.resume tpause)
  rw [ite_self] at hresume
  have hoff := hresume.ite (hasFlags command DisffcActuatorsOff) (hresume.setActuators false)
  have hon := hoff.ite (hasFlags command DisffcActuatorsOn) (hoff.setActuators true)
  simp only [Slot.command, hasFlags_withoutPauses_pause, Bool.false_eq_true, ↓reduceIte,
    hasFlags_withoutPauses command DisffcReset (by decide),
    hasFlags_withoutPauses command DisffcStopAll (by decide),
    hasFlags_withoutPauses command DisffcActuatorsOff (by decide),
    hasFlags_withoutPauses command DisffcActuatorsOn (by decide)]
  exact hon

theorem Mirrors.effectOf (h : Mirrors now slot time slot') (frame : ProtocolFrame) (kind : EffectKind) :
    Follows (slot.device.position now (slot.effectOf frame kind)) (slot.effectOf frame kind) time
      (slot'.effectOf frame kind) := by
  unfold Slot.effectOf
  cases h.effects with
  | inl hnone =>
    rw [hnone.1, hnone.2]
    exact .refl rfl _ _
  | inr hsome =>
    obtain ⟨e, e', hown, hother, hfollows⟩ := hsome
    rw [hown, hother]
    exact hfollows

theorem position_of_requested_now {device : DeviceState}
    (hpaused : device.paused = true → device.pausedAtMilliseconds ≤ now) {effect : EffectState}
    (h : effect.playbackRequestedMilliseconds = now) : device.position now effect = now := by
  unfold DeviceState.position
  split
  · rename_i hstopped
    rw [h, max_eq_right (hpaused hstopped)]
  · rfl

theorem position_withKind (device : DeviceState) (now : ℚ) (effect : EffectState) (kind : EffectKind) :
    device.position now (effect.withKind kind) = device.position now effect := by
  rw [DeviceState.position, DeviceState.position,
    EffectState.requested_of_schedule (EffectState.schedule_withKind kind)]

theorem Mirrors.withKind (h : Mirrors now slot time slot') (kind : EffectKind) :
    Mirrors now { slot with effect := slot.effect.map fun effect => effect.withKind kind } time
      { slot' with effect := slot'.effect.map fun effect => effect.withKind kind } := by
  refine h.map h.device ?_
  intro e e' he hfollows
  rw [position_withKind]
  exact hfollows.withKind kind

theorem Mirrors.stopped (h : Mirrors now slot time slot') {f : EffectState → EffectState}
    (hf : ∀ (e : EffectState) schedule, f (e.withSchedule schedule) = (f e).withSchedule schedule) :
    Mirrors now { slot with effect := slot.effect.map fun effect => (f effect).stop } time
      { slot' with effect := slot'.effect.map fun effect => (f effect).stop } := by
  refine h.map h.device ?_
  intro e e' he hfollows
  obtain ⟨schedule, rfl⟩ := hfollows.same
  exact .stop ⟨schedule, hf e schedule⟩

/-- Whatever happens to a slot, except an update in a pause, happens to its mirror alike. -/
theorem Mirrors.take (h : Mirrors now slot time slot') (htimely : slot.Timely now) {event : Happening}
    {key : EffectKey} (hfor : event.For key)
    (hunpaused : ∀ frame, event = .updated frame → slot.device.paused = false) :
    Mirrors now (slot.take now event) time (slot'.take time event.withoutPauses) := by
  cases event with
  | nothing => exact h
  | forgotten => exact ⟨rfl, .none⟩
  | gain gain =>
    refine h.setDevice ?_ fun e e' he hfollows => hfollows
    rw [h.device]
    rfl
  | created effect =>
    exact ⟨h.device, .some (.refl hfor.2 _ _)⟩
  | updated frame =>
    have hrunning := hunpaused frame rfl
    have hrunning' : slot'.device.paused = false := by rw [h.device]; rfl
    refine ⟨h.device, ?_⟩
    have hfollows := h.effectOf frame .unknown
    simp only [Happening.withoutPauses, Slot.take, Slot.update, hrunning, hrunning', Bool.not_false]
    simp only [DeviceState.position, hrunning, Bool.false_eq_true, ↓reduceIte] at hfollows ⊢
    exact .some (hfollows.update frame)
  | commanded frame =>
    simp only [Happening.withoutPauses, Slot.take, Slot.obey]
    split
    · refine ⟨h.device, .some ?_⟩
      rw [position_of_requested_now htimely.paused rfl]
      obtain ⟨schedule, hsame⟩ := (h.effectOf frame frame.effectKind).same
      refine .begin ⟨schedule, ?_⟩ frame.iterations
      rw [hsame, EffectState.withKind_withSchedule]
    · exact h.stopped fun e schedule => EffectState.withKind_withSchedule schedule frame.effectKind
    · exact h.stopped fun e schedule => EffectState.withKind_withSchedule schedule frame.effectKind
    · exact ⟨h.device, .none⟩
    · exact h.withKind frame.effectKind
    · exact h.withKind frame.effectKind
  | stopped => exact h.stopped (f := id) fun e schedule => rfl
  | device command => exact h.command htimely command

theorem Mirrors.look (h : Mirrors now slot time slot') :
    Mirrors now (slot.look now) time (slot'.look time) := by
  have hrunning' : slot'.device.paused = false := by rw [h.device]; rfl
  simp only [Slot.look, hrunning', Bool.false_eq_true, ↓reduceIte]
  split
  · have hmap := h.map (f := id) h.device fun e e' he hfollows => hfollows.look_right
    rw [Option.map_id] at hmap
    exact hmap
  · rename_i hpaused
    refine h.map h.device ?_
    intro e e' he hfollows
    simp only [DeviceState.position, hpaused, Bool.false_eq_true, ↓reduceIte] at hfollows ⊢
    exact hfollows.look_left.look_right

/-- As time goes on, only the clock of a device that is not paused does. -/
theorem Mirrors.advance (h : Mirrors now slot time slot') {later : ℚ} (hle : now ≤ later) :
    Mirrors later slot (if slot.device.paused then time else time + (later - now)) slot' := by
  refine ⟨h.device, ?_⟩
  cases h.effects with
  | inl hnone =>
    rw [hnone.1, hnone.2]
    exact .none
  | inr hsome =>
    obtain ⟨e, e', hown, hother, hfollows⟩ := hsome
    rw [hown, hother]
    refine .some ?_
    unfold DeviceState.position at hfollows ⊢
    split
    · rename_i hpaused
      rw [if_pos hpaused] at hfollows
      exact hfollows
    · rename_i hpaused
      rw [if_neg hpaused] at hfollows
      exact hfollows.advance hle

end Slots

section Tables

structure SameTables (s s' : SourceState) : Prop where
  devices : ∀ deviceId, s'.devices.contains deviceId = s.devices.contains deviceId
  effects : ∀ key, s'.effects.contains key = s.effects.contains key
  droppedFrames : s'.droppedFrames = s.droppedFrames

/-- Pauses are taken out of device commands. -/
def frameWithoutPauses (frame : ProtocolFrame) : ProtocolFrame :=
  if frame.messageType = .deviceCommand then { frame with diFlags := withoutPauses frame.diFlags }
  else frame

variable {s s' : SourceState} (frame : ProtocolFrame)

theorem frameWithoutPauses_of_ne {frame : ProtocolFrame} (h : frame.messageType ≠ .deviceCommand) :
    frameWithoutPauses frame = frame := by
  rw [frameWithoutPauses, if_neg h]

theorem same_frameWithoutPauses :
    (frameWithoutPauses frame).messageType = frame.messageType ∧
      (frameWithoutPauses frame).hresult = frame.hresult ∧
      (frameWithoutPauses frame).deviceId = frame.deviceId ∧
      (frameWithoutPauses frame).effectId = frame.effectId ∧
      (frameWithoutPauses frame).propertyId = frame.propertyId ∧
      (frameWithoutPauses frame).dropped = frame.dropped ∧
      (frameWithoutPauses frame).effectCommand = frame.effectCommand := by
  unfold frameWithoutPauses
  split <;> exact ⟨rfl, rfl, rfl, rfl, rfl, rfl, rfl⟩

theorem SameTables.lacks (h : SameTables s s') :
    (∀ deviceId, s'.lacksDevice deviceId = s.lacksDevice deviceId) ∧
      ∀ key, s'.lacksEffect key = s.lacksEffect key := by
  have hdevices := Dictionary.count_eq_of_contains h.devices
  have heffects := Dictionary.count_eq_of_contains h.effects
  constructor
  · intro deviceId
    rw [SourceState.lacksDevice, h.devices, hdevices]
    rfl
  · intro key
    rw [SourceState.lacksEffect, h.effects, heffects]
    rfl

theorem deviceId_of_filed (hfiled : FiledEffects s.effects) (key : EffectKey) :
    ((s.effects.find? key).map EffectState.deviceId).getD key.deviceId = key.deviceId := by
  cases hfind : s.effects.find? key with
  | none => rfl
  | some effect => exact congrArg EffectKey.deviceId (hfiled key effect hfind)

theorem SameTables.refuses (h : SameTables s s') (hfiled : FiledEffects s.effects)
    (hfiled' : FiledEffects s'.effects) :
    s'.refuses (frameWithoutPauses frame) = s.refuses frame := by
  obtain ⟨htype, hresult, hdevice, heffect, hproperty, -, hcommand⟩ := same_frameWithoutPauses frame
  have hkey : frameKey (frameWithoutPauses frame) = frameKey frame := by
    rw [frameKey, hdevice, heffect, frameKey]
  have howner := deviceId_of_filed hfiled (frameKey frame)
  have howner' := deviceId_of_filed hfiled' (frameKey frame)
  simp only [frameKey] at howner howner'
  simp only [SourceState.refuses, htype, hresult, hdevice, heffect, hproperty, hcommand, hkey,
    h.lacks.1, h.lacks.2, h.effects]
  simp only [frameKey, howner, howner']

/-- The same frame happens to both. -/
theorem SameTables.happening (h : SameTables s s') (hfiled : FiledEffects s.effects)
    (hfiled' : FiledEffects s'.effects) (key : EffectKey) :
    s'.happening key (frameWithoutPauses frame) = (s.happening key frame).withoutPauses := by
  unfold SourceState.happening
  rw [h.refuses frame hfiled hfiled']
  split
  · rfl
  unfold SourceState.happens
  obtain ⟨htype, hresult, hdevice, -, -, hdropped, -⟩ := same_frameWithoutPauses frame
  rw [htype, hresult, hdropped, h.droppedFrames]
  split
  · split <;> rfl
  split
  · rfl
  unfold frameHappening
  cases hmessage : frame.messageType with
  | hello | dropNotice | deviceCreated =>
    rw [htype, hmessage]
    rfl
  | devicePropertyChanged =>
    rw [frameWithoutPauses_of_ne (by rw [hmessage]; decide), hmessage]
    simp only
    split <;> rfl
  | effectCreated =>
    rw [frameWithoutPauses_of_ne (by rw [hmessage]; decide), hmessage]
    simp only
    split <;> rfl
  | effectParametersChanged =>
    rw [frameWithoutPauses_of_ne (by rw [hmessage]; decide), hmessage]
    simp only
    split <;> rfl
  | effectCommand =>
    rw [frameWithoutPauses_of_ne (by rw [hmessage]; decide), hmessage]
    simp only
    split
    · rfl
    · split <;> rfl
  | deviceCommand =>
    simp only [htype, hdevice, hmessage]
    split
    · simp only [frameWithoutPauses, hmessage, ↓reduceIte]
      rfl
    · rfl

theorem isSome_take (slot slot' : Slot) (h : slot'.effect.isSome = slot.effect.isSome)
    (event : Happening) (now time : ℚ) :
    (slot'.take time event.withoutPauses).effect.isSome = (slot.take now event).effect.isSome := by
  cases event with
  | nothing | gain gain => exact h
  | forgotten | created effect | updated frame => rfl
  | commanded frame =>
    simp only [Happening.withoutPauses, Slot.take, Slot.obey]
    split
    · rfl
    · simp only [Option.isSome_map, h]
    · simp only [Option.isSome_map, h]
    · rfl
    · simp only [Option.isSome_map, h]
    · simp only [Option.isSome_map, h]
  | stopped => simp only [Happening.withoutPauses, Slot.take, Option.isSome_map, h]
  | device command =>
    simp only [Happening.withoutPauses, Slot.take, isSome_command, h]

theorem SameTables.apply (h : SameTables s s') (hfiled : FiledEffects s.effects)
    (hfiled' : FiledEffects s'.effects) (now time : ℚ) :
    SameTables (s.apply frame now) (s'.apply (frameWithoutPauses frame) time) := by
  have heffects : ∀ key, (s'.apply (frameWithoutPauses frame) time).effects.contains key =
      (s.apply frame now).effects.contains key := by
    intro key
    have hslot := slot_apply frame now hfiled key
    have hslot' := slot_apply (frameWithoutPauses frame) time hfiled' key
    rw [h.happening frame hfiled hfiled'] at hslot'
    have hsome := isSome_take (s.slot key) (s'.slot key) (h.effects key)
      (s.happening key frame) now time
    rw [← hslot, ← hslot'] at hsome
    exact hsome
  obtain ⟨htype, hresult, hdevice, heffect, hproperty, hdropped, hcommand⟩ :=
    same_frameWithoutPauses frame
  have hrefused := h.refuses frame hfiled hfiled'
  cases hrefuses : s.refuses frame with
  | true =>
    rw [hrefuses] at hrefused
    have hkept := refused_apply hrefuses now
    have hkept' := refused_apply hrefused time
    refine ⟨?_, heffects, ?_⟩
    · intro deviceId
      rw [hkept.devices, hkept'.devices, h.devices]
    · rw [hkept.droppedFrames, hkept'.droppedFrames, h.droppedFrames]
  | false =>
    rw [hrefuses] at hrefused
    rw [apply_of_room hrefuses, apply_of_room hrefused] at heffects ⊢
    by_cases hdrop : frame.messageType = .dropNotice
    · refine ⟨?_, heffects, ?_⟩
      · intro deviceId
        simp only [SourceState.applyUnlimited, htype, hdrop, ↓reduceIte, SourceState.applyDropNotice,
          hdropped, h.droppedFrames]
        split
        · rfl
        · exact h.devices deviceId
      · simp only [SourceState.applyUnlimited, htype, hdrop, ↓reduceIte, SourceState.applyDropNotice,
          hdropped, h.droppedFrames]
        split
        · simp only [SourceState.invalidateAfterDrop, SourceState.resetEstimate, h.droppedFrames]
        · rw [h.droppedFrames]
    · have howner := fun effect heffect => congrArg EffectKey.deviceId
        (hfiled (frameKey frame) effect heffect)
      have hkey : frameKey (frameWithoutPauses frame) = frameKey frame := by
        rw [frameKey, hdevice, heffect, frameKey]
      have howner' : ∀ effect, s'.effects.find? (frameKey (frameWithoutPauses frame)) = some effect →
          effect.deviceId = (frameWithoutPauses frame).deviceId :=
        fun effect heffect => congrArg EffectKey.deviceId (hfiled' _ effect heffect)
      have htables := fun other => tables_applyUnlimited frame now hdrop other howner
      have htables' := fun other => tables_applyUnlimited (frameWithoutPauses frame) time
        (by rw [htype]; exact hdrop) other howner'
      have hadmits : s'.admits (frameWithoutPauses frame) = s.admits frame := by
        simp only [SourceState.admits, htype, heffect, hproperty, hcommand, hkey, h.effects]
      refine ⟨?_, heffects, ?_⟩
      · intro deviceId
        rw [(htables deviceId).1, (htables' deviceId).1, htype, hresult, hdevice, hadmits, h.devices]
      · rw [(htables 0).2, (htables' 0).2, h.droppedFrames]

theorem SameTables.tick (h : SameTables s s') (sine : Sine) (now time : ℚ)
    (settings : NormalizedSettings) :
    SameTables (s.tick now settings sine).2 (s'.tick time settings sine).2 := by
  obtain ⟨heffects, hdevices, hdropped, -⟩ := tables_tick now settings s sine
  obtain ⟨heffects', hdevices', hdropped', -⟩ := tables_tick time settings s' sine
  refine ⟨?_, ?_, ?_⟩
  · rw [hdevices, hdevices']
    exact h.devices
  · intro key
    rw [heffects, heffects', Dictionary.contains_map, Dictionary.contains_map, h.effects]
  · rw [hdropped, hdropped', h.droppedFrames]

end Tables

section Timelines

variable (sine : Sine)

/-- The time of the last event, and how long the clock of each device has been stopped. -/
structure Clock where
  last : ℚ
  stopped : UInt32 → ℚ := fun _ => 0

/-- The clock of a paused device stands until the next event. -/
def Clock.advance (clock : Clock) (s : SourceState) (now : ℚ) : Clock where
  last := now
  stopped := fun deviceId =>
    if (s.deviceOf deviceId).paused then clock.stopped deviceId + (now - clock.last)
    else clock.stopped deviceId

/-- The accumulated unpaused time of a device. -/
def Clock.unpaused (clock : Clock) (deviceId : UInt32) : ℚ := clock.last - clock.stopped deviceId

/-- The clock after a timeline. -/
def clockAfter (clock : Clock) (s : SourceState) : List (ℚ × Input) → Clock
  | [] => clock
  | (now, input) :: rest => clockAfter (clock.advance s now) (s.play sine (now, input)) rest

/-- A timeline without pauses, as the effects of one device see it: every frame comes at the
accumulated unpaused time of its device, every tick at that of the device looked at. -/
def movedTo (deviceId : UInt32) (clock : Clock) (s : SourceState) :
    List (ℚ × Input) → List (ℚ × Input)
  | [] => []
  | (now, input) :: rest =>
    let clock := clock.advance s now
    (match input with
      | .frame frame => (clock.unpaused frame.deviceId, .frame (frameWithoutPauses frame))
      | .tick settings => (clock.unpaused deviceId, .tick settings)) ::
      movedTo deviceId clock (s.play sine (now, input)) rest

/-- Parameter updates come only while their device is not paused. -/
def UpdatesUnpaused (s : SourceState) (timeline : List (ℚ × Input)) : Prop :=
  ∀ part now frame rest, timeline = part ++ (now, .frame frame) :: rest →
    frame.messageType = .effectParametersChanged →
    ((Runs.run (SourceState.play sine) s part).deviceOf frame.deviceId).paused = false

/-- A source and the source of the moved timeline, as far as one device is concerned. -/
structure Tracks (deviceId : UInt32) (clock : Clock) (s s' : SourceState) : Prop where
  tables : SameTables s s'
  sound : s.Sound clock.last
  filed : FiledEffects s'.effects
  mirrors : ∀ key : EffectKey, key.deviceId = deviceId →
    Mirrors clock.last (s.slot key) (clock.unpaused deviceId) (s'.slot key)

variable {sine} {s s' : SourceState} {deviceId : UInt32} {clock : Clock}

theorem UpdatesUnpaused.tail {input : ℚ × Input} {rest : List (ℚ × Input)}
    (h : UpdatesUnpaused sine s (input :: rest)) : UpdatesUnpaused sine (s.play sine input) rest := by
  rintro part now frame rest rfl htype
  exact h (input :: part) now frame rest rfl htype

theorem Tracks.advance (h : Tracks deviceId clock s s') {now : ℚ} (hle : clock.last ≤ now) :
    Tracks deviceId (clock.advance s now) s s' := by
  refine ⟨h.tables, h.sound.advance hle, h.filed, ?_⟩
  intro key hkey
  have hadvanced := (h.mirrors key hkey).advance hle
  have htime : (clock.advance s now).unpaused deviceId =
      if (s.slot key).device.paused then clock.unpaused deviceId
      else clock.unpaused deviceId + (now - clock.last) := by
    simp only [Clock.unpaused, Clock.advance, SourceState.slot, hkey]
    split
    · ring
    · ring
  rw [htime]
  exact hadvanced

theorem take_of_other {key : EffectKey} {frame : ProtocolFrame} (h : frame.deviceId ≠ key.deviceId)
    (slot : Slot) (time time' : ℚ) :
    slot.take time (s.happening key frame) = slot.take time' (s.happening key frame) := by
  have hkey : frameKey frame ≠ key := fun hsame => h (congrArg EffectKey.deviceId hsame)
  unfold SourceState.happening SourceState.happens
  split
  · rfl
  split
  · split <;> rfl
  split
  · rfl
  unfold frameHappening
  split
  · rfl
  · rfl
  · rfl
  · simp only [h, and_false, ↓reduceIte]
    rfl
  · simp only [hkey, and_false, ↓reduceIte]
    rfl
  · simp only [hkey, and_false, ↓reduceIte]
    rfl
  · simp only [hkey, h, and_false, ↓reduceIte]
    rfl
  · simp only [h, ↓reduceIte]
    rfl

theorem Tracks.frame (h : Tracks deviceId clock s s') (frame : ProtocolFrame)
    (hupdate : frame.messageType = .effectParametersChanged →
      (s.deviceOf frame.deviceId).paused = false) :
    Tracks deviceId clock (s.receive frame clock.last)
      (s'.receive (frameWithoutPauses frame) (clock.unpaused frame.deviceId)) := by
  have hfiled := h.sound.filed
  have hsound : (s.play flat (clock.last, .frame frame)).Sound clock.last := h.sound.play (.frame frame)
  refine ⟨?_, hsound, ?_, ?_⟩
  · have hactive : SameTables { s with lastActivityMilliseconds := clock.last }
        { s' with lastActivityMilliseconds := clock.unpaused frame.deviceId } :=
      ⟨h.tables.devices, h.tables.effects, h.tables.droppedFrames⟩
    exact hactive.apply frame hfiled h.filed clock.last _
  · exact filed_apply (s := { s' with lastActivityMilliseconds := clock.unpaused frame.deviceId })
      h.filed _ _
  · intro key hkey
    have hhappening := h.tables.happening frame hfiled h.filed key
    have htime : (s'.slot key).take (clock.unpaused frame.deviceId) (s.happening key frame).withoutPauses =
        (s'.slot key).take (clock.unpaused deviceId) (s.happening key frame).withoutPauses := by
      by_cases hdevice : frame.deviceId = key.deviceId
      · rw [hdevice, hkey]
      · rw [← hhappening]
        refine take_of_other ?_ _ _ _
        rw [(same_frameWithoutPauses frame).2.2.1]
        exact hdevice
    rw [slot_receive hfiled, slot_receive h.filed, hhappening, htime]
    refine (h.mirrors key hkey).take (h.sound.timely key) (happening_for s key frame) ?_
    intro frame' hevent
    obtain ⟨-, -, hown, htype⟩ := happening_about.1 hevent
    have hunpaused := hupdate htype
    have hdevice : frame.deviceId = key.deviceId := congrArg EffectKey.deviceId hown
    rw [hdevice] at hunpaused
    exact hunpaused

theorem Tracks.tick (h : Tracks deviceId clock s s') (settings : NormalizedSettings) :
    Tracks deviceId clock (s.tick clock.last settings sine).2
      (s'.tick (clock.unpaused deviceId) settings sine).2 := by
  have hsound : (s.play sine (clock.last, .tick settings)).Sound clock.last :=
    h.sound.play (.tick settings)
  refine ⟨h.tables.tick sine _ _ settings, hsound, filed_tick _ settings h.filed sine, ?_⟩
  intro key hkey
  rw [slot_tick _ settings h.sound.filed sine key, slot_tick _ settings h.filed sine key,
    h.tables.devices]
  split
  · exact (h.mirrors key hkey).look
  · exact h.mirrors key hkey

/-- The two runs stay together. -/
theorem Tracks.run {timeline : List (ℚ × Input)} {finish : ℚ} (h : Tracks deviceId clock s s')
    (hordered : Ordered clock.last timeline finish) (hupdates : UpdatesUnpaused sine s timeline) :
    Tracks deviceId (clockAfter sine clock s timeline) (Runs.run (SourceState.play sine) s timeline)
        (Runs.run (SourceState.play sine) s' (movedTo sine deviceId clock s timeline)) ∧
      (clockAfter sine clock s timeline).last ≤ finish := by
  induction timeline generalizing s s' clock with
  | nil => exact ⟨h, hordered⟩
  | cons input rest ih =>
    obtain ⟨now, input⟩ := input
    have hadvanced := h.advance hordered.1
    cases input with
    | frame frame =>
      refine ih (hadvanced.frame frame ?_) hordered.2 hupdates.tail
      intro htype
      exact hupdates [] now frame rest rfl htype
    | tick settings => exact ih (hadvanced.tick settings) hordered.2 hupdates.tail

/-- At an unpaused time every effect is heard as in the run without pauses at the accumulated unpaused
time of its device, and whatever plays or waits for its start delay has the same level there. -/
theorem pause_stops_clock (identity : SourceIdentity) (start now : ℚ) (timeline : List (ℚ × Input))
    (hordered : Ordered start timeline now)
    (hupdates : UpdatesUnpaused sine { identity := identity } timeline) (key : EffectKey)
    (hunpaused : ((Runs.run (SourceState.play sine) { identity := identity } timeline).deviceOf
      key.deviceId).paused = false) :
    let s := Runs.run (SourceState.play sine) { identity := identity } timeline
    let s' := Runs.run (SourceState.play sine) { identity := identity }
      (movedTo sine key.deviceId ⟨start, fun _ => 0⟩ { identity := identity } timeline)
    let time := ((clockAfter sine ⟨start, fun _ => 0⟩ { identity := identity } timeline).advance s
      now).unpaused key.deviceId
    s'.producing time key = s.producing now key ∧
      ∀ effect, s.effects.find? key = some effect → effect.live now = true →
        ∃ effect', s'.effects.find? key = some effect' ∧
          effect'.rawLevelAt sine time = effect.rawLevelAt sine now := by
  intro s s' time
  have hstart : Tracks key.deviceId ⟨start, fun _ => 0⟩ { identity := identity }
      { identity := identity } := by
    refine ⟨⟨fun _ => rfl, fun _ => rfl, rfl⟩, sound_new identity start,
      (sound_new identity start).filed, ?_⟩
    intro other hother
    exact ⟨rfl, .none⟩
  obtain ⟨htracks, hlast⟩ := hstart.run hordered hupdates
  have hmirrors := (htracks.advance hlast).mirrors key rfl
  have hposition : ∀ effect, (s.slot key).device.position now effect = now := by
    intro effect
    have hslot : (s.slot key).device.paused = false := hunpaused
    rw [DeviceState.position, hslot, if_neg Bool.false_ne_true]
  have hrunning' : (s'.deviceOf key.deviceId).paused = false :=
    congrArg DeviceState.paused hmirrors.device
  have hrunning : (s.deviceOf key.deviceId).paused = false := hunpaused
  cases hmirrors.effects with
  | inl hnone =>
    have hown : s.effects.find? key = none := hnone.1
    have hother : s'.effects.find? key = none := hnone.2
    refine ⟨?_, ?_⟩
    · rw [SourceState.producing, SourceState.producing, hown, hother]
      rfl
    · intro effect heffect
      rw [hown] at heffect
      cases heffect
  | inr hsome =>
    obtain ⟨e, e', hown, hother, hfollows⟩ := hsome
    have hown : s.effects.find? key = some e := hown
    have hother : s'.effects.find? key = some e' := hother
    have hfollows : Follows now e time e' := (hposition e) ▸ hfollows
    refine ⟨?_, ?_⟩
    · rw [SourceState.producing, SourceState.producing, hown, hother, Option.any_some,
        Option.any_some, hrunning, hrunning', hfollows.isProducing]
    · intro effect heffect hlive
      rw [hown] at heffect
      cases heffect
      refine ⟨e', hother, ?_⟩
      cases hfollows with
      | live alive moved =>
        rw [moved, EffectState.rawLevelAt_moved]
      | finished ended ended' same =>
        rw [ended] at hlive
        cases hlive

theorem pause_stops_clock_sample :
    (Runs.run (SourceState.play flat) { identity := ⟨⟨1, ""⟩, "", "", 64⟩ }
        (movedTo flat 1 ⟨0, fun _ => 0⟩ { identity := ⟨⟨1, ""⟩, "", "", 64⟩ }
          (sampleStart ++ samplePause))).producing 160 ⟨1, 1⟩ =
      (Runs.run (SourceState.play flat) { identity := ⟨⟨1, ""⟩, "", "", 64⟩ }
        (sampleStart ++ samplePause)).producing 210 ⟨1, 1⟩ := by
  have hupdates : UpdatesUnpaused flat { identity := ⟨⟨1, ""⟩, "", "", 64⟩ }
      (sampleStart ++ samplePause) := by
    intro part now frame rest hsplit htype
    have hmem : (now, Input.frame frame) ∈ sampleStart ++ samplePause := by
      rw [hsplit]
      exact List.mem_append_right _ List.mem_cons_self
    simp only [sampleStart, samplePause, List.cons_append, List.nil_append, List.mem_cons,
      List.not_mem_nil, or_false, Prod.mk.injEq, Input.frame.injEq] at hmem
    rcases hmem with h | h | h | h <;>
    · rw [h.2] at htype
      cases htype
  have hordered : Ordered 0 (sampleStart ++ samplePause) 210 := by
    norm_num [sampleStart, samplePause, Ordered]
  have htime : ((clockAfter flat ⟨0, fun _ => 0⟩ { identity := ⟨⟨1, ""⟩, "", "", 64⟩ }
      (sampleStart ++ samplePause)).advance (Runs.run (SourceState.play flat)
        { identity := ⟨⟨1, ""⟩, "", "", 64⟩ } (sampleStart ++ samplePause)) 210).unpaused 1 = 160 := by
    decide +kernel
  have halike := (pause_stops_clock ⟨⟨1, ""⟩, "", "", 64⟩ 0 210 (sampleStart ++ samplePause)
    hordered hupdates ⟨1, 1⟩ (by decide +kernel)).1
  rw [htime] at halike
  exact halike

def stoppedRamp : List (ℚ × Input) :=
  [(0, .frame { sampleFrame .effectCreated with
      effectKind := .ramp, rampEnd := 10000, gain := 10000, duration := 1000000 }),
    (0, .frame { sampleFrame .effectCommand with effectCommand := some .start, iterations := 1 }),
    (10, .frame { sampleFrame .effectCommand with effectCommand := some .stop }),
    (20, .frame { sampleFrame .deviceCommand with diFlags := DisffcPause }),
    (30, .frame { sampleFrame .deviceCommand with diFlags := DisffcContinue })]

/-- The level a stopped effect would have goes on through the pause. -/
theorem stopped_effect_is_not_moved :
    ((Runs.run (SourceState.play flat) { identity := ⟨⟨1, ""⟩, "", "", 64⟩ } stoppedRamp).effects.find?
        ⟨1, 1⟩).map (EffectState.rawLevelAt flat 40) = some (4 / 100) ∧
      ((clockAfter flat ⟨0, fun _ => 0⟩ { identity := ⟨⟨1, ""⟩, "", "", 64⟩ } stoppedRamp).advance
        (Runs.run (SourceState.play flat) { identity := ⟨⟨1, ""⟩, "", "", 64⟩ } stoppedRamp)
        40).unpaused 1 = 30 ∧
      ((Runs.run (SourceState.play flat) { identity := ⟨⟨1, ""⟩, "", "", 64⟩ }
        (movedTo flat 1 ⟨0, fun _ => 0⟩ { identity := ⟨⟨1, ""⟩, "", "", 64⟩ }
          stoppedRamp)).effects.find? ⟨1, 1⟩).map (EffectState.rawLevelAt flat 30) = some (3 / 100) := by
  decide +kernel

end Timelines

end FfbInterceptor.Engine
