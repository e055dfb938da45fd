import FfbInterceptor.Engine.Clipping
import FfbInterceptor.Engine.Slot

/-! Timelines of one source: frames and ticks at times that do not decrease, and where each effect
stands in the unpaused time of its device. -/
namespace FfbInterceptor.Engine
open FfbInterceptor.Library FfbInterceptor.Protocol FfbInterceptor.Server

/-- Where the clock of an effect stands: that of a paused device stopped with the pause, or when the
effect was started in the pause. -/
def DeviceState.position (device : DeviceState) (now : ℚ) (effect : EffectState) : ℚ :=
  if device.paused then max device.pausedAtMilliseconds effect.playbackRequestedMilliseconds else now

/-- Nothing in a slot lies in the future. -/
structure Slot.Timely (slot : Slot) (now : ℚ) : Prop where
  paused : slot.device.paused = true → slot.device.pausedAtMilliseconds ≤ now
  requested : ∀ e, slot.effect = some e → e.active = true → e.playbackRequestedMilliseconds ≤ now

section Timely

variable {slot : Slot} {now : ℚ}

theorem Slot.Timely.advance (h : slot.Timely now) {later : ℚ} (hle : now ≤ later) : slot.Timely later :=
  ⟨fun hpaused => (h.paused hpaused).trans hle,
    fun e he hactive => (h.requested e he hactive).trans hle⟩

theorem Slot.Timely.map (h : slot.Timely now) {f : EffectState → EffectState}
    (hf : ∀ e, (e.active = true → e.playbackRequestedMilliseconds ≤ now) →
      (f e).active = true → (f e).playbackRequestedMilliseconds ≤ now) (device : DeviceState)
    (hdevice : device.paused = true → device.pausedAtMilliseconds ≤ now) :
    Slot.Timely ⟨device, slot.effect.map f⟩ now := by
  refine ⟨hdevice, ?_⟩
  intro e he
  obtain ⟨before, hbefore, rfl⟩ := Option.map_eq_some_iff.mp he
  exact hf before (h.requested before hbefore)

theorem Slot.Timely.stopAll (h : slot.Timely now) : slot.stopAll.Timely now :=
  h.map (fun e he hactive => by cases hactive) _ (fun hpaused => by cases hpaused)

theorem Slot.Timely.reset (h : slot.Timely now) : slot.reset.Timely now :=
  h.map (fun e he hactive => by cases hactive) _ (fun hpaused => by cases hpaused)

theorem Slot.Timely.pause (h : slot.Timely now) : (slot.pause now).Timely now := by
  unfold Slot.pause
  split
  · exact h
  · exact ⟨fun _ => le_refl now, h.requested⟩

theorem requested_resumeAfterPause {effect : EffectState} {pausedAt : ℚ} (hpaused : pausedAt ≤ now)
    (he : effect.active = true → effect.playbackRequestedMilliseconds ≤ now)
    (hactive : (effect.resumeAfterPause pausedAt now).active = true) :
    (effect.resumeAfterPause pausedAt now).playbackRequestedMilliseconds ≤ now := by
  unfold EffectState.resumeAfterPause EffectState.shiftSchedule at hactive ⊢
  split
  · rename_i hkept
    rw [if_pos hkept] at hactive
    exact he hactive
  · rename_i hshifted
    rw [if_neg hshifted] at hactive
    have hrequested := he hactive
    have hposition : max pausedAt effect.playbackRequestedMilliseconds ≤ now :=
      max_le hpaused hrequested
    have hle := le_max_right pausedAt effect.playbackRequestedMilliseconds
    rw [max_eq_right (sub_nonneg.mpr hposition)]
    simp only
    linarith

theorem Slot.Timely.resume (h : slot.Timely now) : (slot.resume now).Timely now := by
  unfold Slot.resume
  split
  · rename_i hpaused
    exact h.map (fun e he hactive => requested_resumeAfterPause (h.paused hpaused) he hactive) _
      (fun hfalse => by cases hfalse)
  · exact h

theorem Slot.Timely.setActuators (h : slot.Timely now) (enabled : Bool) :
    (slot.setActuators enabled).Timely now := ⟨h.paused, h.requested⟩

theorem Slot.Timely.ite {acted : Slot} (h : slot.Timely now) (flag : Bool) (hacted : acted.Timely now) :
    Slot.Timely (if flag then acted else slot) now := by
  cases flag with
  | true => exact hacted
  | false => exact h

theorem Slot.Timely.command (h : slot.Timely now) (command : UInt32) :
    (slot.command command now).Timely now := by
  exact Slot.command_keeps (P := fun s => s.Timely now) (fun _ hs => hs.reset) (fun _ hs => hs.stopAll)
    (fun _ hs => hs.pause) (fun _ hs => hs.resume) (fun _ enabled hs => hs.setActuators enabled) h command

theorem active_expireIfFinished {effect : EffectState} (h : (effect.expireIfFinished now).active = true) :
    effect.expireIfFinished now = effect := by
  unfold EffectState.expireIfFinished at h ⊢
  split
  · rename_i hexpired
    rw [if_pos hexpired] at h
    cases h
  · rfl

theorem requested_update {effect : EffectState} {frame : ProtocolFrame}
    (he : effect.active = true → effect.playbackRequestedMilliseconds ≤ now)
    (hactive : (effect.update frame now).active = true) :
    (effect.update frame now).playbackRequestedMilliseconds ≤ now := by
  have hassign : (effect.assign frame).schedule = effect.schedule := EffectState.schedule_assign frame
  have hreschedule : ((effect.assign frame).reschedule frame now).active = true →
      ((effect.assign frame).reschedule frame now).playbackRequestedMilliseconds ≤ now := by
    unfold EffectState.reschedule
    intro hplaying
    split
    · exact le_refl now
    · split
      · rename_i hstart hrefresh
        rw [Bool.and_eq_true, EffectState.active_of_schedule hassign] at hrefresh
        exact (EffectState.requested_of_schedule hassign).trans_le (he hrefresh.1)
      · rename_i hstart hkept
        rw [if_neg hstart, if_neg hkept, EffectState.active_of_schedule hassign] at hplaying
        exact (EffectState.requested_of_schedule hassign).trans_le (he hplaying)
  unfold EffectState.update at hactive ⊢
  simp only at hactive ⊢
  split
  · exact le_refl now
  · rename_i hkept
    rw [if_neg hkept] at hactive
    exact hreschedule hactive

theorem Slot.Timely.withKind (h : slot.Timely now) (kind : EffectKind) :
    Slot.Timely { slot with effect := slot.effect.map fun effect => effect.withKind kind } now := by
  refine h.map ?_ slot.device h.paused
  intro e he
  have hschedule : (e.withKind kind).schedule = e.schedule := EffectState.schedule_withKind kind
  rw [EffectState.active_of_schedule hschedule, EffectState.requested_of_schedule hschedule]
  exact he

/-- Whatever happens to a slot now leaves nothing in the future. -/
theorem Slot.Timely.take (h : slot.Timely now) {key : EffectKey} {event : Happening}
    (hfor : event.For key) : (slot.take now event).Timely now := by
  cases event with
  | nothing => exact h
  | forgotten =>
    constructor
    · rintro ⟨⟩
    · rintro e ⟨⟩
  | gain gain => exact ⟨h.paused, h.requested⟩
  | created effect =>
    refine ⟨h.paused, ?_⟩
    rintro e ⟨⟩ hactive
    rw [hfor.2] at hactive
    cases hactive
  | updated frame =>
    refine ⟨h.paused, ?_⟩
    have hknown : (slot.effectOf frame .unknown).active = true →
        (slot.effectOf frame .unknown).playbackRequestedMilliseconds ≤ now := by
      intro hactive
      unfold Slot.effectOf at hactive ⊢
      cases heffect : slot.effect with
      | none =>
        rw [heffect] at hactive
        cases hactive
      | some effect =>
        rw [heffect] at hactive
        exact h.requested effect heffect hactive
    rintro e ⟨⟩ hactive
    refine requested_update ?_ hactive
    split
    · intro hplaying
      have hsame := active_expireIfFinished hplaying
      rw [hsame] at hplaying ⊢
      exact hknown hplaying
    · exact hknown
  | commanded frame =>
    simp only [Slot.take, Slot.obey]
    split
    · refine ⟨h.paused, ?_⟩
      rintro e ⟨⟩ hactive
      exact le_refl now
    · exact h.map (fun e he hactive => by cases hactive) _ h.paused
    · exact h.map (fun e he hactive => by cases hactive) _ h.paused
    · exact ⟨h.paused, fun e he => by cases he⟩
    · exact h.withKind frame.effectKind
    · exact h.withKind frame.effectKind
  | stopped => exact h.map (fun e he hactive => by cases hactive) _ h.paused
  | device command => exact h.command command

theorem Slot.Timely.look (h : slot.Timely now) : (slot.look now).Timely now := by
  unfold Slot.look
  split
  · exact h
  · refine h.map ?_ slot.device h.paused
    intro e he hactive
    unfold EffectState.isProducing at hactive ⊢
    split
    · rename_i hkept
      rw [if_pos hkept] at hactive
      exact he hactive
    · rename_i hlooked
      rw [if_neg hlooked] at hactive
      simp only at hactive ⊢
      have hsame := active_expireIfFinished hactive
      rw [hsame] at hactive ⊢
      exact he hactive

end Timely

section Timelines

inductive Input where
  | frame (frame : ProtocolFrame)
  | tick (settings : NormalizedSettings)

variable (sine : Sine)

def SourceState.play (s : SourceState) : ℚ × Input → SourceState
  | (now, .frame frame) => s.receive frame now
  | (now, .tick settings) => (s.tick now settings sine).2

def Ordered : ℚ → List (ℚ × Input) → ℚ → Prop
  | start, [], finish => start ≤ finish
  | start, (now, _) :: rest, finish => start ≤ now ∧ Ordered now rest finish

def SourceState.producing (s : SourceState) (now : ℚ) (key : EffectKey) : Bool :=
  (s.effects.find? key).any fun effect =>
    !(s.deviceOf key.deviceId).paused && (effect.isProducing now).1

variable {sine} {s : SourceState}

theorem Ordered.le {start finish : ℚ} {timeline : List (ℚ × Input)} (h : Ordered start timeline finish) :
    start ≤ finish := by
  induction timeline generalizing start with
  | nil => exact h
  | cons input rest ih => exact h.1.trans (ih h.2)

theorem slot_receive (hfiled : FiledEffects s.effects) (frame : ProtocolFrame) (now : ℚ)
    (key : EffectKey) :
    (s.receive frame now).slot key = (s.slot key).take now (s.happening key frame) :=
  slot_apply (s := { s with lastActivityMilliseconds := now }) frame now hfiled key

structure SourceState.Sound (s : SourceState) (now : ℚ) : Prop where
  filed : FiledEffects s.effects
  timely : ∀ key, (s.slot key).Timely now

theorem SourceState.Sound.advance {now later : ℚ} (h : s.Sound now) (hle : now ≤ later) : s.Sound later :=
  ⟨h.filed, fun key => (h.timely key).advance hle⟩

theorem SourceState.Sound.play {now : ℚ} (h : s.Sound now) (input : Input) :
    (s.play sine (now, input)).Sound now := by
  cases input with
  | frame frame =>
    have hfiled : FiledEffects (s.receive frame now).effects :=
      filed_apply (s := { s with lastActivityMilliseconds := now }) h.filed frame now
    refine ⟨hfiled, ?_⟩
    intro key
    rw [SourceState.play, slot_receive h.filed]
    exact (h.timely key).take (happening_for s key frame)
  | tick settings =>
    refine ⟨filed_tick now settings h.filed sine, ?_⟩
    intro key
    rw [SourceState.play, slot_tick now settings h.filed sine key]
    split
    · exact (h.timely key).look
    · exact h.timely key

theorem SourceState.Sound.run {start finish : ℚ} {timeline : List (ℚ × Input)} (h : s.Sound start)
    (hordered : Ordered start timeline finish) :
    (Library.Runs.run (SourceState.play sine) s timeline).Sound finish := by
  induction timeline generalizing s start with
  | nil => exact h.advance hordered
  | cons input rest ih =>
    exact ih ((h.advance hordered.1).play input.2) hordered.2

theorem sound_new (identity : SourceIdentity) (now : ℚ) :
    SourceState.Sound { identity := identity } now := by
  refine ⟨?_, fun key => ⟨?_, ?_⟩⟩
  · rintro key effect ⟨⟩
  · rintro ⟨⟩
  · rintro e ⟨⟩

end Timelines

end FfbInterceptor.Engine
