import Mathlib.Tactic.Ring
import Mathlib.Tactic.Linarith
import FfbInterceptor.Engine.Source

/-! The schedule of one effect: when it is over, what moving it in time leaves unchanged, and what
the operations of the source do to it. -/
namespace FfbInterceptor.Engine
open FfbInterceptor.Protocol

structure Schedule where
  active : Bool
  playbackRequestedMilliseconds : ℚ
  activeFromMilliseconds : ℚ
  activeUntilMilliseconds : Option ℚ

namespace EffectState

def schedule (effect : EffectState) : Schedule where
  active := effect.active
  playbackRequestedMilliseconds := effect.playbackRequestedMilliseconds
  activeFromMilliseconds := effect.activeFromMilliseconds
  activeUntilMilliseconds := effect.activeUntilMilliseconds

def withSchedule (effect : EffectState) (schedule : Schedule) : EffectState :=
  { effect with
    active := schedule.active
    playbackRequestedMilliseconds := schedule.playbackRequestedMilliseconds
    activeFromMilliseconds := schedule.activeFromMilliseconds
    activeUntilMilliseconds := schedule.activeUntilMilliseconds }

def delay (effect : EffectState) (milliseconds : ℚ) : EffectState :=
  { effect with
    playbackRequestedMilliseconds := effect.playbackRequestedMilliseconds + milliseconds
    activeFromMilliseconds := effect.activeFromMilliseconds + milliseconds
    activeUntilMilliseconds := effect.activeUntilMilliseconds.map (· + milliseconds) }

def live (effect : EffectState) (time : ℚ) : Bool :=
  effect.active && !reached time effect.activeUntilMilliseconds

variable {effect : EffectState} {time : ℚ}

theorem delay_eq_withSchedule (milliseconds : ℚ) :
    effect.delay milliseconds = effect.withSchedule (effect.delay milliseconds).schedule := rfl

section Liveness

theorem reached_add (time milliseconds : ℚ) (finish : Option ℚ) :
    reached (time + milliseconds) (finish.map (· + milliseconds)) = reached time finish := by
  cases finish with
  | none => rfl
  | some finish => simp only [reached, Option.map_some, add_le_add_iff_right]

theorem live_delay (milliseconds : ℚ) :
    (effect.delay milliseconds).live (time + milliseconds) = effect.live time := by
  simp only [live, delay, reached_add]

theorem live_of_le {later : ℚ} (h : effect.live later = true) (hle : time ≤ later) :
    effect.live time = true := by
  cases hfinish : effect.activeUntilMilliseconds with
  | none =>
    simp only [live, hfinish, reached] at h ⊢
    exact h
  | some finish =>
    simp only [live, hfinish, reached, Bool.and_eq_true, Bool.not_eq_true', decide_eq_false_iff_not,
      not_le] at h ⊢
    exact ⟨h.1, hle.trans_lt h.2⟩

theorem over_of_le {later : ℚ} (h : effect.live time = false) (hle : time ≤ later) :
    effect.live later = false := by
  rw [Bool.eq_false_iff] at h ⊢
  intro hlater
  exact h (live_of_le hlater hle)

theorem over_of_inactive (h : effect.active = false) (time : ℚ) : effect.live time = false := by
  rw [live, h, Bool.false_and]

theorem over_stop (time : ℚ) : effect.stop.live time = false := over_of_inactive rfl time

theorem isProducing_fst (time : ℚ) :
    (effect.isProducing time).1 = (effect.live time && decide (effect.activeFromMilliseconds ≤ time)) := by
  unfold isProducing expireIfFinished live
  by_cases hactive : effect.active = true
  · by_cases hfrom : time < effect.activeFromMilliseconds
    · simp [hactive, hfrom, not_le.mpr hfrom]
    · cases hreached : reached time effect.activeUntilMilliseconds with
      | true => simp [hactive, hfrom]
      | false => simp [hactive, hfrom, not_lt.mp hfrom]
  · simp [hactive]

theorem isProducing_delay (milliseconds : ℚ) :
    ((effect.delay milliseconds).isProducing (time + milliseconds)).1 = (effect.isProducing time).1 := by
  rw [isProducing_fst, isProducing_fst, live_delay]
  simp only [delay, add_le_add_iff_right]

theorem rawLevelAt_delay (sine : Sine) (milliseconds : ℚ) :
    (effect.delay milliseconds).rawLevelAt sine (time + milliseconds) = effect.rawLevelAt sine time := by
  have helapsed : (effect.delay milliseconds).iterationElapsedMilliseconds (time + milliseconds) =
      effect.iterationElapsedMilliseconds time := by
    have hshift : time + milliseconds - (effect.activeFromMilliseconds + milliseconds) =
        time - effect.activeFromMilliseconds := by ring
    simp only [iterationElapsedMilliseconds, delay, hshift]
    rfl
  simp only [rawLevelAt, helapsed]
  rfl

end Liveness

section Equal

variable {effect' : EffectState} (h : effect'.schedule = effect.schedule)

include h

theorem active_of_schedule : effect'.active = effect.active := congrArg Schedule.active h

theorem requested_of_schedule :
    effect'.playbackRequestedMilliseconds = effect.playbackRequestedMilliseconds :=
  congrArg Schedule.playbackRequestedMilliseconds h

theorem live_of_schedule (time : ℚ) : effect'.live time = effect.live time := by
  have huntil : effect'.activeUntilMilliseconds = effect.activeUntilMilliseconds :=
    congrArg Schedule.activeUntilMilliseconds h
  rw [live, live, active_of_schedule h, huntil]

end Equal

section Expiry

theorem expireIfFinished_of_live (h : effect.live time = true) : effect.expireIfFinished time = effect := by
  simp only [live, Bool.and_eq_true, Bool.not_eq_true'] at h
  simp only [expireIfFinished, h.2, Bool.and_false, Bool.false_eq_true, ↓reduceIte]

theorem expireIfFinished_of_over (h : effect.live time = false) :
    effect.expireIfFinished time = { effect with active := false } := by
  unfold expireIfFinished
  by_cases hactive : effect.active = true
  · simp only [live, hactive, Bool.true_and, Bool.not_eq_false'] at h
    simp only [hactive, h, Bool.and_self, ↓reduceIte]
  · rw [Bool.not_eq_true] at hactive
    simp only [hactive, Bool.false_and, Bool.false_eq_true, ↓reduceIte]
    rw [← hactive]

theorem isProducing_snd_of_live (h : effect.live time = true) : (effect.isProducing time).2 = effect := by
  unfold isProducing
  split
  · rfl
  · exact expireIfFinished_of_live h

theorem isProducing_snd_of_over (h : effect.live time = false) :
    (effect.isProducing time).2.live time = false ∧
      (effect.isProducing time).2 = effect.withSchedule (effect.isProducing time).2.schedule := by
  unfold isProducing
  split
  · exact ⟨h, rfl⟩
  · simp only [expireIfFinished_of_over h]
    exact ⟨over_of_inactive rfl time, rfl⟩

theorem expiry_of_over (h : effect.live time = false) :
    (if effect.active && true then effect.expireIfFinished time else effect) =
      { effect with active := false } := by
  rw [Bool.and_true]
  split
  · exact expireIfFinished_of_over h
  · rename_i hactive
    rw [Bool.not_eq_true] at hactive
    rw [← hactive]

theorem expiry_of_live (h : effect.live time = true) :
    (if effect.active && true then effect.expireIfFinished time else effect) = effect := by
  split
  · exact expireIfFinished_of_live h
  · rfl

theorem delay_zero : effect.delay 0 = effect := by
  simp only [delay, add_zero, Option.map_id']

theorem delay_delay (milliseconds more : ℚ) :
    (effect.delay milliseconds).delay more = effect.delay (milliseconds + more) := by
  simp only [delay, Option.map_map, Function.comp_def, add_assoc]

theorem resumeAfterPause_of_inactive (h : effect.active = false) (pausedAt now : ℚ) :
    effect.resumeAfterPause pausedAt now = effect := by
  simp only [resumeAfterPause, shiftSchedule, h, Bool.not_false, Bool.true_or, ↓reduceIte]

theorem resumeAfterPause_of_active (h : effect.active = true) {pausedAt now : ℚ}
    (hle : max pausedAt effect.playbackRequestedMilliseconds ≤ now) :
    effect.resumeAfterPause pausedAt now =
      effect.delay (now - max pausedAt effect.playbackRequestedMilliseconds) := by
  have hnonneg := sub_nonneg.mpr hle
  rw [resumeAfterPause, max_eq_right hnonneg, shiftSchedule]
  by_cases hzero : now - max pausedAt effect.playbackRequestedMilliseconds ≤ 0
  · rw [if_pos (by simp [hzero]), le_antisymm hzero hnonneg, delay_zero]
  · rw [if_neg (by simp [h, hzero])]
    rfl

end Expiry

section Parameters

variable (frame : ProtocolFrame)

theorem withKind_withSchedule (schedule : Schedule) (kind : EffectKind) :
    (effect.withSchedule schedule).withKind kind = (effect.withKind kind).withSchedule schedule := by
  unfold withKind
  split <;> rfl

theorem schedule_withKind (kind : EffectKind) : (effect.withKind kind).schedule = effect.schedule := by
  unfold withKind
  split <;> rfl

theorem assign_withSchedule (schedule : Schedule) :
    (effect.withSchedule schedule).assign frame = (effect.assign frame).withSchedule schedule := by
  have hforces : ∀ e : EffectState,
      (e.withSchedule schedule).assignForces frame = (e.assignForces frame).withSchedule schedule := by
    intro e
    unfold assignForces
    split <;> rfl
  have henvelope : ∀ e : EffectState,
      (e.withSchedule schedule).assignEnvelope frame = (e.assignEnvelope frame).withSchedule schedule := by
    intro e
    unfold assignEnvelope
    split <;> rfl
  have htiming : ∀ e : EffectState,
      (e.withSchedule schedule).assignTiming frame = (e.assignTiming frame).withSchedule schedule :=
    fun _ => rfl
  have htrigger : ∀ e : EffectState,
      (e.withSchedule schedule).assignTrigger frame = (e.assignTrigger frame).withSchedule schedule :=
    fun _ => rfl
  simp only [assign, withKind_withSchedule, htiming, hforces, htrigger, henvelope]

theorem schedule_assign : (effect.assign frame).schedule = effect.schedule := by
  have hforces : ∀ e : EffectState, (e.assignForces frame).schedule = e.schedule := by
    intro e
    unfold assignForces
    split <;> rfl
  have henvelope : ∀ e : EffectState, (e.assignEnvelope frame).schedule = e.schedule := by
    intro e
    unfold assignEnvelope
    split <;> rfl
  have htiming : ∀ e : EffectState, (e.assignTiming frame).schedule = e.schedule := fun _ => rfl
  have htrigger : ∀ e : EffectState, (e.assignTrigger frame).schedule = e.schedule := fun _ => rfl
  simp only [assign, henvelope, htrigger, hforces, htiming, schedule_withKind]

theorem withKind_delay (milliseconds : ℚ) (kind : EffectKind) :
    (effect.delay milliseconds).withKind kind = (effect.withKind kind).delay milliseconds := by
  unfold withKind
  split <;> rfl

theorem assign_delay (milliseconds : ℚ) :
    (effect.delay milliseconds).assign frame = (effect.assign frame).delay milliseconds := by
  have hschedule : (effect.assign frame).schedule = effect.schedule := schedule_assign frame
  have hdelay : ((effect.assign frame).delay milliseconds).schedule =
      (effect.delay milliseconds).schedule := by
    simp only [schedule, Schedule.mk.injEq] at hschedule
    simp only [delay, schedule, hschedule]
  rw [delay_eq_withSchedule, assign_withSchedule, ← hdelay, ← delay_eq_withSchedule]

/-- A new playback forgets the old schedule. -/
theorem begin_withSchedule (schedule : Schedule) (now : ℚ) (iterations : UInt32) :
    (effect.withSchedule schedule).begin now iterations = effect.begin now iterations := rfl

theorem refreshSchedule_delay (milliseconds : ℚ) :
    (effect.delay milliseconds).refreshSchedule = effect.refreshSchedule.delay milliseconds := by
  have hfrom : effect.playbackRequestedMilliseconds + milliseconds +
      effect.startDelayMicroseconds.toNat / 1000 =
      effect.playbackRequestedMilliseconds + effect.startDelayMicroseconds.toNat / 1000 +
        milliseconds := by ring
  unfold refreshSchedule delay
  simp only [hfrom, EffectState.mk.injEq, true_and, and_true]
  split
  · rfl
  · simp only [Option.map_some, Option.some.injEq]
    ring

theorem begin_delay (now milliseconds : ℚ) (iterations : UInt32) :
    effect.begin (now + milliseconds) iterations = (effect.begin now iterations).delay milliseconds := by
  unfold EffectState.begin
  rw [← refreshSchedule_delay]
  rfl

theorem reschedule_delay (now milliseconds : ℚ) :
    (effect.delay milliseconds).reschedule frame (now + milliseconds) =
      (effect.reschedule frame now).delay milliseconds := by
  unfold reschedule
  split
  · rw [delay_eq_withSchedule, begin_withSchedule, begin_delay]
  · have hactive : (effect.delay milliseconds).active = effect.active := rfl
    rw [hactive]
    split
    · exact refreshSchedule_delay milliseconds
    · rfl

theorem update_delay (now milliseconds : ℚ) :
    (effect.delay milliseconds).update frame (now + milliseconds) =
      (effect.update frame now).delay milliseconds := by
  unfold update
  rw [assign_delay]
  simp only [reschedule_delay]
  split
  · rw [delay_eq_withSchedule, begin_withSchedule, begin_delay]
    rfl
  · rfl

theorem update_of_inactive (h : effect.active = false) (schedule : Schedule)
    (hschedule : schedule.active = false) (now time : ℚ) :
    (effect.withSchedule schedule).update frame time =
        (effect.update frame now).delay (time - now) ∨
      ((effect.update frame now).active = false ∧
        (effect.withSchedule schedule).update frame time =
          (effect.update frame now).withSchedule schedule) := by
  have hactive : (effect.assign frame).active = false :=
    (active_of_schedule (schedule_assign frame)).trans h
  have hbegin : ∀ (e : EffectState) (iterations : UInt32),
      e.begin time iterations = (e.begin now iterations).delay (time - now) := by
    intro e iterations
    rw [← begin_delay, add_sub_cancel]
  unfold update
  simp only [assign_withSchedule]
  by_cases hstart : hasFlags frame.flags DiepStart = true
  · left
    simp only [reschedule, hstart, ↓reduceIte, begin_withSchedule, hbegin _ 1]
    split
    · rw [delay_eq_withSchedule, begin_withSchedule, hbegin]
      rfl
    · rfl
  · rw [Bool.not_eq_true] at hstart
    have hkept : ((effect.assign frame).withSchedule schedule).active = false := hschedule
    simp only [reschedule, hstart, hactive, hkept, Bool.false_and, Bool.false_eq_true, ↓reduceIte]
    split
    · left
      rw [begin_withSchedule, hbegin]
      rfl
    · exact Or.inr ⟨hactive, rfl⟩

end Parameters

section Moved

variable (effect : EffectState) (time time' : ℚ)

theorem live_moved : (effect.delay (time' - time)).live time' = effect.live time := by
  have h : (effect.delay (time' - time)).live (time + (time' - time)) = effect.live time :=
    live_delay _
  rwa [add_sub_cancel] at h

theorem isProducing_moved :
    ((effect.delay (time' - time)).isProducing time').1 = (effect.isProducing time).1 := by
  have h : ((effect.delay (time' - time)).isProducing (time + (time' - time))).1 =
      (effect.isProducing time).1 := isProducing_delay _
  rwa [add_sub_cancel] at h

theorem rawLevelAt_moved (sine : Sine) :
    (effect.delay (time' - time)).rawLevelAt sine time' = effect.rawLevelAt sine time := by
  have h : (effect.delay (time' - time)).rawLevelAt sine (time + (time' - time)) =
      effect.rawLevelAt sine time := rawLevelAt_delay sine _
  rwa [add_sub_cancel] at h

theorem begin_moved (iterations : UInt32) :
    effect.begin time' iterations = (effect.begin time iterations).delay (time' - time) := by
  rw [← begin_delay, add_sub_cancel]

theorem update_moved (frame : ProtocolFrame) :
    (effect.delay (time' - time)).update frame time' =
      (effect.update frame time).delay (time' - time) := by
  rw [← update_delay, add_sub_cancel]

end Moved

end EffectState

end FfbInterceptor.Engine
