import FfbInterceptor.Engine.Timeline

/-! Finished playback: once the schedule of an effect has run out in the unpaused time of its device,
nothing but a new start makes it produce again, with one exception. -/
namespace FfbInterceptor.Engine
open FfbInterceptor.Library FfbInterceptor.Protocol FfbInterceptor.Server

section Effects

variable {effect : EffectState}

theorem update_of_kept {frame : ProtocolFrame} (hstart : hasFlags frame.flags DiepStart = false)
    (hrestarted : EffectState.restarted frame = false)
    (hkept : (effect.active && hasFlags frame.flags (DiepDuration ||| DiepStartDelay)) = false)
    (now : ℚ) : effect.update frame now = effect.assign frame := by
  have hactive : (effect.assign frame).active = effect.active :=
    EffectState.active_of_schedule (EffectState.schedule_assign frame)
  simp only [EffectState.update, EffectState.reschedule, hstart, hrestarted, hactive, hkept,
    Bool.false_eq_true, ↓reduceIte]

theorem over_resumeAfterPause {pausedAt now : ℚ}
    (hover : effect.live (max pausedAt effect.playbackRequestedMilliseconds) = false)
    (hpaused : pausedAt ≤ now)
    (hrequested : effect.active = true → effect.playbackRequestedMilliseconds ≤ now) :
    (effect.resumeAfterPause pausedAt now).live now = false := by
  cases hactive : effect.active with
  | false =>
    rw [EffectState.resumeAfterPause_of_inactive hactive]
    exact EffectState.over_of_inactive hactive now
  | true =>
    rw [EffectState.resumeAfterPause_of_active hactive (max_le hpaused (hrequested hactive))]
    rw [EffectState.live_moved, hover]

end Effects

section Slots

/-- The effect of a slot, if any, has no schedule left in the unpaused time of its device. -/
def Slot.Finished (slot : Slot) (now : ℚ) : Prop :=
  ∀ e, slot.effect = some e → e.live (slot.device.position now e) = false

def Happening.Begins : Happening → Prop
  | .commanded frame => frame.effectCommand = some .start
  | .updated frame => hasFlags frame.flags DiepStart = true ∨ EffectState.restarted frame = true
  | _ => False

/-- An update reschedules an effect that is over but not yet expired, because its device is paused. -/
def Slot.Revives (slot : Slot) : Happening → Prop
  | .updated frame => slot.device.paused = true ∧
      hasFlags frame.flags (DiepDuration ||| DiepStartDelay) = true ∧
      ∃ e, slot.effect = some e ∧ e.active = true
  | _ => False

variable {slot : Slot} {now : ℚ}

theorem Slot.Finished.advance (h : slot.Finished now) {later : ℚ} (hle : now ≤ later) :
    slot.Finished later := by
  intro e he
  refine EffectState.over_of_le (h e he) ?_
  unfold DeviceState.position
  split
  · exact le_refl _
  · exact hle

theorem Slot.finished_of_stop (slot : Slot) (device : DeviceState) (now : ℚ) :
    Slot.Finished ⟨device, slot.effect.map EffectState.stop⟩ now := by
  intro e he
  obtain ⟨before, -, rfl⟩ := Option.map_eq_some_iff.mp he
  exact EffectState.over_stop _

theorem Slot.Finished.stopAll (_ : slot.Finished now) : slot.stopAll.Finished now :=
  slot.finished_of_stop _ now

theorem Slot.Finished.reset (_ : slot.Finished now) : slot.reset.Finished now :=
  slot.finished_of_stop _ now

theorem Slot.Finished.pause (h : slot.Finished now) : (slot.pause now).Finished now := by
  unfold Slot.pause
  split
  · exact h
  · rename_i hpaused
    intro e he
    have hover := h e he
    simp only [DeviceState.position, hpaused, Bool.false_eq_true, ↓reduceIte] at hover ⊢
    exact EffectState.over_of_le hover (le_max_left _ _)

theorem Slot.Finished.resume (h : slot.Finished now) (htimely : slot.Timely now) :
    (slot.resume now).Finished now := by
  unfold Slot.resume
  split
  · rename_i hpaused
    intro e he
    obtain ⟨before, hbefore, rfl⟩ := Option.map_eq_some_iff.mp he
    have hover := h before hbefore
    simp only [DeviceState.position, hpaused, ↓reduceIte] at hover
    exact over_resumeAfterPause hover (htimely.paused hpaused) (htimely.requested before hbefore)
  · exact h

theorem Slot.Finished.setActuators (h : slot.Finished now) (enabled : Bool) :
    (slot.setActuators enabled).Finished now := h

theorem Slot.Finished.command (h : slot.Finished now) (htimely : slot.Timely now) (command : UInt32) :
    (slot.command command now).Finished now := by
  have hboth : (slot.command command now).Finished now ∧ (slot.command command now).Timely now := by
    apply Slot.command_keeps (P := fun s => s.Finished now ∧ s.Timely now) _ _ _ _ _ ⟨h, htimely⟩ command
    · exact fun s hs => ⟨hs.1.reset, hs.2.reset⟩
    · exact fun s hs => ⟨hs.1.stopAll, hs.2.stopAll⟩
    · exact fun s hs => ⟨hs.1.pause, hs.2.pause⟩
    · exact fun s hs => ⟨hs.1.resume hs.2, hs.2.resume⟩
    · exact fun s enabled hs => ⟨hs.1.setActuators enabled, hs.2.setActuators enabled⟩
  exact hboth.1

theorem Slot.Finished.withKind (h : slot.Finished now) (kind : EffectKind) :
    Slot.Finished { slot with effect := slot.effect.map fun effect => effect.withKind kind } now := by
  intro e he
  obtain ⟨before, hbefore, rfl⟩ := Option.map_eq_some_iff.mp he
  have hschedule : (before.withKind kind).schedule = before.schedule := EffectState.schedule_withKind kind
  rw [EffectState.live_of_schedule hschedule, DeviceState.position,
    EffectState.requested_of_schedule hschedule]
  exact h before hbefore

/-- An update that neither begins nor revives leaves a finished effect finished. -/
theorem Slot.Finished.update (h : slot.Finished now) {frame : ProtocolFrame}
    (hbegins : ¬ (Happening.updated frame).Begins) (hrevives : ¬ slot.Revives (.updated frame)) :
    (slot.update frame now).Finished now := by
  have hstart : hasFlags frame.flags DiepStart = false ∧ EffectState.restarted frame = false := by
    simpa [Happening.Begins] using hbegins
  have hinactive : ∀ e : EffectState, e.active = false →
      ∀ time, (e.update frame now).live time = false := by
    intro e he time
    rw [update_of_kept hstart.1 hstart.2 (by rw [he, Bool.false_and]),
      EffectState.live_of_schedule (EffectState.schedule_assign frame)]
    exact EffectState.over_of_inactive he time
  rintro e ⟨⟩
  cases heffect : slot.effect with
  | none =>
    refine hinactive _ ?_ _
    simp only [Slot.effectOf, heffect, Option.getD_none, Bool.false_and, Bool.false_eq_true, ↓reduceIte]
  | some effect =>
    have hover := h effect heffect
    simp only [Slot.update, Slot.effectOf, heffect, Option.getD_some]
    cases hpaused : slot.device.paused with
    | false =>
      simp only [DeviceState.position, hpaused, Bool.false_eq_true, ↓reduceIte] at hover ⊢
      rw [Bool.not_false, EffectState.expiry_of_over hover]
      exact hinactive _ rfl now
    | true =>
      rw [Bool.not_true, Bool.and_false, if_neg Bool.false_ne_true]
      have hkept : (effect.active && hasFlags frame.flags (DiepDuration ||| DiepStartDelay)) = false := by
        rw [Bool.eq_false_iff]
        intro hrevived
        rw [Bool.and_eq_true] at hrevived
        exact hrevives ⟨hpaused, hrevived.2, effect, heffect, hrevived.1⟩
      have hschedule : (effect.assign frame).schedule = effect.schedule :=
        EffectState.schedule_assign frame
      rw [update_of_kept hstart.1 hstart.2 hkept, EffectState.live_of_schedule hschedule,
        DeviceState.position, EffectState.requested_of_schedule hschedule]
      simp only [DeviceState.position, hpaused, ↓reduceIte] at hover ⊢
      exact hover

theorem Slot.Finished.take (h : slot.Finished now) (htimely : slot.Timely now) {event : Happening}
    {key : EffectKey} (hfor : event.For key) (hbegins : ¬ event.Begins)
    (hrevives : ¬ slot.Revives event) : (slot.take now event).Finished now := by
  cases event with
  | nothing | gain gain => exact h
  | forgotten => rintro e ⟨⟩
  | created effect =>
    rintro e ⟨⟩
    exact EffectState.over_of_inactive hfor.2 _
  | updated frame => exact h.update hbegins hrevives
  | commanded frame =>
    simp only [Slot.take, Slot.obey]
    split
    · rename_i hstart
      exact absurd hstart hbegins
    · intro e he
      obtain ⟨before, -, rfl⟩ := Option.map_eq_some_iff.mp he
      exact EffectState.over_stop _
    · intro e he
      obtain ⟨before, -, rfl⟩ := Option.map_eq_some_iff.mp he
      exact EffectState.over_stop _
    · rintro e ⟨⟩
    · exact h.withKind frame.effectKind
    · exact h.withKind frame.effectKind
  | stopped => exact slot.finished_of_stop slot.device now
  | device command => exact h.command htimely command

theorem Slot.Finished.look (h : slot.Finished now) : (slot.look now).Finished now := by
  unfold Slot.look
  split
  · exact h
  · rename_i hpaused
    intro e he
    obtain ⟨before, hbefore, rfl⟩ := Option.map_eq_some_iff.mp he
    have hover := h before hbefore
    simp only [DeviceState.position, hpaused, Bool.false_eq_true, ↓reduceIte] at hover ⊢
    exact (EffectState.isProducing_snd_of_over hover).1

end Slots

section Timelines

variable {sine : Sine}

def SourceState.Finished (s : SourceState) (now : ℚ) (key : EffectKey) : Prop :=
  ∀ effect, s.effects.find? key = some effect →
    effect.live ((s.deviceOf key.deviceId).position now effect) = false

theorem finished_iff {s : SourceState} {now : ℚ} {key : EffectKey} : s.Finished now key ↔
    ((s.effects.find? key).all fun effect =>
      !effect.live ((s.deviceOf key.deviceId).position now effect)) = true := by
  simp only [SourceState.Finished, Option.all_eq_true, Bool.not_eq_true']

def Begins (key : EffectKey) : ℚ × Input → Prop
  | (_, .frame frame) => 0 ≤ frame.hresult ∧ frameKey frame = key ∧
      ((frame.messageType = .effectCommand ∧ frame.effectCommand = some .start) ∨
        (frame.messageType = .effectParametersChanged ∧
          (hasFlags frame.flags DiepStart = true ∨ EffectState.restarted frame = true)))
  | (_, .tick _) => False

/-- A successful update of the duration or the start delay reaches an effect of a paused device that is
over but still marked active. -/
def SourceState.Revives (s : SourceState) (key : EffectKey) : ℚ × Input → Prop
  | (now, .frame frame) => 0 ≤ frame.hresult ∧ frameKey frame = key ∧
      frame.messageType = .effectParametersChanged ∧
      hasFlags frame.flags (DiepDuration ||| DiepStartDelay) = true ∧
      (s.deviceOf key.deviceId).paused = true ∧
      ∃ effect, s.effects.find? key = some effect ∧ effect.active = true ∧
        effect.live ((s.deviceOf key.deviceId).position now effect) = false
  | (_, .tick _) => False

theorem happening_about {s : SourceState} {key : EffectKey} {frame frame' : ProtocolFrame} :
    (s.happening key frame = .updated frame' → frame' = frame ∧ 0 ≤ frame.hresult ∧
      frameKey frame = key ∧ frame.messageType = .effectParametersChanged) ∧
    (s.happening key frame = .commanded frame' → frame' = frame ∧ 0 ≤ frame.hresult ∧
      frameKey frame = key ∧ frame.messageType = .effectCommand) := by
  unfold SourceState.happening SourceState.happens
  by_cases hrefuses : s.refuses frame = true
  · simp [hrefuses]
  by_cases hdrop : frame.messageType = .dropNotice
  · by_cases hmore : s.droppedFrames < frame.dropped.toNat
    · simp [hrefuses, hdrop, hmore]
    · simp [hrefuses, hdrop, hmore]
  by_cases hfailed : frame.hresult < 0 ∧ frame.messageType ≠ .hello
  · simp [hrefuses, hdrop, hfailed]
  rw [if_neg hrefuses, if_neg hdrop, if_neg hfailed]
  unfold frameHappening
  cases htype : frame.messageType with
  | hello | dropNotice | deviceCreated => simp
  | devicePropertyChanged =>
    by_cases hproperty : frame.propertyId = 1 ∧ frame.deviceId = key.deviceId
    · simp [hproperty]
    · simp [hproperty]
  | effectCreated =>
    by_cases hkey : frame.effectId ≠ 0 ∧ frameKey frame = key
    · simp [hkey]
    · simp [hkey]
  | effectParametersChanged =>
    have hsucceeded : 0 ≤ frame.hresult := by simpa [htype] using hfailed
    by_cases hkey : frame.effectId ≠ 0 ∧ frameKey frame = key
    · simp [hkey, hsucceeded, eq_comm]
    · simp [hkey]
  | effectCommand =>
    have hsucceeded : 0 ≤ frame.hresult := by simpa [htype] using hfailed
    by_cases hkey : frameKey frame = key
    · simp [hkey, hsucceeded, eq_comm]
    · by_cases hsolo : frame.effectCommand = some .start ∧ hasFlags frame.flags DiesSolo = true ∧
          frame.deviceId = key.deviceId
      · simp [hkey, hsolo]
      · simp [hkey, hsolo]
  | deviceCommand =>
    by_cases hdevice : frame.deviceId = key.deviceId
    · simp [hdevice]
    · simp [hdevice]

theorem finished_advance {s : SourceState} {now later : ℚ} {key : EffectKey}
    (h : s.Finished now key) (hle : now ≤ later) : s.Finished later key := by
  have hslot : (s.slot key).Finished now := h
  exact hslot.advance hle

/-- Every other input leaves a finished effect finished. -/
theorem finished_play {s : SourceState} {now : ℚ} {key : EffectKey} (hsound : s.Sound now)
    (hfinished : s.Finished now key) (input : Input) (hbegins : ¬ Begins key (now, input))
    (hrevives : ¬ s.Revives key (now, input)) : (s.play sine (now, input)).Finished now key := by
  have hslot : (s.slot key).Finished now := hfinished
  cases input with
  | tick settings =>
    have hlooked : ((s.play sine (now, .tick settings)).slot key).Finished now := by
      rw [SourceState.play, slot_tick now settings hsound.filed sine key]
      split
      · exact hslot.look
      · exact hslot
    exact hlooked
  | frame frame =>
    have htaken : ((s.play sine (now, .frame frame)).slot key).Finished now := by
      rw [SourceState.play, slot_receive hsound.filed]
      refine hslot.take (hsound.timely key) (happening_for s key frame) ?_ ?_
      · intro hbegun
        cases hevent : s.happening key frame with
        | commanded frame' =>
          obtain ⟨rfl, hsucceeded, hkey, htype⟩ := happening_about.2 hevent
          rw [hevent] at hbegun
          exact hbegins ⟨hsucceeded, hkey, Or.inl ⟨htype, hbegun⟩⟩
        | updated frame' =>
          obtain ⟨rfl, hsucceeded, hkey, htype⟩ := happening_about.1 hevent
          rw [hevent] at hbegun
          exact hbegins ⟨hsucceeded, hkey, Or.inr ⟨htype, hbegun⟩⟩
        | nothing | forgotten | gain _ | created _ | stopped | device _ =>
          rw [hevent] at hbegun
          exact hbegun
      · intro hrevived
        cases hevent : s.happening key frame with
        | updated frame' =>
          obtain ⟨rfl, hsucceeded, hkey, htype⟩ := happening_about.1 hevent
          rw [hevent] at hrevived
          obtain ⟨hpaused, htiming, effect, heffect, hactive⟩ := hrevived
          exact hrevives ⟨hsucceeded, hkey, htype, htiming, hpaused, effect, heffect, hactive,
            hfinished effect heffect⟩
        | nothing | forgotten | gain _ | created _ | stopped | commanded _ | device _ =>
          rw [hevent] at hrevived
          exact hrevived
    exact htaken

theorem finished_not_producing {s : SourceState} {now : ℚ} {key : EffectKey}
    (hfinished : s.Finished now key) : s.producing now key = false := by
  unfold SourceState.producing
  cases heffect : s.effects.find? key with
  | none => rfl
  | some effect =>
    have hover := hfinished effect heffect
    unfold DeviceState.position at hover
    cases hpaused : (s.deviceOf key.deviceId).paused with
    | true => rfl
    | false =>
      rw [hpaused, if_neg Bool.false_ne_true] at hover
      rw [Option.any_some, EffectState.isProducing_fst, hover, Bool.false_and, Bool.and_false]

/-- Once the playback of an effect has run out in the unpaused time of its device, no tick finds it
playing before it is begun anew, unless an update revives it. -/
theorem no_resurrection (identity : SourceIdentity) (start ended finish : ℚ) (key : EffectKey)
    (before later : List (ℚ × Input)) (hbefore : Ordered start before ended)
    (hlater : Ordered ended later finish)
    (hfinished : (Runs.run (SourceState.play sine) { identity := identity } before).Finished ended key)
    (hsteps : ∀ part input rest, later = part ++ input :: rest → ¬ Begins key input ∧
      ¬ (Runs.run (SourceState.play sine) { identity := identity } (before ++ part)).Revives key input) :
    (Runs.run (SourceState.play sine) { identity := identity } (before ++ later)).producing finish key =
      false := by
  have hrun : ∀ (later : List (ℚ × Input)) (s : SourceState) (ended : ℚ), s.Sound ended →
      s.Finished ended key → Ordered ended later finish →
      (∀ part input rest, later = part ++ input :: rest →
        ¬ Begins key input ∧ ¬ (Runs.run (SourceState.play sine) s part).Revives key input) →
      (Runs.run (SourceState.play sine) s later).Finished finish key := by
    intro later
    induction later with
    | nil =>
      intro s ended hsound hfinished hordered hsteps
      exact finished_advance hfinished hordered
    | cons input rest ih =>
      intro s ended hsound hfinished hordered hsteps
      obtain ⟨now, input⟩ := input
      have hkept := hsteps [] (now, input) rest rfl
      have hadvanced : s.Finished now key :=
        finished_advance hfinished hordered.1
      refine ih _ now ((hsound.advance hordered.1).play input) ?_ hordered.2 ?_
      · exact finished_play (hsound.advance hordered.1) hadvanced input hkept.1 hkept.2
      · rintro part next tail rfl
        exact hsteps ((now, input) :: part) next tail rfl
  rw [Runs.run_append]
  refine finished_not_producing (hrun later _ ended ((sound_new identity start).run hbefore) hfinished
    hlater ?_)
  intro part input rest hsplit
  rw [← Runs.run_append]
  exact hsteps part input rest hsplit

def sampleFrame (type : MessageType) : ProtocolFrame :=
  { messageType := type, flags := 0, effectParameterPresence := .present, deviceId := 1, effectId := 1 }

def sampleStart : List (ℚ × Input) :=
  [(0, .frame { sampleFrame .effectCreated with
      effectKind := .constant, magnitude := 10000, gain := 10000, duration := 100000 }),
    (0, .frame { sampleFrame .effectCommand with
      effectCommand := some .start, iterations := 1 })]

def samplePause : List (ℚ × Input) :=
  [(150, .frame { sampleFrame .deviceCommand with diFlags := DisffcPause }),
    (200, .frame { sampleFrame .deviceCommand with diFlags := DisffcContinue })]

theorem no_resurrection_sample :
    (Runs.run (SourceState.play flat) { identity := ⟨⟨1, ""⟩, "", "", 64⟩ }
      (sampleStart ++ samplePause)).producing 250 ⟨1, 1⟩ = false := by
  refine no_resurrection ⟨⟨1, ""⟩, "", "", 64⟩ 0 150 250 ⟨1, 1⟩ sampleStart samplePause ?_ ?_ ?_ ?_
  · norm_num [sampleStart, Ordered]
  · norm_num [samplePause, Ordered]
  · exact finished_iff.mpr (by decide +kernel)
  · intro part input rest hsplit
    have hmem : input ∈ samplePause := by
      rw [hsplit]
      exact List.mem_append_right _ List.mem_cons_self
    simp only [samplePause, List.mem_cons, List.not_mem_nil, or_false] at hmem
    cases hmem with
    | inl hpause =>
      rw [hpause]
      simp [Begins, SourceState.Revives, sampleFrame]
    | inr hcontinue =>
      rw [hcontinue]
      simp [Begins, SourceState.Revives, sampleFrame]

/-- In the pause the duration is set to 300 ms, long after the 100 ms are over. -/
def sampleRevival : List (ℚ × Input) :=
  [(150, .frame { sampleFrame .deviceCommand with diFlags := DisffcPause }),
    (160, .frame { sampleFrame .effectParametersChanged with
      flags := DiepDuration, duration := 300000 }),
    (200, .frame { sampleFrame .deviceCommand with diFlags := DisffcContinue })]

instance decidableBegins (key : EffectKey) : (input : ℚ × Input) → Decidable (Begins key input)
  | (_, .frame _) => inferInstanceAs (Decidable (_ ∧ _))
  | (_, .tick _) => inferInstanceAs (Decidable False)

/-- The update brings the finished effect back. -/
theorem update_in_pause_revives :
    ((Runs.run (SourceState.play flat) { identity := ⟨⟨1, ""⟩, "", "", 64⟩ }
        sampleStart).effects.find? ⟨1, 1⟩).map (fun effect => effect.live 150) = some false ∧
      (∀ input ∈ sampleRevival, ¬ Begins ⟨1, 1⟩ input) ∧
      (Runs.run (SourceState.play flat) { identity := ⟨⟨1, ""⟩, "", "", 64⟩ }
        (sampleStart ++ sampleRevival)).producing 250 ⟨1, 1⟩ = true := by
  decide +kernel

end Timelines

end FfbInterceptor.Engine
