import FfbInterceptor.Engine.Capacity

/-! The gains of the effects and devices of a source, over every run of the engine. -/
namespace FfbInterceptor.Engine
open FfbInterceptor.Library FfbInterceptor.Protocol FfbInterceptor.Server

section Gains

structure Slot.Scaled (slot : Slot) : Prop where
  device : 0 ≤ slot.device.gain
  effect : ∀ e, slot.effect = some e → 0 ≤ e.gain

def Happening.Scaled : Happening → Prop
  | .gain value => 0 ≤ value
  | .created effect => 0 ≤ effect.gain
  | .nothing | .forgotten | .updated _ | .commanded _ | .stopped | .device _ => True

variable {slot : Slot} {now : ℚ}

theorem clamp01_nonneg (value : ℚ) : 0 ≤ clamp01 value := le_max_left _ _

theorem happening_scaled (s : SourceState) (key : EffectKey) (frame : ProtocolFrame) :
    (s.happening key frame).Scaled := by
  have hcreated : 0 ≤ (createdEffect frame).gain := by
    unfold createdEffect
    simp only
    split
    · exact zero_le_one
    · exact clamp01_nonneg _
  have hgain : 0 ≤ normalizeUnsigned frame.gain := clamp01_nonneg _
  unfold SourceState.happening SourceState.happens frameHappening
  repeat' split
  all_goals simp_all [Happening.Scaled]

theorem Slot.Scaled.map (h : slot.Scaled) (f : EffectState → EffectState)
    (hf : ∀ e, 0 ≤ e.gain → 0 ≤ (f e).gain) (device : DeviceState) (hdevice : 0 ≤ device.gain) :
    Slot.Scaled ⟨device, slot.effect.map f⟩ := by
  refine ⟨hdevice, ?_⟩
  intro e he
  obtain ⟨before, hbefore, rfl⟩ := Option.map_eq_some_iff.mp he
  exact hf before (h.effect before hbefore)

theorem gain_resumeAfterPause (effect : EffectState) (pausedAt now : ℚ) :
    (effect.resumeAfterPause pausedAt now).gain = effect.gain := by
  unfold EffectState.resumeAfterPause EffectState.shiftSchedule
  split <;> rfl

theorem gain_withKind (effect : EffectState) (kind : EffectKind) :
    (effect.withKind kind).gain = effect.gain := by
  unfold EffectState.withKind
  split <;> rfl

theorem gain_expireIfFinished (effect : EffectState) (now : ℚ) :
    (effect.expireIfFinished now).gain = effect.gain := by
  unfold EffectState.expireIfFinished
  split <;> rfl

theorem gain_update {effect : EffectState} (h : 0 ≤ effect.gain) (frame : ProtocolFrame) (now : ℚ) :
    0 ≤ (effect.update frame now).gain := by
  have htiming : ∀ e : EffectState, 0 ≤ e.gain → 0 ≤ (e.assignTiming frame).gain := by
    intro e he
    simp only [EffectState.assignTiming]
    split
    · exact clamp01_nonneg _
    · exact he
  have hforces : ∀ e : EffectState, (e.assignForces frame).gain = e.gain := by
    intro e
    unfold EffectState.assignForces
    split <;> rfl
  have henvelope : ∀ e : EffectState, (e.assignEnvelope frame).gain = e.gain := by
    intro e
    unfold EffectState.assignEnvelope
    split <;> rfl
  have htrigger : ∀ e : EffectState, (e.assignTrigger frame).gain = e.gain := fun _ => rfl
  have hassign : 0 ≤ (effect.assign frame).gain := by
    simp only [EffectState.assign, henvelope, htrigger, hforces]
    refine htiming _ ?_
    rw [gain_withKind]
    exact h
  have hreschedule : ((effect.assign frame).reschedule frame now).gain = (effect.assign frame).gain := by
    unfold EffectState.reschedule
    split
    · rfl
    · split <;> rfl
  unfold EffectState.update
  simp only
  split
  · exact hreschedule ▸ hassign
  · exact hreschedule ▸ hassign

theorem Slot.Scaled.command (h : slot.Scaled) (command : UInt32) : (slot.command command now).Scaled := by
  have hpause : ∀ slot : Slot, slot.Scaled → (slot.pause now).Scaled := by
    intro slot h
    unfold Slot.pause
    split
    · exact h
    · exact ⟨h.device, h.effect⟩
  have hresume : ∀ slot : Slot, slot.Scaled → (slot.resume now).Scaled := by
    intro slot h
    unfold Slot.resume
    split
    · exact h.map _ (fun e he => (gain_resumeAfterPause e _ now).symm ▸ he) _ h.device
    · exact h
  have hstopAll : ∀ slot : Slot, slot.Scaled → slot.stopAll.Scaled :=
    fun slot h => h.map EffectState.stop (fun _ he => he) _ h.device
  have hresets : ∀ slot : Slot, slot.Scaled → slot.reset.Scaled :=
    fun slot h => ⟨h.device, (hstopAll slot h).effect⟩
  have hactuators : ∀ enabled : Bool, ∀ slot : Slot, slot.Scaled → (slot.setActuators enabled).Scaled :=
    fun _ slot h => ⟨h.device, h.effect⟩
  exact Slot.command_keeps hresets hstopAll hpause hresume (fun s enabled hs => hactuators enabled s hs) h
    command

theorem Slot.Scaled.effectOf (h : slot.Scaled) (frame : ProtocolFrame) (kind : EffectKind) :
    0 ≤ (slot.effectOf frame kind).gain := by
  unfold Slot.effectOf
  cases heffect : slot.effect with
  | none => exact zero_le_one
  | some effect => exact h.effect effect heffect

theorem Slot.Scaled.take (h : slot.Scaled) {event : Happening} (hevent : event.Scaled) :
    (slot.take now event).Scaled := by
  have hkind : ∀ kind : EffectKind, ∀ e : EffectState, 0 ≤ e.gain → 0 ≤ (e.withKind kind).gain :=
    fun kind e he => (gain_withKind e kind).symm ▸ he
  cases event with
  | nothing => exact h
  | forgotten => exact ⟨zero_le_one, fun e he => by cases he⟩
  | gain gain =>
    have hgain : 0 ≤ gain := hevent
    exact ⟨hgain, h.effect⟩
  | created effect =>
    have hgain : 0 ≤ effect.gain := hevent
    refine ⟨h.device, ?_⟩
    rintro e ⟨⟩
    exact hgain
  | updated frame =>
    refine ⟨h.device, ?_⟩
    rintro e ⟨⟩
    refine gain_update ?_ frame now
    split
    · rw [gain_expireIfFinished]
      exact h.effectOf frame .unknown
    · exact h.effectOf frame .unknown
  | commanded frame =>
    simp only [Slot.take, Slot.obey]
    split
    · refine ⟨h.device, ?_⟩
      rintro e ⟨⟩
      exact hkind _ _ (h.effectOf frame frame.effectKind)
    · exact h.map (fun e => (e.withKind frame.effectKind).stop) (hkind _) _ h.device
    · exact h.map (fun e => (e.withKind frame.effectKind).stop) (hkind _) _ h.device
    · exact ⟨h.device, fun e he => by cases he⟩
    · exact h.map (fun e => e.withKind frame.effectKind) (hkind _) _ h.device
    · exact h.map (fun e => e.withKind frame.effectKind) (hkind _) _ h.device
  | stopped => exact h.map EffectState.stop (fun _ he => he) _ h.device
  | device command => exact h.command command

theorem Slot.Scaled.look (h : slot.Scaled) : (slot.look now).Scaled := by
  unfold Slot.look
  split
  · exact h
  · refine h.map (fun e => (e.isProducing now).2) ?_ _ h.device
    intro e he
    unfold EffectState.isProducing
    split
    · exact he
    · exact (gain_expireIfFinished e now).symm ▸ he

end Gains

section Reachable

variable {sine : Sine} {s : SourceState}

/-- What a call does to the slots of a source: nothing, what a frame means, a look, or a stop. -/
theorem slot_call (hfiled : FiledEffects s.effects) (settings : NormalizedSettings) (key : SourceKey)
    (call : Call) (effectKey : EffectKey) :
    (s.call sine settings key call).slot effectKey = s.slot effectKey ∨
    (∃ frame now, (s.call sine settings key call).slot effectKey =
      (s.slot effectKey).take now (s.happening effectKey frame)) ∨
    (∃ now, (s.call sine settings key call).slot effectKey = (s.slot effectKey).look now) ∨
    (s.call sine settings key call).slot effectKey = ⟨(s.slot effectKey).device,
      (s.slot effectKey).effect.map fun effect => { effect with active := false }⟩ := by
  cases call with
  | connect identity connectionId now =>
    refine Or.inl ?_
    simp only [SourceState.call]
    split <;> rfl
  | disconnect key' connectionId now =>
    simp only [SourceState.call, SourceState.disconnect]
    split
    · split
      · exact Or.inl rfl
      · refine Or.inr (Or.inr (Or.inr (slot_eq rfl ?_)))
        exact Dictionary.find?_map _ _ _
    · exact Or.inl rfl
  | processFrame key' frame now =>
    simp only [SourceState.call]
    split
    · exact Or.inr (Or.inl ⟨frame, now, slot_receive hfiled frame now effectKey⟩)
    · exact Or.inl rfl
  | tick now =>
    have htick := slot_tick now settings hfiled sine effectKey
    split at htick
    · exact Or.inr (Or.inr (Or.inl ⟨now, htick⟩))
    · exact Or.inl htick
  | resetPeak | reportProtocolError | updateSettings settings | tryDequeueTransition => exact Or.inl rfl

variable {settings : DetectorSettings}

/-- The gains of every source the engine has are fractions of full scale. -/
theorem scaled_after (calls : List Call) : ∀ key s,
    (ClippingEngine.after sine settings calls).sources.find? key = some s →
    ∀ effectKey, (s.slot effectKey).Scaled := by
  induction calls using List.reverseRecOn with
  | nil => rintro key s ⟨⟩
  | append_singleton calls call ih =>
    intro key s hs effectKey
    rw [after_concat] at hs
    cases hbefore : (ClippingEngine.after sine settings calls).sources.find? key with
    | none =>
      cases find?_step_of_none sine hbefore call with
      | inl hnone =>
        rw [hnone] at hs
        cases hs
      | inr hentered =>
        obtain ⟨identity, connectionId, now, -, -, hnew⟩ := hentered
        rw [hnew] at hs
        cases hs
        exact ⟨zero_le_one, fun e he => by cases he⟩
    | some before =>
      have hscaled := ih key before hbefore effectKey
      have hfiled := ((withinLimits_after calls).sources key before hbefore).filed
      cases find?_step_of_some sine hbefore call with
      | inr hevicted =>
        rw [hevicted.2] at hs
        cases hs
      | inl hkept =>
        rw [hkept] at hs
        cases hs
        obtain hsame | ⟨frame, now, htaken⟩ | ⟨now, hlooked⟩ | hstopped :=
          slot_call hfiled _ key call effectKey
        · exact hsame ▸ hscaled
        · exact htaken ▸ hscaled.take (happening_scaled before effectKey frame)
        · exact hlooked ▸ hscaled.look
        · rw [hstopped]
          exact hscaled.map (fun e => { e with active := false }) (fun _ he => he) _ hscaled.device

end Reachable

end FfbInterceptor.Engine
