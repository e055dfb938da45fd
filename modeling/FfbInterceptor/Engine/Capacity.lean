import FfbInterceptor.Engine.FailClosed
import FfbInterceptor.Engine.Timeline

/-! The bounds of the engine, and what it knows within them: a source that never met a full table is
the source an engine without limits would have. -/
namespace FfbInterceptor.Engine
open FfbInterceptor.Library FfbInterceptor.Protocol FfbInterceptor.Server

section Sources

/-- The tables of a source are within their limits, and no effect is without its device. -/
structure SourceState.WithinLimits (s : SourceState) : Prop where
  filed : FiledEffects s.effects
  devices : s.devices.count ≤ MaximumDevices
  effects : s.effects.count ≤ MaximumEffects
  housed : ∀ key, s.effects.contains key = true → s.devices.contains key.deviceId = true

variable {s : SourceState} {frame : ProtocolFrame}

theorem withinLimits_new (identity : SourceIdentity) :
    SourceState.WithinLimits { identity := identity } := by
  refine ⟨?_, Nat.zero_le _, Nat.zero_le _, ?_⟩
  · rintro key effect ⟨⟩
  · rintro key ⟨⟩

theorem SourceState.WithinLimits.of_map (h : s.WithinLimits) {t : SourceState}
    (hdevices : t.devices = s.devices) {f : EffectKey → EffectState → EffectState}
    (heffects : t.effects = s.effects.map f) (hf : ∀ key effect, (f key effect).key = effect.key) :
    t.WithinLimits := by
  refine ⟨?_, ?_, ?_, ?_⟩
  · rw [heffects]
    exact h.filed.map hf
  · rw [hdevices]
    exact h.devices
  · have hcount : t.effects.count = s.effects.count := by
      rw [heffects]
      exact List.length_map _
    rw [hcount]
    exact h.effects
  · intro key
    rw [heffects, hdevices, Dictionary.contains_map]
    exact h.housed key

theorem SourceState.WithinLimits.of_eq (h : s.WithinLimits) {t : SourceState}
    (hdevices : t.devices = s.devices) (heffects : t.effects = s.effects) : t.WithinLimits := by
  refine ⟨?_, ?_, ?_, ?_⟩
  · rw [heffects]
    exact h.filed
  · rw [hdevices]
    exact h.devices
  · rw [heffects]
    exact h.effects
  · rw [hdevices, heffects]
    exact h.housed

theorem room_of_admits (hroom : s.refuses frame = false) (hsucceeded : 0 ≤ frame.hresult)
    (hfiled : FiledEffects s.effects) (h : s.admits frame = true) :
    s.lacksDevice frame.deviceId = false := by
  unfold SourceState.admits at h
  unfold SourceState.refuses at hroom
  cases htype : frame.messageType with
  | hello | dropNotice =>
    rw [htype] at h
    cases h
  | deviceCreated | deviceCommand =>
    simpa [htype, hsucceeded] using hroom
  | devicePropertyChanged =>
    have hproperty : frame.propertyId = 1 := by simpa [htype] using h
    simpa [htype, hsucceeded, hproperty] using hroom
  | effectCreated =>
    have hid : ¬ frame.effectId = 0 := by simpa [htype] using h
    have hboth : s.lacksEffect (frameKey frame) = false ∧ s.lacksDevice frame.deviceId = false := by
      simpa [htype, hsucceeded, hid] using hroom
    exact hboth.2
  | effectParametersChanged =>
    have hid : ¬ frame.effectId = 0 := by simpa [htype] using h
    have hboth : s.lacksEffect (frameKey frame) = false ∧ s.lacksDevice
        (((s.effects.find? (frameKey frame)).map EffectState.deviceId).getD frame.deviceId) = false := by
      simpa [htype, hsucceeded, hid] using hroom
    cases hfind : s.effects.find? (frameKey frame) with
    | none =>
      rw [hfind] at hboth
      exact hboth.2
    | some effect =>
      have howner : effect.deviceId = frame.deviceId :=
        congrArg EffectKey.deviceId (hfiled (frameKey frame) effect hfind)
      rw [hfind, Option.map_some, Option.getD_some, howner] at hboth
      exact hboth.2
  | effectCommand =>
    have hnew : frame.effectCommand = some .start ∧ s.effects.contains (frameKey frame) = false := by
      simpa [htype] using h
    have hboth : s.lacksEffect (frameKey frame) = false ∧ s.lacksDevice frame.deviceId = false := by
      simpa [htype, hsucceeded, hnew.1, hnew.2] using hroom
    exact hboth.2

/-- An effect comes in only through a frame about it that finds room for it and brings its device. -/
theorem effect_enters (hfiled : FiledEffects s.effects) (now : ℚ) {key : EffectKey}
    (hbefore : s.effects.contains key = false)
    (hafter : (s.apply frame now).effects.contains key = true) :
    s.refuses frame = false ∧ frame.messageType ≠ .dropNotice ∧ 0 ≤ frame.hresult ∧
      frameKey frame = key ∧ s.lacksEffect key = false ∧ s.admits frame = true := by
  have hnone : (s.slot key).effect = none := by
    rw [Dictionary.contains, Option.isSome_eq_false_iff, Option.isNone_iff_eq_none] at hbefore
    exact hbefore
  have hsome : ((s.slot key).take now (s.happening key frame)).effect.isSome = true := by
    rw [← slot_apply frame now hfiled key]
    exact hafter
  have hkept : (s.slot key).effect.isSome = false := by rw [hnone, Option.isSome_none]
  unfold SourceState.happening SourceState.happens at hsome
  by_cases hrefuses : s.refuses frame = true
  · simp [hrefuses, Slot.take, hkept] at hsome
  by_cases hdrop : frame.messageType = .dropNotice
  · by_cases hmore : s.droppedFrames < frame.dropped.toNat
    · simp [hrefuses, hdrop, hmore, Slot.take] at hsome
    · simp [hrefuses, hdrop, hmore, Slot.take, hkept] at hsome
  by_cases hfailed : frame.hresult < 0 ∧ frame.messageType ≠ .hello
  · simp [hrefuses, hdrop, hfailed, Slot.take, hkept] at hsome
  rw [if_neg hrefuses, if_neg hdrop, if_neg hfailed] at hsome
  rw [Bool.not_eq_true] at hrefuses
  refine ⟨hrefuses, hdrop, ?_⟩
  unfold frameHappening at hsome
  unfold SourceState.refuses at hrefuses
  unfold SourceState.admits
  cases htype : frame.messageType with
  | hello | dropNotice | deviceCreated => simp [htype, Slot.take, hkept] at hsome
  | devicePropertyChanged =>
    by_cases hproperty : frame.propertyId = 1 ∧ frame.deviceId = key.deviceId
    · simp [htype, hproperty, Slot.take, hkept] at hsome
    · simp [htype, hproperty, Slot.take, hkept] at hsome
  | deviceCommand =>
    by_cases hdevice : frame.deviceId = key.deviceId
    · have hcommand := isSome_command (s.slot key) frame.diFlags now
      simp [htype, hdevice, Slot.take, hcommand, hkept] at hsome
    · simp [htype, hdevice, Slot.take, hkept] at hsome
  | effectCreated =>
    have hsucceeded : 0 ≤ frame.hresult := by simpa [htype] using hfailed
    by_cases hkey : frame.effectId ≠ 0 ∧ frameKey frame = key
    · obtain ⟨hid, rfl⟩ := hkey
      have hboth : s.lacksEffect (frameKey frame) = false ∧ s.lacksDevice frame.deviceId = false := by
        simpa [htype, hsucceeded, hid] using hrefuses
      exact ⟨hsucceeded, rfl, hboth.1, by simp [hid]⟩
    · simp [htype, hkey, Slot.take, hkept] at hsome
  | effectParametersChanged =>
    have hsucceeded : 0 ≤ frame.hresult := by simpa [htype] using hfailed
    by_cases hkey : frame.effectId ≠ 0 ∧ frameKey frame = key
    · obtain ⟨hid, rfl⟩ := hkey
      have hboth : s.lacksEffect (frameKey frame) = false ∧ s.lacksDevice
          (((s.effects.find? (frameKey frame)).map EffectState.deviceId).getD frame.deviceId) =
            false := by
        simpa [htype, hsucceeded, hid] using hrefuses
      exact ⟨hsucceeded, rfl, hboth.1, by simp [hid]⟩
    · simp [htype, hkey, Slot.take, hkept] at hsome
  | effectCommand =>
    have hsucceeded : 0 ≤ frame.hresult := by simpa [htype] using hfailed
    by_cases hkey : frameKey frame = key
    · subst hkey
      by_cases hstart : frame.effectCommand = some .start
      · have hboth : s.lacksEffect (frameKey frame) = false ∧ s.lacksDevice frame.deviceId = false := by
          simpa [htype, hsucceeded, hstart, hbefore] using hrefuses
        exact ⟨hsucceeded, rfl, hboth.1, by simp [hstart, hbefore]⟩
      · exfalso
        simp only [htype, ↓reduceIte, Slot.take, Slot.obey] at hsome
        split at hsome
        · rename_i hcommand
          exact hstart hcommand
        all_goals simp [hnone] at hsome
    · by_cases hsolo : frame.effectCommand = some .start ∧ hasFlags frame.flags DiesSolo = true ∧
          frame.deviceId = key.deviceId
      · simp [htype, hkey, hsolo, Slot.take, hkept] at hsome
      · simp [htype, hkey, hsolo, Slot.take, hkept] at hsome

theorem SourceState.WithinLimits.apply (h : s.WithinLimits) (frame : ProtocolFrame) (now : ℚ) :
    (s.apply frame now).WithinLimits := by
  have hfiled := filed_apply h.filed frame now
  cases hrefuses : s.refuses frame with
  | true =>
    have hkept := refused_apply hrefuses now
    exact h.of_eq hkept.devices hkept.effects
  | false =>
    by_cases hdrop : frame.messageType = .dropNotice
    · rw [apply_of_room hrefuses] at hfiled ⊢
      simp only [SourceState.applyUnlimited, hdrop, ↓reduceIte, SourceState.applyDropNotice]
      split
      · refine ⟨?_, Nat.zero_le _, Nat.zero_le _, ?_⟩
        · rintro key effect ⟨⟩
        · rintro key ⟨⟩
      · exact h.of_eq rfl rfl
    have howner := fun effect heffect =>
      congrArg EffectKey.deviceId (h.filed (frameKey frame) effect heffect)
    have hdevices := fun other => (tables_applyUnlimited frame now hdrop other howner).1
    rw [← apply_of_room hrefuses] at hdevices
    refine ⟨hfiled, ?_, ?_, ?_⟩
    · by_cases hadmitted : s.admits frame = true ∧ ¬ (frame.hresult < 0 ∧ frame.messageType ≠ .hello) ∧
          s.devices.contains frame.deviceId = false
      · obtain ⟨hadmits, hfailed, huntracked⟩ := hadmitted
        have hsucceeded : 0 ≤ frame.hresult := by
          rw [not_and_or, not_not] at hfailed
          cases hfailed with
          | inl hresult => exact Int32.not_lt.mp hresult
          | inr htype =>
            rw [SourceState.admits, htype] at hadmits
            cases hadmits
        have hroom := room_of_admits hrefuses hsucceeded h.filed hadmits
        have hcount : s.devices.count < MaximumDevices := by
          simpa [SourceState.lacksDevice, huntracked] using hroom
        have hset : (s.apply frame now).devices.count ≤ (s.devices.set frame.deviceId {}).count := by
          refine Dictionary.count_le_of_contains ?_
          intro other hother
          rw [hdevices] at hother
          rw [Dictionary.contains_set]
          cases htracked : s.devices.contains other with
          | true => rw [Bool.or_true]
          | false =>
            rw [htracked, Bool.or_false, Bool.and_eq_true] at hother
            rw [hother.2, Bool.true_or]
        exact hset.trans ((Dictionary.count_set_le _ _ _).trans hcount)
      · refine (Dictionary.count_le_of_contains ?_).trans h.devices
        intro other hother
        rw [hdevices, Bool.or_eq_true, Bool.and_eq_true, Bool.and_eq_true, decide_eq_true_eq,
          decide_eq_true_eq] at hother
        cases hother with
        | inr htracked => exact htracked
        | inl hnew =>
          obtain ⟨⟨hsucceeded, hadmits⟩, rfl⟩ := hnew
          cases htracked : s.devices.contains frame.deviceId with
          | true => rfl
          | false => exact absurd ⟨hadmits, hsucceeded, htracked⟩ hadmitted
    · by_cases hentered : s.effects.contains (frameKey frame) = false ∧
          (s.apply frame now).effects.contains (frameKey frame) = true
      · obtain ⟨-, -, -, -, hroom, -⟩ := effect_enters h.filed now hentered.1 hentered.2
        have hcount : s.effects.count < MaximumEffects := by
          simpa [SourceState.lacksEffect, hentered.1] using hroom
        have hset : (s.apply frame now).effects.count ≤
            (s.effects.set (frameKey frame) (createdEffect frame)).count := by
          refine Dictionary.count_le_of_contains ?_
          intro key hkey
          rw [Dictionary.contains_set]
          cases htracked : s.effects.contains key with
          | true => rw [Bool.or_true]
          | false =>
            obtain ⟨-, -, -, hown, -, -⟩ := effect_enters h.filed now htracked hkey
            rw [hown, decide_eq_true rfl, Bool.true_or]
        exact hset.trans ((Dictionary.count_set_le _ _ _).trans hcount)
      · refine (Dictionary.count_le_of_contains ?_).trans h.effects
        intro key hkey
        cases htracked : s.effects.contains key with
        | true => rfl
        | false =>
          obtain ⟨-, -, -, hown, -, -⟩ := effect_enters h.filed now htracked hkey
          rw [← hown] at htracked hkey
          exact absurd ⟨htracked, hkey⟩ hentered
    · intro key hkey
      rw [hdevices]
      cases htracked : s.effects.contains key with
      | true => rw [h.housed key htracked, Bool.or_true]
      | false =>
        obtain ⟨-, -, hsucceeded, hown, -, hadmits⟩ := effect_enters h.filed now htracked hkey
        have hdevice : key.deviceId = frame.deviceId := (congrArg EffectKey.deviceId hown).symm
        have hpassed : ¬ (frame.hresult < 0 ∧ frame.messageType ≠ .hello) :=
          fun hfailed => Int32.not_lt.mpr hsucceeded hfailed.1
        rw [decide_eq_true hpassed, hadmits, decide_eq_true hdevice, Bool.true_and, Bool.true_and,
          Bool.true_or]

theorem SourceState.WithinLimits.call (h : s.WithinLimits) (sine : Sine) (settings : NormalizedSettings)
    (key : SourceKey) (call : Call) : (s.call sine settings key call).WithinLimits := by
  cases call with
  | connect identity connectionId now =>
    simp only [SourceState.call]
    split
    · exact h.of_eq rfl rfl
    · exact h
  | disconnect key' connectionId now =>
    simp only [SourceState.call, SourceState.disconnect]
    split
    · split
      · exact h.of_eq rfl rfl
      · exact h.of_map rfl (f := fun _ effect => { effect with active := false }) rfl fun _ _ => rfl
    · exact h
  | processFrame key' frame now =>
    simp only [SourceState.call]
    split
    · have hactive : SourceState.WithinLimits { s with lastActivityMilliseconds := now } :=
        h.of_eq rfl rfl
      exact hactive.apply frame now
    · exact h
  | tick now =>
    obtain ⟨heffects, hdevices, -, -⟩ := tables_tick now settings s sine
    exact h.of_map hdevices heffects fun _ effect => key_evaluateEffect now s.devices effect
  | resetPeak => exact h.of_eq rfl rfl
  | reportProtocolError | updateSettings settings | tryDequeueTransition => exact h

end Sources

section Engines

structure ClippingEngine.WithinLimits (engine : ClippingEngine) : Prop where
  count : engine.sources.count ≤ MaximumSources
  transitions : engine.transitions.length ≤ MaximumQueuedTransitions
  sources : ∀ key s, engine.sources.find? key = some s → s.WithinLimits

variable {engine : ClippingEngine} (sine : Sine)

theorem transitions_enqueueTransition (h : engine.transitions.length ≤ MaximumQueuedTransitions)
    (transition : DetectorTransition) :
    (engine.enqueueTransition transition).transitions.length ≤ MaximumQueuedTransitions := by
  unfold ClippingEngine.enqueueTransition
  split
  · rename_i hroom
    rw [List.length_append, List.length_singleton]
    exact hroom
  · exact h

theorem transitions_tickSource (h : engine.transitions.length ≤ MaximumQueuedTransitions) (now : ℚ)
    (key : SourceKey) : (ClippingEngine.tickSource sine now engine key).transitions.length ≤
      MaximumQueuedTransitions := by
  unfold ClippingEngine.tickSource
  split
  · exact h
  · simp only
    split
    · exact h
    · refine transitions_enqueueTransition ?_ _
      exact h

theorem transitions_connectSource (h : engine.transitions.length ≤ MaximumQueuedTransitions)
    (source : SourceState) (identity : SourceIdentity) (connectionId : Guid) (now : ℚ) :
    (engine.connectSource source identity connectionId now).transitions.length ≤
      MaximumQueuedTransitions := by
  unfold ClippingEngine.connectSource
  simp only
  split
  · exact h
  · refine transitions_enqueueTransition ?_ _
    exact h

theorem transitions_step (h : engine.transitions.length ≤ MaximumQueuedTransitions) (call : Call) :
    (engine.step sine call).transitions.length ≤ MaximumQueuedTransitions := by
  cases call with
  | connect identity connectionId now =>
    simp only [ClippingEngine.step, ClippingEngine.connect]
    split
    · exact transitions_connectSource h _ _ _ _
    · have hroom : engine.tryMakeSourceRoom.2.transitions = engine.transitions := by
        unfold ClippingEngine.tryMakeSourceRoom
        split
        · rfl
        · split <;> rfl
      split
      · rename_i full hfull
        rw [hfull] at hroom
        exact hroom ▸ h
      · rename_i ready hready
        rw [hready] at hroom
        exact transitions_connectSource (hroom ▸ h) _ _ _ _
  | disconnect key connectionId now =>
    simp only [ClippingEngine.step, ClippingEngine.disconnect]
    split
    · exact h
    · split
      · exact h
      · refine transitions_enqueueTransition ?_ _
        split
        · refine transitions_enqueueTransition ?_ _
          exact h
        · exact h
  | processFrame key frame now =>
    simp only [ClippingEngine.step, ClippingEngine.processFrame]
    split
    · exact h
    · split
      · exact h
      · split
        · exact h
        · split
          · refine transitions_enqueueTransition ?_ _
            exact h
          · exact h
  | tick now =>
    simp only [ClippingEngine.step, ClippingEngine.tick]
    generalize engine.sources.keys = keys
    induction keys generalizing engine with
    | nil => exact h
    | cons key keys ih => exact ih (transitions_tickSource sine h now key)
  | tryDequeueTransition =>
    simp only [ClippingEngine.step, ClippingEngine.tryDequeueTransition]
    split
    · rename_i hempty
      rw [hempty]
      exact Nat.zero_le _
    · rename_i transition transitions hqueue
      rw [hqueue, List.length_cons] at h
      exact Nat.le_of_succ_le h
  | resetPeak | reportProtocolError | updateSettings settings => exact h

theorem count_step (h : engine.sources.count ≤ MaximumSources) (call : Call) :
    (engine.step sine call).sources.count ≤ MaximumSources := by
  by_cases hnew : ∃ identity connectionId now, call = .connect identity connectionId now ∧
      engine.sources.find? identity.key = none
  · obtain ⟨identity, connectionId, now, rfl, hnone⟩ := hnew
    have hready : engine.tryMakeSourceRoom.2.sources.count ≤ engine.sources.count := by
      unfold ClippingEngine.tryMakeSourceRoom
      split
      · exact le_refl _
      · cases engine.evictionCandidate with
        | none => exact le_refl _
        | some candidate => exact Dictionary.count_remove_le _ _
    have hroom : engine.tryMakeSourceRoom.1 = true →
        engine.tryMakeSourceRoom.2.sources.count < MaximumSources := by
      unfold ClippingEngine.tryMakeSourceRoom
      split
      · intro _
        assumption
      · intro hfree
        exact of_decide_eq_true hfree
    simp only [ClippingEngine.step]
    rw [sources_connect_of_none hnone]
    split
    · rename_i hfree
      exact (Dictionary.count_set_le _ _ _).trans (hroom hfree)
    · exact hready.trans h
  · refine (Dictionary.count_le_of_contains ?_).trans h
    intro key hkey
    cases hbefore : engine.sources.find? key with
    | some s => rw [Dictionary.contains, hbefore, Option.isSome_some]
    | none =>
      cases find?_step_of_none sine hbefore call with
      | inl hnone =>
        rw [Dictionary.contains, hnone] at hkey
        cases hkey
      | inr hentered =>
        obtain ⟨identity, connectionId, now, hcall, hown, -⟩ := hentered
        exact absurd ⟨identity, connectionId, now, hcall, hown ▸ hbefore⟩ hnew

theorem ClippingEngine.WithinLimits.step (h : engine.WithinLimits) (call : Call) :
    (engine.step sine call).WithinLimits := by
  refine ⟨count_step sine h.count call, transitions_step sine h.transitions call, ?_⟩
  intro key s hs
  cases hbefore : engine.sources.find? key with
  | none =>
    cases find?_step_of_none sine hbefore call with
    | inl hnone =>
      rw [hnone] at hs
      cases hs
    | inr hentered =>
      obtain ⟨identity, connectionId, now, -, -, hnew⟩ := hentered
      rw [hnew] at hs
      cases hs
      exact (withinLimits_new identity).of_eq rfl rfl
  | some before =>
    cases find?_step_of_some sine hbefore call with
    | inl hkept =>
      rw [hkept] at hs
      cases hs
      exact (h.sources key before hbefore).call sine engine.settings key call
    | inr hevicted =>
      rw [hevicted.2] at hs
      cases hs

variable {sine} {settings : DetectorSettings}

theorem withinLimits_after (calls : List Call) : (ClippingEngine.after sine settings calls).WithinLimits := by
  refine Runs.run_invariant (fun _ call h => h.step sine call) ?_ calls
  refine ⟨Nat.zero_le _, Nat.zero_le _, ?_⟩
  rintro key s ⟨⟩

theorem connected_not_evicted (hfiled : Filed engine) {key : SourceKey} {s : SourceState}
    (hs : engine.sources.find? key = some s) (hconnected : s.connected = true) (call : Call) :
    ¬ Evicts engine key call := by
  rintro ⟨identity, connectionId, now, candidate, -, -, -, hcandidate, hkey⟩
  have hmem := List.argmin_mem (Option.mem_def.mpr hcandidate)
  obtain ⟨hvalue, hgone⟩ := List.mem_filter.mp hmem
  obtain ⟨⟨filed, value⟩, hentry, rfl⟩ := List.mem_map.mp hvalue
  have hfind := Dictionary.find?_eq_some_iff.mpr hentry
  rw [← hfiled filed value hfind, hkey, hs] at hfind
  cases hfind
  rw [hconnected] at hgone
  cases hgone

end Engines

section Unlimited

def SourceState.receiveUnlimited (s : SourceState) (frame : ProtocolFrame) (now : ℚ) : SourceState :=
  { s with lastActivityMilliseconds := now }.applyUnlimited frame now

/-- An engine that never runs out of room. -/
structure UnlimitedEngine where
  settings : NormalizedSettings
  sources : SourceKey → Option SourceState := fun _ => none

variable (sine : Sine)

def UnlimitedEngine.step (engine : UnlimitedEngine) : Call → UnlimitedEngine
  | .connect identity connectionId now =>
    { engine with
      sources := fun key =>
        if identity.key = key then
          some (((engine.sources key).getD { identity := identity }).connect identity connectionId now)
        else engine.sources key }
  | .disconnect key' connectionId now =>
    { engine with
      sources := fun key => (engine.sources key).map fun source =>
        if key' = key then source.disconnect connectionId now else source }
  | .processFrame key' frame now =>
    { engine with
      sources := fun key => (engine.sources key).map fun source =>
        if key' = key ∧ source.connected ∧ frame.processId = key.processId then
          source.receiveUnlimited frame now
        else source }
  | .resetPeak =>
    { engine with sources := fun key => (engine.sources key).map SourceState.resetPeak }
  | .tick now =>
    { engine with
      sources := fun key => (engine.sources key).map fun source =>
        (source.tick now engine.settings sine).2 }
  | .updateSettings settings => { engine with settings := settings.cloneNormalized }
  | .reportProtocolError | .tryDequeueTransition => engine

variable {sine} {settings : DetectorSettings} {engine : ClippingEngine}

theorem settings_step (call : Call) (unlimited : UnlimitedEngine)
    (h : unlimited.settings = engine.settings) :
    (unlimited.step sine call).settings = (engine.step sine call).settings := by
  cases call with
  | connect identity connectionId now =>
    have hconnect : ∀ (e : ClippingEngine) (source : SourceState),
        (e.connectSource source identity connectionId now).settings = e.settings := by
      intro e source
      unfold ClippingEngine.connectSource
      simp only
      split
      · rfl
      · rw [settings_enqueueTransition]
        rfl
    have hroom : engine.tryMakeSourceRoom.2.settings = engine.settings := by
      unfold ClippingEngine.tryMakeSourceRoom
      split
      · rfl
      · split <;> rfl
    simp only [UnlimitedEngine.step, ClippingEngine.step, ClippingEngine.connect]
    split
    · rw [hconnect, h]
    · split
      · rename_i full hfull
        rw [hfull] at hroom
        rw [h, ← hroom]
      · rename_i ready hready
        rw [hready] at hroom
        rw [hconnect, h, ← hroom]
  | disconnect key connectionId now =>
    simp only [UnlimitedEngine.step, ClippingEngine.step, ClippingEngine.disconnect]
    split
    · exact h
    · split
      · exact h
      · rw [settings_enqueueTransition]
        split
        · rw [settings_enqueueTransition]
          exact h
        · exact h
  | processFrame key frame now =>
    simp only [UnlimitedEngine.step, ClippingEngine.step, ClippingEngine.processFrame]
    split
    · exact h
    · split
      · exact h
      · split
        · exact h
        · split
          · rw [settings_enqueueTransition]
            exact h
          · exact h
  | tick now =>
    simp only [UnlimitedEngine.step, ClippingEngine.step, (tick_keeps sine now).1]
    exact h
  | tryDequeueTransition =>
    simp only [UnlimitedEngine.step, ClippingEngine.step, ClippingEngine.tryDequeueTransition]
    split <;> exact h
  | resetPeak | reportProtocolError => exact h
  | updateSettings settings => rfl

/-- A call that refuses nothing does to a source what it does without limits. -/
theorem sources_unlimited {unlimited : UnlimitedEngine} {key : SourceKey} {s : SourceState}
    (hsettings : unlimited.settings = engine.settings) (hs : unlimited.sources key = some s)
    (call : Call)
    (hflag : (s.call sine engine.settings key call).persistentReliabilityIssues.stateCapacityExceeded =
      false) :
    (unlimited.step sine call).sources key = some (s.call sine engine.settings key call) := by
  cases call with
  | connect identity connectionId now =>
    simp only [UnlimitedEngine.step, SourceState.call, hs, Option.getD_some]
    split <;> rfl
  | disconnect key' connectionId now =>
    simp only [UnlimitedEngine.step, SourceState.call, hs, Option.map_some]
  | processFrame key' frame now =>
    simp only [UnlimitedEngine.step, SourceState.call, hs, Option.map_some] at hflag ⊢
    by_cases hreceived : key' = key ∧ s.connected ∧ frame.processId = key.processId
    · rw [if_pos hreceived] at hflag ⊢
      rw [if_pos hreceived, Option.some.injEq]
      cases hrefuses : ({ s with lastActivityMilliseconds := now } : SourceState).refuses frame with
      | true =>
        have hset := (refused_apply hrefuses now).flag
        rw [SourceState.receive, hset] at hflag
        cases hflag
      | false => exact (apply_of_room hrefuses now).symm
    · rw [if_neg hreceived, if_neg hreceived]
  | tick now => simp only [UnlimitedEngine.step, SourceState.call, hs, Option.map_some, hsettings]
  | resetPeak => simp only [UnlimitedEngine.step, SourceState.call, hs, Option.map_some]
  | reportProtocolError | updateSettings settings | tryDequeueTransition => exact hs

/-- A source whose flag was never set is the one an engine without limits would have. -/
theorem unlimited_run {calls later : List Call} {key : SourceKey} {s s' : SourceState}
    {unlimited : UnlimitedEngine}
    (hsettings : unlimited.settings = (ClippingEngine.after sine settings calls).settings)
    (hs : (ClippingEngine.after sine settings calls).sources.find? key = some s)
    (hunlimited : unlimited.sources key = some s)
    (htracked : TrackedThrough sine settings calls later key)
    (hs' : (ClippingEngine.after sine settings (calls ++ later)).sources.find? key = some s')
    (hflag : s'.persistentReliabilityIssues.stateCapacityExceeded = false) :
    (Runs.run (UnlimitedEngine.step sine) unlimited later).sources key = some s' := by
  induction later generalizing calls s unlimited with
  | nil =>
    rw [List.append_nil, hs] at hs'
    cases hs'
    exact hunlimited
  | cons call later ih =>
    obtain ⟨next, hnext⟩ := htracked.tail.some
    have hcalled : next = s.call sine (ClippingEngine.after sine settings calls).settings key call := by
      rw [after_concat] at hnext
      cases find?_step_of_some sine hs call with
      | inl hsome =>
        rw [hsome] at hnext
        exact (Option.some.inj hnext).symm
      | inr hevicted =>
        rw [hevicted.2] at hnext
        cases hnext
    rw [← List.singleton_append, ← List.append_assoc] at hs'
    have hkept : next.persistentReliabilityIssues.stateCapacityExceeded = false := by
      obtain ⟨last, hlast, hissues⟩ := htracked.tail.issues hnext
      rw [hs'] at hlast
      cases hlast
      have hwithin := congrArg DetectorReliabilityIssue.stateCapacityExceeded hissues
      rw [hflag] at hwithin
      exact (Bool.or_eq_false_iff.mp hwithin).1
    refine ih ?_ hnext ?_ htracked.tail hs'
    · rw [after_concat]
      exact settings_step call unlimited hsettings
    · rw [hcalled] at hkept ⊢
      exact sources_unlimited hsettings hunlimited call hkept

variable (sine settings) in
/-- The engine stays within its bounds, keeps what is connected, and is exact where it does not say
otherwise. -/
theorem bounded_and_exact (calls : List Call) :
    let engine := ClippingEngine.after sine settings calls
    engine.sources.count ≤ 64 ∧ engine.transitions.length ≤ 256 ∧
    (∀ key s, engine.sources.find? key = some s → s.devices.count ≤ 64 ∧ s.effects.count ≤ 1024 ∧
      ∀ effectKey effect, s.effects.find? effectKey = some effect →
        s.devices.contains effect.deviceId = true) ∧
    (∀ key s, engine.sources.find? key = some s → s.connected = true →
      ∀ call, (engine.step sine call).sources.contains key = true) ∧
    ∀ before call later key s, calls = before ++ call :: later →
      (ClippingEngine.after sine settings before).sources.find? key = none →
      TrackedThrough sine settings (before ++ [call]) later key →
      engine.sources.find? key = some s →
      s.persistentReliabilityIssues.stateCapacityExceeded = false →
      (Runs.run (UnlimitedEngine.step sine)
        { settings := (ClippingEngine.after sine settings before).settings }
        (call :: later)).sources key = some s := by
  intro engine
  have hlimits : engine.WithinLimits := withinLimits_after calls
  refine ⟨hlimits.count, hlimits.transitions, ?_, ?_, ?_⟩
  · intro key s hs
    have hsource := hlimits.sources key s hs
    refine ⟨hsource.devices, hsource.effects, ?_⟩
    intro effectKey effect heffect
    have howner : effect.deviceId = effectKey.deviceId :=
      congrArg EffectKey.deviceId (hsource.filed effectKey effect heffect)
    rw [howner]
    exact hsource.housed effectKey (by rw [Dictionary.contains, heffect, Option.isSome_some])
  · intro key s hs hconnected call
    cases find?_step_of_some sine hs call with
    | inl hkept => rw [Dictionary.contains, hkept, Option.isSome_some]
    | inr hevicted => exact absurd hevicted.1 (connected_not_evicted (filed_after calls) hs hconnected call)
  · rintro before call later key s rfl hnone htracked hs hflag
    obtain ⟨created, hcreated⟩ := htracked.some
    have hentered := hcreated
    rw [after_concat] at hentered
    have hunlimited : (UnlimitedEngine.step sine
        { settings := (ClippingEngine.after sine settings before).settings } call).sources key =
          some created := by
      cases find?_step_of_none sine hnone call with
      | inl hstill =>
        rw [hstill] at hentered
        cases hentered
      | inr hnew =>
        obtain ⟨identity, connectionId, now, rfl, hkey, hsome⟩ := hnew
        rw [hsome] at hentered
        cases hentered
        simp only [UnlimitedEngine.step, hkey, ↓reduceIte, Option.getD_none]
    have hsettings : (UnlimitedEngine.step sine
        { settings := (ClippingEngine.after sine settings before).settings } call).settings =
          (ClippingEngine.after sine settings (before ++ [call])).settings := by
      rw [after_concat]
      exact settings_step call _ rfl
    have hlast : (ClippingEngine.after sine settings (before ++ [call] ++ later)).sources.find? key =
        some s := by
      rw [List.append_assoc]
      exact hs
    have hrun := unlimited_run hsettings hcreated hunlimited htracked hlast hflag
    exact hrun

end Unlimited

end FfbInterceptor.Engine
