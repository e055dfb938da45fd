import FfbInterceptor.Engine.Clipping

/-! What a call does to one source: the rest of the engine leaves it alone or takes it out. -/
namespace FfbInterceptor.Engine
open FfbInterceptor.Library FfbInterceptor.Protocol FfbInterceptor.Server

section Issues

def DetectorReliabilityIssue.Within (left right : DetectorReliabilityIssue) : Prop :=
  left.union right = right

variable {a b c : DetectorReliabilityIssue}

theorem union_assoc : (a.union b).union c = a.union (b.union c) := by
  simp [DetectorReliabilityIssue.union, Bool.or_assoc]

theorem DetectorReliabilityIssue.Within.refl (a : DetectorReliabilityIssue) : a.Within a := by
  simp [DetectorReliabilityIssue.Within, DetectorReliabilityIssue.union]

theorem DetectorReliabilityIssue.Within.trans (hab : a.Within b) (hbc : b.Within c) : a.Within c := by
  unfold DetectorReliabilityIssue.Within at *
  rw [← hbc, ← union_assoc, hab]

theorem within_union (a b : DetectorReliabilityIssue) : a.Within (a.union b) := by
  simp [DetectorReliabilityIssue.Within, DetectorReliabilityIssue.union]

theorem within_none (h : a.Within {}) : a = {} := by
  cases a
  simpa [DetectorReliabilityIssue.Within, DetectorReliabilityIssue.union] using h

end Issues

/-- The state `getOrCreateEffect` leaves behind, refused or not. -/
def createdState : Except SourceState (EffectState × SourceState) → SourceState
  | .error refused => refused
  | .ok created => created.2

/-- A relation between states of a source that leaves its devices, its effects and what is recorded when
there is no room for one more out of account. -/
structure SourceState.Overlooks (R : SourceState → SourceState → Prop) : Prop where
  refl : ∀ s, R s s
  trans : ∀ {s s' s''}, R s s' → R s' s'' → R s s''
  deviceDrop : ∀ s : SourceState, R s s.recordDeviceStateDrop
  effectDrop : ∀ s : SourceState, R s s.recordEffectStateDrop
  objects : ∀ (s : SourceState) devices effects kind,
    R s { s with devices := devices, effects := effects, lastEffectKind := kind }

namespace SourceState.Overlooks

variable {R : SourceState → SourceState → Prop} (frame : ProtocolFrame) (now : ℚ) (s : SourceState)

theorem getOrCreateDevice (h : Overlooks R) (deviceId : UInt32) :
    R s (s.getOrCreateDevice deviceId).2 := by
  unfold SourceState.getOrCreateDevice
  split
  · exact h.refl s
  · split
    · exact h.deviceDrop s
    · exact h.objects s _ _ _

theorem getOrCreateEffect (h : Overlooks R) (key : EffectKey) (kind : EffectKind) :
    R s (createdState (s.getOrCreateEffect key kind)) := by
  have hdevice := h.getOrCreateDevice s key.deviceId
  unfold SourceState.getOrCreateEffect
  split
  · exact h.refl s
  · split
    · exact h.effectDrop s
    · cases hget : s.getOrCreateDevice key.deviceId with
      | mk device ready =>
        rw [hget] at hdevice
        cases device with
        | none => exact h.trans hdevice (h.effectDrop ready)
        | some device => exact h.trans hdevice (h.objects ready _ _ _)

theorem applyDeviceProperty (h : Overlooks R) : R s (s.applyDeviceProperty frame) := by
  have hdevice := h.getOrCreateDevice s frame.deviceId
  unfold SourceState.applyDeviceProperty
  split
  · cases hget : s.getOrCreateDevice frame.deviceId with
    | mk device ready =>
      rw [hget] at hdevice
      cases device with
      | none => exact hdevice
      | some device => exact h.trans hdevice (h.objects ready _ _ _)
  · exact h.refl s

theorem applyEffectCreated (h : Overlooks R) : R s (s.applyEffectCreated frame) := by
  have hdevice := h.getOrCreateDevice s frame.deviceId
  unfold SourceState.applyEffectCreated
  split
  · exact h.refl s
  · split
    · exact h.effectDrop s
    · cases hget : s.getOrCreateDevice frame.deviceId with
      | mk device ready =>
        rw [hget] at hdevice
        cases device with
        | none => exact h.trans hdevice (h.effectDrop ready)
        | some device => exact h.trans hdevice (h.objects ready _ _ _)

theorem applyEffectParameters (h : Overlooks R) : R s (s.applyEffectParameters frame now) := by
  have hcreated := h.getOrCreateEffect s (frameKey frame) .unknown
  unfold SourceState.applyEffectParameters
  split
  · exact h.refl s
  · cases hget : s.getOrCreateEffect (frameKey frame) .unknown with
    | error refused =>
      rw [hget] at hcreated
      exact hcreated
    | ok created =>
      rw [hget] at hcreated
      have hdevice := h.getOrCreateDevice created.2 created.1.deviceId
      simp only
      cases hready : created.2.getOrCreateDevice created.1.deviceId with
      | mk device ready =>
        rw [hready] at hdevice
        cases device with
        | none => exact h.trans hcreated hdevice
        | some device => exact h.trans (h.trans hcreated hdevice) (h.objects ready _ _ _)

theorem applyEffectCommand (h : Overlooks R) : R s (s.applyEffectCommand frame now) := by
  have hcreated := h.getOrCreateEffect s (frameKey frame) frame.effectKind
  unfold SourceState.applyEffectCommand
  split
  · exact h.refl s
  · cases hget : s.getOrCreateEffect (frameKey frame) frame.effectKind with
    | error refused =>
      rw [hget] at hcreated
      exact hcreated
    | ok created =>
      rw [hget] at hcreated
      simp only
      split
      · split
        · exact h.trans hcreated (h.objects created.2 _ _ _)
        · exact h.trans hcreated (h.objects created.2 _ _ _)
      all_goals exact h.trans hcreated (h.objects created.2 _ _ _)

theorem applyDeviceCommand (h : Overlooks R) (deviceId command : UInt32) :
    R s (s.applyDeviceCommand now deviceId command) := by
  have hdevice := h.getOrCreateDevice s deviceId
  unfold SourceState.applyDeviceCommand
  cases hget : s.getOrCreateDevice deviceId with
  | mk device ready =>
    rw [hget] at hdevice
    cases device with
    | none => exact hdevice
    | some device => exact h.trans hdevice (h.objects ready _ _ _)

/-- Of a frame, only what the notice of new drops clears is left to look at. -/
theorem apply (h : Overlooks R)
    (hnotice : frame.messageType = .dropNotice → R s (s.applyDropNotice frame now)) :
    R s (s.apply frame now) := by
  unfold SourceState.apply
  split
  · next hdropped => exact hnotice hdropped
  · split
    · exact h.refl s
    · split
      · exact h.getOrCreateDevice s frame.deviceId
      · exact h.applyDeviceProperty frame s
      · exact h.applyEffectCreated frame s
      · exact h.applyEffectParameters frame now s
      · exact h.applyEffectCommand frame now s
      · exact h.applyDeviceCommand now s frame.deviceId frame.diFlags
      · exact h.refl s
      · exact h.refl s

end SourceState.Overlooks

/-- A later state of the same connected source: its flags may only grow. -/
structure SourceState.Continues (s s' : SourceState) : Prop where
  identity : s'.identity = s.identity
  connections : s'.connections = s.connections
  issues : s.persistentReliabilityIssues.Within s'.persistentReliabilityIssues

section Frames

variable {s s' s'' : SourceState} (frame : ProtocolFrame) (now : ℚ)

theorem SourceState.Continues.refl (s : SourceState) : s.Continues s := ⟨rfl, rfl, .refl _⟩

theorem SourceState.Continues.trans (h : s.Continues s') (h' : s'.Continues s'') : s.Continues s'' :=
  ⟨h'.identity.trans h.identity, h'.connections.trans h.connections, h.issues.trans h'.issues⟩

theorem SourceState.Continues.of_eq (hidentity : s'.identity = s.identity)
    (hconnections : s'.connections = s.connections)
    (hissues : s'.persistentReliabilityIssues = s.persistentReliabilityIssues) : s.Continues s' :=
  ⟨hidentity, hconnections, hissues ▸ .refl _⟩

theorem overlooks_continues : SourceState.Overlooks SourceState.Continues where
  refl := .refl
  trans := .trans
  deviceDrop _ := ⟨rfl, rfl, within_union _ _⟩
  effectDrop _ := ⟨rfl, rfl, within_union _ _⟩
  objects _ _ _ _ := .of_eq rfl rfl rfl

theorem continues_applyDropNotice (s : SourceState) : s.Continues (s.applyDropNotice frame now) := by
  unfold SourceState.applyDropNotice
  split
  · exact ⟨rfl, rfl, within_union _ _⟩
  · exact .of_eq rfl rfl rfl

/-- A frame changes neither identity nor connections, and clears no flag. -/
theorem continues_apply (s : SourceState) : s.Continues (s.apply frame now) :=
  overlooks_continues.apply frame now s fun _ => continues_applyDropNotice frame now s

theorem continues_receive (s : SourceState) : s.Continues (s.receive frame now) := by
  have hactive : s.Continues { s with lastActivityMilliseconds := now } := .of_eq rfl rfl rfl
  exact hactive.trans (continues_apply frame now _)

theorem continues_tick (s : SourceState) (settings : NormalizedSettings) (sine : Sine) :
    s.Continues (s.tick now settings sine).2 := by
  obtain ⟨isClipping, atLimit, clipRatio, sampling, htick⟩ := s.tick_evaluates now settings sine
  rw [htick]
  exact .of_eq rfl rfl rfl

end Frames

section Calls

variable (sine : Sine)

/-- What a call does to the source of a key while it stays tracked. -/
def SourceState.call (settings : NormalizedSettings) (key : SourceKey) (s : SourceState) :
    Call → SourceState
  | .connect identity connectionId now =>
    if identity.key = key then s.connect identity connectionId now else s
  | .disconnect key' connectionId now => if key' = key then s.disconnect connectionId now else s
  | .processFrame key' frame now =>
    if key' = key ∧ s.connected ∧ frame.processId = key.processId then s.receive frame now else s
  | .resetPeak => s.resetPeak
  | .tick now => (s.tick now settings sine).2
  | .reportProtocolError | .updateSettings _ | .tryDequeueTransition => s

/-- The call makes room for a new source by discarding this one. -/
def Evicts (engine : ClippingEngine) (key : SourceKey) (call : Call) : Prop :=
  ∃ identity connectionId now candidate, call = .connect identity connectionId now ∧
    engine.sources.find? identity.key = none ∧ MaximumSources ≤ engine.sources.count ∧
    engine.evictionCandidate = some candidate ∧ candidate.identity.key = key

variable {engine : ClippingEngine}

@[simp] theorem sources_enqueueTransition (transition : DetectorTransition) :
    (engine.enqueueTransition transition).sources = engine.sources := by
  unfold ClippingEngine.enqueueTransition
  split <;> rfl

@[simp] theorem settings_enqueueTransition (transition : DetectorTransition) :
    (engine.enqueueTransition transition).settings = engine.settings := by
  unfold ClippingEngine.enqueueTransition
  split <;> rfl

@[simp] theorem sourceStateDrops_enqueueTransition (transition : DetectorTransition) :
    (engine.enqueueTransition transition).sourceStateDrops = engine.sourceStateDrops := by
  unfold ClippingEngine.enqueueTransition
  split <;> rfl

theorem sources_connectSource (source : SourceState) (identity : SourceIdentity) (connectionId : Guid)
    (now : ℚ) :
    (engine.connectSource source identity connectionId now).sources =
      engine.sources.set identity.key (source.connect identity connectionId now) := by
  unfold ClippingEngine.connectSource
  simp only
  split
  · rfl
  · rw [sources_enqueueTransition]
    rfl

theorem sources_tryMakeSourceRoom (engine : ClippingEngine) (key : SourceKey) :
    engine.tryMakeSourceRoom.2.sources.find? key = engine.sources.find? key ∨
    (MaximumSources ≤ engine.sources.count ∧ ∃ candidate, engine.evictionCandidate = some candidate ∧
      candidate.identity.key = key ∧ engine.tryMakeSourceRoom.2.sources.find? key = none) := by
  unfold ClippingEngine.tryMakeSourceRoom
  split
  · exact Or.inl rfl
  · rename_i hfull
    cases hcandidate : engine.evictionCandidate with
    | none => exact Or.inl rfl
    | some candidate =>
      by_cases hkey : candidate.identity.key = key
      · refine Or.inr ⟨Nat.not_lt.mp hfull, candidate, rfl, hkey, ?_⟩
        simp [Dictionary.find?_remove, hkey]
      · refine Or.inl ?_
        simp [Dictionary.find?_remove, Ne.symm hkey]

theorem sources_connect_of_some {source : SourceState} {identity : SourceIdentity}
    (h : engine.sources.find? identity.key = some source) (connectionId : Guid) (now : ℚ) :
    (engine.connect identity connectionId now).sources =
      engine.sources.set identity.key (source.connect identity connectionId now) := by
  simp only [ClippingEngine.connect, h]
  exact sources_connectSource source identity connectionId now

theorem sources_connect_of_none {identity : SourceIdentity}
    (h : engine.sources.find? identity.key = none) (connectionId : Guid) (now : ℚ) :
    (engine.connect identity connectionId now).sources =
      if engine.tryMakeSourceRoom.1 then engine.tryMakeSourceRoom.2.sources.set identity.key
        (SourceState.connect { identity := identity } identity connectionId now)
      else engine.tryMakeSourceRoom.2.sources := by
  simp only [ClippingEngine.connect, h]
  split
  · rename_i full hroom
    simp [hroom]
  · rename_i ready hroom
    simp only [hroom, ↓reduceIte]
    exact sources_connectSource _ identity connectionId now

theorem sources_disconnect_of_some {source : SourceState} {key : SourceKey}
    (h : engine.sources.find? key = some source) (connectionId : Guid) (now : ℚ) :
    (engine.disconnect key connectionId now).sources =
      engine.sources.set key (source.disconnect connectionId now) := by
  simp only [ClippingEngine.disconnect, h]
  split
  · rfl
  · rw [sources_enqueueTransition]
    split
    · rw [sources_enqueueTransition]
      rfl
    · rfl

theorem sources_processFrame_of_some {source : SourceState} {key : SourceKey}
    (h : engine.sources.find? key = some source) (frame : ProtocolFrame) (now : ℚ) :
    (engine.processFrame key frame now).sources =
      if source.connected ∧ frame.processId = key.processId then
        engine.sources.set key (source.receive frame now)
      else engine.sources := by
  simp only [ClippingEngine.processFrame, h]
  cases hconnected : source.connected with
  | false => simp
  | true =>
    by_cases hprocessId : frame.processId = key.processId
    · simp only [Bool.not_true, Bool.false_eq_true, ↓reduceIte, hprocessId, ne_eq, not_true_eq_false,
        and_self]
      split
      · rw [sources_enqueueTransition]
        rfl
      · rfl
    · simp [hprocessId]

theorem tickSource_of_some {source : SourceState} {key : SourceKey} (now : ℚ)
    (h : engine.sources.find? key = some source) :
    (ClippingEngine.tickSource sine now engine key).sources =
        engine.sources.set key (source.tick now engine.settings sine).2 ∧
      (ClippingEngine.tickSource sine now engine key).settings = engine.settings ∧
      (ClippingEngine.tickSource sine now engine key).sourceStateDrops = engine.sourceStateDrops := by
  simp only [ClippingEngine.tickSource, h]
  split
  · exact ⟨rfl, rfl, rfl⟩
  · rw [sources_enqueueTransition, settings_enqueueTransition, sourceStateDrops_enqueueTransition]
    exact ⟨rfl, rfl, rfl⟩

theorem find?_tickSources (engine : ClippingEngine) (now : ℚ) (keys : List SourceKey)
    (hkeys : keys.Nodup) :
    (∀ key, (keys.foldl (ClippingEngine.tickSource sine now) engine).sources.find? key =
        (engine.sources.find? key).map fun source =>
          if key ∈ keys then (source.tick now engine.settings sine).2 else source) ∧
      (keys.foldl (ClippingEngine.tickSource sine now) engine).settings = engine.settings ∧
      (keys.foldl (ClippingEngine.tickSource sine now) engine).sourceStateDrops =
        engine.sourceStateDrops := by
  induction keys generalizing engine with
  | nil => simp
  | cons first keys ih =>
    obtain ⟨hnew, hrest⟩ := List.nodup_cons.mp hkeys
    rw [List.foldl_cons]
    obtain ⟨hfind, hsettings, hdrops⟩ := ih (ClippingEngine.tickSource sine now engine first) hrest
    cases hfirst : engine.sources.find? first with
    | none =>
      have hsame : ClippingEngine.tickSource sine now engine first = engine := by
        simp only [ClippingEngine.tickSource, hfirst]
      rw [hsame] at hfind hsettings hdrops ⊢
      refine ⟨?_, hsettings, hdrops⟩
      intro key
      rw [hfind key]
      by_cases hkey : key = first
      · simp [hkey, hfirst]
      · simp [hkey]
    | some source =>
      obtain ⟨hsources, hsame, hcount⟩ := tickSource_of_some sine now hfirst
      rw [hsame] at hfind hsettings
      rw [hcount] at hdrops
      refine ⟨?_, hsettings, hdrops⟩
      intro key
      rw [hfind key, hsources, Dictionary.find?_set]
      by_cases hkey : key = first
      · simp [hkey, hfirst, hnew]
      · simp [hkey]

theorem find?_tick (now : ℚ) (key : SourceKey) :
    (engine.tick sine now).sources.find? key =
      (engine.sources.find? key).map fun source => (source.tick now engine.settings sine).2 := by
  obtain ⟨hfind, -, -⟩ := find?_tickSources sine engine now engine.sources.keys engine.sources.nodup
  refine (hfind key).trans ?_
  cases hsource : engine.sources.find? key with
  | none => rfl
  | some source =>
    have hmem : key ∈ engine.sources.keys :=
      Dictionary.contains_iff.mp (by rw [Dictionary.contains, hsource, Option.isSome_some])
    simp [hmem]

theorem tick_keeps (now : ℚ) :
    (engine.tick sine now).settings = engine.settings ∧
      (engine.tick sine now).sourceStateDrops = engine.sourceStateDrops :=
  (find?_tickSources sine engine now engine.sources.keys engine.sources.nodup).2

/-- A call works on a tracked source alone, unless it evicts it. -/
theorem find?_step_of_some {key : SourceKey} {s : SourceState} (h : engine.sources.find? key = some s)
    (call : Call) :
    (engine.step sine call).sources.find? key = some (s.call sine engine.settings key call) ∨
      (Evicts engine key call ∧ (engine.step sine call).sources.find? key = none) := by
  cases call with
  | connect identity connectionId now =>
    simp only [ClippingEngine.step, SourceState.call]
    by_cases hkey : identity.key = key
    · rw [← hkey] at h
      rw [sources_connect_of_some h, Dictionary.find?_set, if_pos hkey.symm, if_pos hkey]
      exact Or.inl rfl
    · rw [if_neg hkey]
      cases hother : engine.sources.find? identity.key with
      | some other =>
        rw [sources_connect_of_some hother, Dictionary.find?_set_of_ne _ _ (Ne.symm hkey), h]
        exact Or.inl rfl
      | none =>
        have hafter : (engine.connect identity connectionId now).sources.find? key =
            engine.tryMakeSourceRoom.2.sources.find? key := by
          rw [sources_connect_of_none hother]
          split
          · exact Dictionary.find?_set_of_ne _ _ (Ne.symm hkey)
          · rfl
        rw [hafter]
        cases sources_tryMakeSourceRoom engine key with
        | inl hkept => exact Or.inl (hkept.trans h)
        | inr hevicted =>
          obtain ⟨hfull, candidate, hcandidate, hidentity, hnone⟩ := hevicted
          exact Or.inr ⟨⟨identity, connectionId, now, candidate, rfl, hother, hfull, hcandidate,
            hidentity⟩, hnone⟩
  | disconnect key' connectionId now =>
    refine Or.inl ?_
    simp only [ClippingEngine.step, SourceState.call]
    by_cases hkey : key' = key
    · rw [if_pos hkey, hkey, sources_disconnect_of_some h, Dictionary.find?_set_self]
    · rw [if_neg hkey]
      cases hother : engine.sources.find? key' with
      | none => simp only [ClippingEngine.disconnect, hother, h]
      | some other =>
        rw [sources_disconnect_of_some hother, Dictionary.find?_set_of_ne _ _ (Ne.symm hkey), h]
  | processFrame key' frame now =>
    refine Or.inl ?_
    simp only [ClippingEngine.step, SourceState.call]
    by_cases hkey : key' = key
    · subst hkey
      rw [sources_processFrame_of_some h]
      by_cases hreceived : s.connected ∧ frame.processId = key'.processId
      · rw [if_pos hreceived, if_pos ⟨rfl, hreceived⟩, Dictionary.find?_set_self]
      · rw [if_neg hreceived, if_neg fun hall => hreceived hall.2, h]
    · rw [if_neg fun hall => hkey hall.1]
      cases hother : engine.sources.find? key' with
      | none => simp only [ClippingEngine.processFrame, hother, h]
      | some other =>
        rw [sources_processFrame_of_some hother]
        split
        · rw [Dictionary.find?_set_of_ne _ _ (Ne.symm hkey), h]
        · exact h
  | resetPeak =>
    refine Or.inl ?_
    simp only [ClippingEngine.step, ClippingEngine.resetPeak, SourceState.call, Dictionary.find?_map, h,
      Option.map_some]
  | tick now =>
    refine Or.inl ?_
    simp only [ClippingEngine.step, SourceState.call, find?_tick sine now key, h, Option.map_some]
  | tryDequeueTransition =>
    refine Or.inl ?_
    simp only [ClippingEngine.step, ClippingEngine.tryDequeueTransition, SourceState.call]
    split <;> exact h
  | reportProtocolError | updateSettings settings => exact Or.inl h

/-- Only a `Connect` of its key brings a source in. -/
theorem find?_step_of_none {key : SourceKey} (h : engine.sources.find? key = none) (call : Call) :
    (engine.step sine call).sources.find? key = none ∨
      ∃ identity connectionId now, call = .connect identity connectionId now ∧ identity.key = key ∧
        (engine.step sine call).sources.find? key =
          some (SourceState.connect { identity := identity } identity connectionId now) := by
  cases call with
  | connect identity connectionId now =>
    simp only [ClippingEngine.step]
    by_cases hkey : identity.key = key
    · rw [← hkey] at h
      rw [sources_connect_of_none h, ← hkey]
      split
      · exact Or.inr ⟨identity, connectionId, now, rfl, rfl, Dictionary.find?_set_self _ _ _⟩
      · refine Or.inl ?_
        cases sources_tryMakeSourceRoom engine identity.key with
        | inl hkept => exact hkept.trans h
        | inr hevicted =>
          obtain ⟨-, candidate, -, -, hnone⟩ := hevicted
          exact hnone
    · refine Or.inl ?_
      cases hother : engine.sources.find? identity.key with
      | some other =>
        rw [sources_connect_of_some hother, Dictionary.find?_set_of_ne _ _ (Ne.symm hkey), h]
      | none =>
        have hroom : engine.tryMakeSourceRoom.2.sources.find? key = none := by
          cases sources_tryMakeSourceRoom engine key with
          | inl hkept => exact hkept.trans h
          | inr hevicted =>
            obtain ⟨-, candidate, -, -, hnone⟩ := hevicted
            exact hnone
        rw [sources_connect_of_none hother]
        split
        · rw [Dictionary.find?_set_of_ne _ _ (Ne.symm hkey), hroom]
        · exact hroom
  | disconnect key' connectionId now =>
    refine Or.inl ?_
    simp only [ClippingEngine.step]
    cases hother : engine.sources.find? key' with
    | none => simp only [ClippingEngine.disconnect, hother, h]
    | some other =>
      have hkey : key ≠ key' := by
        rintro rfl
        rw [h] at hother
        cases hother
      rw [sources_disconnect_of_some hother, Dictionary.find?_set_of_ne _ _ hkey, h]
  | processFrame key' frame now =>
    refine Or.inl ?_
    simp only [ClippingEngine.step]
    cases hother : engine.sources.find? key' with
    | none => simp only [ClippingEngine.processFrame, hother, h]
    | some other =>
      have hkey : key ≠ key' := by
        rintro rfl
        rw [h] at hother
        cases hother
      rw [sources_processFrame_of_some hother]
      split
      · rw [Dictionary.find?_set_of_ne _ _ hkey, h]
      · exact h
  | resetPeak =>
    refine Or.inl ?_
    simp only [ClippingEngine.step, ClippingEngine.resetPeak, Dictionary.find?_map, h, Option.map_none]
  | tick now =>
    refine Or.inl ?_
    simp only [ClippingEngine.step, find?_tick sine now key, h, Option.map_none]
  | tryDequeueTransition =>
    refine Or.inl ?_
    simp only [ClippingEngine.step, ClippingEngine.tryDequeueTransition]
    split <;> exact h
  | reportProtocolError | updateSettings settings => exact Or.inl h

end Calls

section Runs

variable {sine : Sine} {settings : DetectorSettings}

theorem after_append (calls later : List Call) :
    ClippingEngine.after sine settings (calls ++ later) =
      Runs.run (ClippingEngine.step sine) (ClippingEngine.after sine settings calls) later :=
  Runs.run_append _ _ _ _

theorem after_concat (calls : List Call) (call : Call) :
    ClippingEngine.after sine settings (calls ++ [call]) =
      (ClippingEngine.after sine settings calls).step sine call :=
  after_append calls [call]

theorem key_call (settings : NormalizedSettings) {key : SourceKey} {s : SourceState}
    (h : s.identity.key = key) (call : Call) : (s.call sine settings key call).identity.key = key := by
  cases call with
  | connect identity connectionId now =>
    simp only [SourceState.call]
    split
    · rename_i hkey
      exact hkey
    · exact h
  | disconnect key' connectionId now =>
    simp only [SourceState.call, SourceState.disconnect]
    split
    · split
      · exact h
      · exact h
    · exact h
  | processFrame key' frame now =>
    simp only [SourceState.call]
    split
    · rw [(continues_receive frame now s).identity, h]
    · exact h
  | tick now =>
    simp only [SourceState.call]
    rw [(continues_tick now s settings sine).identity, h]
  | resetPeak | reportProtocolError | updateSettings settings | tryDequeueTransition => exact h

def Filed (engine : ClippingEngine) : Prop :=
  ∀ key s, engine.sources.find? key = some s → s.identity.key = key

theorem Filed.step {engine : ClippingEngine} (h : Filed engine) (call : Call) :
    Filed (engine.step sine call) := by
  intro key s hs
  cases hbefore : engine.sources.find? key with
  | none =>
    cases find?_step_of_none sine hbefore call with
    | inl hnone =>
      rw [hnone] at hs
      cases hs
    | inr hnew =>
      obtain ⟨identity, connectionId, now, -, hkey, hsome⟩ := hnew
      rw [hsome] at hs
      cases hs
      exact hkey
  | some before =>
    cases find?_step_of_some sine hbefore call with
    | inl hsome =>
      rw [hsome] at hs
      cases hs
      exact key_call engine.settings (h key before hbefore) call
    | inr hevicted =>
      rw [hevicted.2] at hs
      cases hs

theorem filed_after (calls : List Call) : Filed (ClippingEngine.after sine settings calls) :=
  Runs.run_invariant (fun _ call h => h.step call) (by intro key s hs; cases hs) calls

theorem issues_call (settings : NormalizedSettings) (key : SourceKey) (s : SourceState) (call : Call) :
    s.persistentReliabilityIssues.Within (s.call sine settings key call).persistentReliabilityIssues := by
  cases call with
  | connect identity connectionId now =>
    simp only [SourceState.call]
    split
    · exact .refl _
    · exact .refl _
  | disconnect key' connectionId now =>
    simp only [SourceState.call, SourceState.disconnect]
    split
    · split
      · exact .refl _
      · exact within_union _ _
    · exact .refl _
  | processFrame key' frame now =>
    simp only [SourceState.call]
    split
    · exact (continues_receive frame now s).issues
    · exact .refl _
  | tick now => exact (continues_tick now s settings sine).issues
  | resetPeak | reportProtocolError | updateSettings settings | tryDequeueTransition => exact .refl _

variable (sine settings) in
/-- From the end of `calls` on through `later` the key is never without its source. -/
def TrackedThrough (calls later : List Call) (key : SourceKey) : Prop :=
  ∀ part, part <+: later →
    (ClippingEngine.after sine settings (calls ++ part)).sources.contains key = true

theorem TrackedThrough.tail {calls later : List Call} {call : Call} {key : SourceKey}
    (h : TrackedThrough sine settings calls (call :: later) key) :
    TrackedThrough sine settings (calls ++ [call]) later key := by
  intro part hpart
  rw [List.append_assoc]
  exact h (call :: part) (List.cons_prefix_cons.mpr ⟨rfl, hpart⟩)

theorem TrackedThrough.some {calls later : List Call} {key : SourceKey}
    (h : TrackedThrough sine settings calls later key) :
    ∃ s, (ClippingEngine.after sine settings calls).sources.find? key = some s := by
  have hnow := h [] List.nil_prefix
  rw [List.append_nil] at hnow
  exact Option.isSome_iff_exists.mp hnow

theorem TrackedThrough.issues {calls later : List Call} {key : SourceKey} {s : SourceState}
    (h : TrackedThrough sine settings calls later key)
    (hs : (ClippingEngine.after sine settings calls).sources.find? key = Option.some s) :
    ∃ s', (ClippingEngine.after sine settings (calls ++ later)).sources.find? key = Option.some s' ∧
      s.persistentReliabilityIssues.Within s'.persistentReliabilityIssues := by
  induction later generalizing calls s with
  | nil =>
    rw [List.append_nil]
    exact ⟨s, hs, .refl _⟩
  | cons call later ih =>
    obtain ⟨next, hnext⟩ := h.tail.some
    obtain ⟨s', hs', hissues⟩ := ih h.tail hnext
    rw [List.append_assoc, List.singleton_append] at hs'
    refine ⟨s', hs', ?_⟩
    rw [after_concat] at hnext
    cases find?_step_of_some sine hs call with
    | inl hsome =>
      rw [hsome] at hnext
      cases hnext
      exact (issues_call _ key s call).trans hissues
    | inr hevicted =>
      rw [hevicted.2] at hnext
      cases hnext

end Runs

end FfbInterceptor.Engine
