import FfbInterceptor.Engine.Sources
import FfbInterceptor.Engine.Tables

/-! The engine fails closed: whoever has missed something is never reported as clipping. -/
namespace FfbInterceptor.Engine
open FfbInterceptor.Library FfbInterceptor.Protocol FfbInterceptor.Server

section Incidents

/-- A call after which a source no longer knows everything its producer told. -/
inductive Incident (key : SourceKey) (s : SourceState) : Call → Prop
  | frameGap {frame : ProtocolFrame} (now : ℚ) (connected : s.connected = true)
      (processId : frame.processId = key.processId) (type : frame.messageType = .dropNotice)
      (increasing : s.droppedFrames < frame.dropped.toNat) : Incident key s (.processFrame key frame now)
  | disconnected {connectionId : Guid} (now : ℚ) (last : s.connections.erase connectionId = []) :
      Incident key s (.disconnect key connectionId now)
  | refused {frame : ProtocolFrame} (now : ℚ) (connected : s.connected = true)
      (processId : frame.processId = key.processId) (refused : s.refuses frame = true) :
      Incident key s (.processFrame key frame now)

variable (sine : Sine)

/-- Every incident leaves a flag. -/
theorem Incident.issues {key : SourceKey} {s : SourceState} {call : Call} (h : Incident key s call)
    (settings : NormalizedSettings) :
    (s.call sine settings key call).persistentReliabilityIssues ≠ {} := by
  cases h with
  | frameGap now connected processId type increasing =>
    have hgap : ({ s with lastActivityMilliseconds := now } : SourceState).droppedFrames <
        (‹ProtocolFrame›).dropped.toNat := increasing
    simp only [SourceState.call, connected, processId, and_self, ↓reduceIte, SourceState.receive,
      SourceState.apply, type, SourceState.applyDropNotice, hgap]
    intro hnone
    have hflag := congrArg DetectorReliabilityIssue.frameGap hnone
    simp [SourceState.invalidateAfterDrop, DetectorReliabilityIssue.union] at hflag
  | disconnected now last =>
    simp only [SourceState.call, ↓reduceIte, SourceState.disconnect, SourceState.connected, last,
      List.isEmpty_nil, Bool.not_true, Bool.false_eq_true]
    intro hnone
    have hflag := congrArg DetectorReliabilityIssue.sessionReconnect hnone
    simp [SourceState.resetAfterDisconnect, DetectorReliabilityIssue.union] at hflag
  | refused now connected processId refused =>
    simp only [SourceState.call, connected, processId, and_self, ↓reduceIte, SourceState.receive]
    intro hnone
    have hrefuses : ({ s with lastActivityMilliseconds := now } : SourceState).refuses _ = true := refused
    have hflag := (refused_apply hrefuses now).1
    rw [hnone] at hflag
    cases hflag

/-- A `Connect` finds 64 sources, all connected, and none of them its own. -/
def RefusesSource (engine : ClippingEngine) (call : Call) : Prop :=
  ∃ identity connectionId now, call = .connect identity connectionId now ∧
    engine.sources.find? identity.key = none ∧ MaximumSources ≤ engine.sources.count ∧
    ∀ source ∈ engine.sources.values, source.connected = true

variable {engine : ClippingEngine}

theorem saturatingIncrement_ne_zero (value : Nat) : saturatingIncrement value ≠ 0 := by
  unfold saturatingIncrement
  split
  · rename_i h
    rw [h]
    decide
  · omega

theorem sourceStateDrops_connectSource (engine : ClippingEngine) (source : SourceState)
    (identity : SourceIdentity) (connectionId : Guid) (now : ℚ) :
    (engine.connectSource source identity connectionId now).sourceStateDrops =
      engine.sourceStateDrops := by
  unfold ClippingEngine.connectSource
  simp only
  split
  · rfl
  · rw [sourceStateDrops_enqueueTransition]
    rfl

theorem sourceStateDrops_tryMakeSourceRoom (engine : ClippingEngine) :
    engine.tryMakeSourceRoom.2.sourceStateDrops = engine.sourceStateDrops := by
  unfold ClippingEngine.tryMakeSourceRoom
  split
  · rfl
  · split <;> rfl

theorem RefusesSource.sourceStateDrops {call : Call} (h : RefusesSource engine call) :
    (engine.step sine call).sourceStateDrops ≠ 0 := by
  obtain ⟨identity, connectionId, now, rfl, hnone, hfull, hconnected⟩ := h
  have hcandidate : engine.evictionCandidate = none := by
    have hnil : engine.sources.values.filter (fun source => !source.connected) = [] := by
      rw [List.filter_eq_nil_iff]
      intro source hsource
      simp [hconnected source hsource]
    simp [ClippingEngine.evictionCandidate, hnil]
  have hnot : ¬ engine.sources.count < MaximumSources := Nat.not_lt.mpr hfull
  have hroom : engine.tryMakeSourceRoom = (false, engine) := by
    simp only [ClippingEngine.tryMakeSourceRoom, hcandidate, hnot, ↓reduceIte, decide_false]
  simp only [ClippingEngine.step, ClippingEngine.connect, hnone, hroom]
  exact saturatingIncrement_ne_zero _

theorem sourceStateDrops_step_cases (engine : ClippingEngine) (call : Call) :
    (engine.step sine call).sourceStateDrops = engine.sourceStateDrops ∨
      ((engine.step sine call).sourceStateDrops = saturatingIncrement engine.sourceStateDrops ∧
        ∃ identity connectionId now, call = .connect identity connectionId now ∧
          engine.sources.find? identity.key = none ∧ engine.tryMakeSourceRoom.1 = false) := by
  cases call with
  | connect identity connectionId now =>
    simp only [ClippingEngine.step, ClippingEngine.connect]
    have hkept := sourceStateDrops_tryMakeSourceRoom engine
    split
    · exact Or.inl (sourceStateDrops_connectSource _ _ _ _ _)
    · rename_i hnone
      split
      · rename_i full hroom
        rw [hroom] at hkept
        refine Or.inr ⟨congrArg saturatingIncrement hkept, identity, connectionId, now, rfl, hnone, ?_⟩
        rw [hroom]
      · rename_i ready hroom
        rw [hroom] at hkept
        exact Or.inl ((sourceStateDrops_connectSource _ _ _ _ _).trans hkept)
  | disconnect key connectionId now =>
    refine Or.inl ?_
    simp only [ClippingEngine.step, ClippingEngine.disconnect]
    split
    · rfl
    · split
      · rfl
      · rw [sourceStateDrops_enqueueTransition]
        split
        · rw [sourceStateDrops_enqueueTransition]
          rfl
        · rfl
  | processFrame key frame now =>
    refine Or.inl ?_
    simp only [ClippingEngine.step, ClippingEngine.processFrame]
    split
    · rfl
    · split
      · rfl
      · split
        · rfl
        · split
          · rw [sourceStateDrops_enqueueTransition]
            rfl
          · rfl
  | tick now => exact Or.inl (tick_keeps sine now).2
  | tryDequeueTransition =>
    refine Or.inl ?_
    simp only [ClippingEngine.step, ClippingEngine.tryDequeueTransition]
    split <;> rfl
  | resetPeak | reportProtocolError | updateSettings settings => exact Or.inl rfl

theorem sourceStateDrops_step (h : engine.sourceStateDrops ≠ 0) (call : Call) :
    (engine.step sine call).sourceStateDrops ≠ 0 := by
  cases sourceStateDrops_step_cases sine engine call with
  | inl hkept =>
    rw [hkept]
    exact h
  | inr hcounted =>
    rw [hcounted.1]
    exact saturatingIncrement_ne_zero _

end Incidents

section Snapshots

variable {sine : Sine} {settings : DetectorSettings}

theorem estimateReliable_iff (s : SourceState) : s.estimateReliable = true ↔
    s.persistentReliabilityIssues = {} ∧ s.unobservedTriggerEffectCount = 0 := by
  rw [SourceState.estimateReliable, decide_eq_true_eq]
  cases hissues : s.persistentReliabilityIssues with
  | mk frameGap sessionReconnect triggerStateUnavailable stateCapacityExceeded =>
    simp only [SourceState.reliabilityIssues, DetectorReliabilityIssue.union, hissues,
      DetectorReliabilityIssue.mk.injEq, Bool.or_false, Bool.or_eq_false_iff, decide_eq_false_iff_not,
      not_not]
    tauto

theorem anyClipping_buildSnapshot (engine : ClippingEngine) : engine.buildSnapshot.anyClipping = true ↔
    engine.sourceStateDrops = 0 ∧ ∃ source ∈ engine.connectedSources,
      source.estimateReliable = true ∧ source.isClipping = true := by
  have hbase : engine.buildSnapshot.anyClipping = (engine.baseSnapshot none).anyClipping := by
    unfold ClippingEngine.buildSnapshot
    split <;> rfl
  simp only [hbase, ClippingEngine.baseSnapshot, Bool.and_eq_true, decide_eq_true_eq, List.any_eq_true]

theorem mem_connectedSources {engine : ClippingEngine} {source : SourceState}
    (h : source ∈ engine.connectedSources) : ∃ key, engine.sources.find? key = some source := by
  have hvalue := (List.mem_filter.mp h).1
  obtain ⟨⟨key, value⟩, hentry, rfl⟩ := List.mem_map.mp hvalue
  exact ⟨key, Dictionary.find?_eq_some_iff.mpr hentry⟩

theorem mem_of_selectSource {engine : ClippingEngine} {source : SourceState}
    (h : engine.selectSource = some source) : source ∈ engine.connectedSources := by
  unfold ClippingEngine.selectSource at h
  split at h
  · exact List.argmax_mem (Option.mem_def.mpr h)
  · have hmem := List.argmax_mem (Option.mem_def.mpr h)
    exact List.mem_of_mem_filter (List.mem_of_mem_filter hmem)

theorem triggers_of_tick {s : SourceState} {now : ℚ} {settings : NormalizedSettings}
    (h : (s.tick now settings sine).2.estimateReliable = true) :
    ∀ key effect, (s.tick now settings sine).2.effects.find? key = some effect →
      effect.triggerButton = 0xFFFFFFFF := by
  obtain ⟨isClipping, atLimit, clipRatio, sampling, htick⟩ := s.tick_evaluates now settings sine
  rw [htick] at h ⊢
  have hnone := ((estimateReliable_iff _).mp h).2
  intro key effect heffect
  simp only [SourceState.evaluateEffects, Dictionary.find?_map, Option.map_eq_some_iff] at heffect
  obtain ⟨before, hbefore, rfl⟩ := heffect
  have hvalue : before ∈ s.effects.values :=
    List.mem_map.mpr ⟨_, Dictionary.find?_eq_some_iff.mp hbefore, rfl⟩
  have hobserved := List.countP_eq_zero.mp hnone before hvalue
  have hsame : (evaluateEffect s.devices now before).triggerButton = before.triggerButton := by
    unfold evaluateEffect EffectState.isProducing EffectState.expireIfFinished
    split
    · rfl
    · split
      · rfl
      · split
        · rfl
        · simp only
          split <;> rfl
  rw [hsame]
  simpa [EffectState.hasUnobservableTrigger] using hobserved

variable (sine settings)

/-- No `Connect` was refused for lack of room. -/
def NeverRefused (calls : List Call) : Prop :=
  ∀ before call later, calls = before ++ call :: later →
    ¬ RefusesSource (ClippingEngine.after sine settings before) call

/-- Since it came in, the source of a key has met no incident, and none of its effects waits for a
button now. -/
def Faultless (calls : List Call) (key : SourceKey) : Prop :=
  (∀ before call later, calls = before ++ call :: later →
    TrackedThrough sine settings (before ++ [call]) later key →
    ∀ s, (ClippingEngine.after sine settings before).sources.find? key = some s →
      ¬ Incident key s call) ∧
  ∀ s, (ClippingEngine.after sine settings calls).sources.find? key = some s →
    ∀ effectKey effect, s.effects.find? effectKey = some effect → effect.triggerButton = 0xFFFFFFFF

variable {sine settings}

theorem neverRefused_of_sourceStateDrops {calls : List Call}
    (h : (ClippingEngine.after sine settings calls).sourceStateDrops = 0) :
    NeverRefused sine settings calls := by
  rintro before call later rfl hrefused
  have hcounted := hrefused.sourceStateDrops sine
  rw [← after_concat] at hcounted
  have hlater : ∀ later calls, (ClippingEngine.after sine settings calls).sourceStateDrops ≠ 0 →
      (ClippingEngine.after sine settings (calls ++ later)).sourceStateDrops ≠ 0 := by
    intro later calls hcalls
    rw [after_append]
    exact Runs.run_invariant (P := fun engine : ClippingEngine => engine.sourceStateDrops ≠ 0)
      (fun _ call hengine => sourceStateDrops_step sine hengine call) hcalls later
  have hend := hlater later (before ++ [call]) hcounted
  rw [List.append_assoc, List.singleton_append] at hend
  exact hend h

/-- A reliable source of a tick is faultless. -/
theorem faultless_of_reliable {calls : List Call} {now : ℚ} {key : SourceKey} {s : SourceState}
    (hs : (ClippingEngine.after sine settings (calls ++ [.tick now])).sources.find? key = some s)
    (hreliable : s.estimateReliable = true) :
    Faultless sine settings (calls ++ [.tick now]) key := by
  constructor
  · intro before call later hsplit htracked t ht hincident
    obtain ⟨next, hnext⟩ := htracked.some
    obtain ⟨s', hs', hissues⟩ := htracked.issues hnext
    rw [List.append_assoc, List.singleton_append, ← hsplit, hs] at hs'
    cases hs'
    rw [((estimateReliable_iff s).mp hreliable).1] at hissues
    have hclear := within_none hissues
    rw [after_concat] at hnext
    cases find?_step_of_some sine ht call with
    | inl hsome =>
      rw [hsome] at hnext
      cases hnext
      exact hincident.issues sine _ hclear
    | inr hevicted =>
      rw [hevicted.2] at hnext
      cases hnext
  · intro s' hs'
    rw [hs] at hs'
    cases hs'
    rw [after_concat, ClippingEngine.step, find?_tick, Option.map_eq_some_iff] at hs
    obtain ⟨before, -, rfl⟩ := hs
    exact triggers_of_tick hreliable

theorem snapshotAfter_eq (calls : List Call) (now : ℚ) :
    ClippingEngine.snapshotAfter sine settings calls now =
      (ClippingEngine.after sine settings (calls ++ [.tick now])).buildSnapshot := by
  rw [after_concat]
  rfl

variable (sine settings) in
/-- Whatever is reported as clipping or at its limit has missed nothing, and its flags stay. -/
theorem fail_closed (calls : List Call) (now : ℚ) :
    let engine := ClippingEngine.after sine settings (calls ++ [.tick now])
    let snapshot := ClippingEngine.snapshotAfter sine settings calls now
    (snapshot.isClipping = true ∨ snapshot.atLimit = true →
      NeverRefused sine settings (calls ++ [.tick now]) ∧ ∃ source,
        engine.selectSource = some source ∧ engine.sources.find? source.identity.key = some source ∧
        Faultless sine settings (calls ++ [.tick now]) source.identity.key) ∧
    (snapshot.anyClipping = true →
      NeverRefused sine settings (calls ++ [.tick now]) ∧ ∃ source ∈ engine.connectedSources,
        engine.sources.find? source.identity.key = some source ∧ source.isClipping = true ∧
        Faultless sine settings (calls ++ [.tick now]) source.identity.key) ∧
    (snapshot.isClipping = true → snapshot.anyClipping = true) ∧
    ∀ calls later key s, TrackedThrough sine settings calls later key →
      (ClippingEngine.after sine settings calls).sources.find? key = some s →
      ∃ s', (ClippingEngine.after sine settings (calls ++ later)).sources.find? key = some s' ∧
        s.persistentReliabilityIssues.Within s'.persistentReliabilityIssues := by
  intro engine snapshot
  have hsnapshot : snapshot = engine.buildSnapshot := snapshotAfter_eq calls now
  have hfiled : ∀ source ∈ engine.connectedSources,
      engine.sources.find? source.identity.key = some source := by
    intro source hsource
    obtain ⟨key, hkey⟩ := mem_connectedSources hsource
    rw [filed_after _ key source hkey]
    exact hkey
  refine ⟨?_, ?_, ?_, fun calls later key s htracked hs => htracked.issues hs⟩
  · intro hreported
    rw [hsnapshot] at hreported
    cases hselected : engine.selectSource with
    | none =>
      simp only [ClippingEngine.buildSnapshot, hselected, ClippingEngine.unselectedSnapshot,
        ClippingEngine.baseSnapshot, Bool.false_eq_true, or_self] at hreported
    | some source =>
      simp only [ClippingEngine.buildSnapshot, hselected, ClippingEngine.selectedSnapshot,
        Bool.and_eq_true, decide_eq_true_eq] at hreported
      have hreliable : engine.sourceStateDrops = 0 ∧ source.estimateReliable = true := by
        cases hreported with
        | inl h => exact h.1
        | inr h => exact h.1
      have hfind := hfiled source (mem_of_selectSource hselected)
      exact ⟨neverRefused_of_sourceStateDrops hreliable.1, source, rfl, hfind,
        faultless_of_reliable hfind hreliable.2⟩
  · intro hany
    rw [hsnapshot] at hany
    obtain ⟨hdrops, source, hsource, hreliable, hclipping⟩ := (anyClipping_buildSnapshot engine).mp hany
    exact ⟨neverRefused_of_sourceStateDrops hdrops, source, hsource, hfiled source hsource, hclipping,
      faultless_of_reliable (hfiled source hsource) hreliable⟩
  · intro hclipping
    rw [hsnapshot] at hclipping ⊢
    cases hselected : engine.selectSource with
    | none =>
      simp only [ClippingEngine.buildSnapshot, hselected, ClippingEngine.unselectedSnapshot,
        ClippingEngine.baseSnapshot, Bool.false_eq_true] at hclipping
    | some source =>
      simp only [ClippingEngine.buildSnapshot, hselected, ClippingEngine.selectedSnapshot,
        Bool.and_eq_true, decide_eq_true_eq] at hclipping
      exact (anyClipping_buildSnapshot engine).mpr
        ⟨hclipping.1.1, source, mem_of_selectSource hselected, hclipping.1.2, hclipping.2⟩

end Snapshots

end FfbInterceptor.Engine
