import FfbInterceptor.Engine.Mixer

/-! The combined level without its cut, beside the sum that it stands for. -/
namespace FfbInterceptor.Engine
open FfbInterceptor.Library FfbInterceptor.Protocol FfbInterceptor.Server

namespace SourceState

variable (s : SourceState) (sine : Sine) (now : ℚ)

def documentedSum (deviceId : UInt32) : ℚ :=
  ((s.contributors now deviceId).map fun effect => |effect.instantCommand sine now|).sum

def documentedBound : ℚ := greatest (s.outputs.map (s.documentedSum sine now))

/-- No device is an output, or on one of the busiest outputs no effect goes beyond full scale. -/
def InScale : Prop :=
  s.outputs = [] ∨ ∃ deviceId ∈ s.outputs,
    s.documentedSum sine now deviceId = s.documentedBound sine now ∧
      ∀ effect ∈ s.contributors now deviceId, |effect.instantCommand sine now| ≤ 1

end SourceState

section Levels

variable {s : SourceState} {sine : Sine} {now : ℚ}

def rawSum (s : SourceState) (sine : Sine) (now : ℚ) (deviceId : UInt32) : ℚ :=
  ((s.contributors now deviceId).map fun effect => effect.rawLevelAt sine now).sum

theorem rawLevelAt_of_contributor {deviceId : UInt32} {effect : EffectState}
    (h : effect ∈ s.contributors now deviceId) :
    effect.rawLevelAt sine now = min 1 |effect.instantCommand sine now| := by
  have hcontributes := (List.mem_filter.mp h).2
  rw [Bool.and_eq_true] at hcontributes
  exact rawLevelAt_of_supported hcontributes.2 sine now

theorem rawLevelAt_le_of_contributor {deviceId : UInt32} {effect : EffectState}
    (h : effect ∈ s.contributors now deviceId) :
    effect.rawLevelAt sine now ≤ |effect.instantCommand sine now| := by
  rw [rawLevelAt_of_contributor h]
  exact min_le_right _ _

variable (s sine now) in
theorem rawSum_le (deviceId : UInt32) : rawSum s sine now deviceId ≤ s.documentedSum sine now deviceId :=
  List.sum_le_sum fun _ hmem => rawLevelAt_le_of_contributor hmem

/-- The two sums of an output agree exactly where no effect of it goes beyond full scale. -/
theorem rawSum_eq_iff (deviceId : UInt32) :
    rawSum s sine now deviceId = s.documentedSum sine now deviceId ↔
      ∀ effect ∈ s.contributors now deviceId, |effect.instantCommand sine now| ≤ 1 := by
  constructor
  · intro hsum effect hmem
    have hsame := eq_of_sum_map_eq (fun _ hother => rawLevelAt_le_of_contributor hother) hsum effect hmem
    rw [rawLevelAt_of_contributor hmem] at hsame
    exact min_eq_right_iff.mp hsame
  · intro hscale
    refine congrArg List.sum (List.map_congr_left fun effect hmem => ?_)
    rw [rawLevelAt_of_contributor hmem]
    exact min_eq_right (hscale effect hmem)

theorem greatest_rawSum_le :
    greatest (s.outputs.map (rawSum s sine now)) ≤ s.documentedBound sine now := by
  rw [SourceState.documentedBound, greatest_le_iff (greatest_nonneg _), List.forall_mem_map]
  intro deviceId houtput
  exact (rawSum_le s sine now deviceId).trans (le_greatest (List.mem_map_of_mem houtput))

/-- The published bound is the documented one exactly where a busiest output stays in scale. -/
theorem greatest_rawSum_eq_iff :
    greatest (s.outputs.map (rawSum s sine now)) = s.documentedBound sine now ↔ s.InScale sine now := by
  constructor
  · intro hbound
    by_cases hnone : s.outputs = []
    · exact Or.inl hnone
    · have hnonneg : ∀ sum ∈ s.outputs.map (rawSum s sine now), 0 ≤ sum := by
        rw [List.forall_mem_map]
        exact fun deviceId _ => sum_map_nonneg fun effect _ => rawLevelAt_nonneg sine now effect
      have hne : s.outputs.map (rawSum s sine now) ≠ [] := fun h => hnone (List.map_eq_nil_iff.mp h)
      obtain ⟨deviceId, houtput, hattained⟩ := List.mem_map.mp (greatest_mem hne hnonneg)
      have hle : s.documentedSum sine now deviceId ≤ s.documentedBound sine now :=
        le_greatest (List.mem_map_of_mem houtput)
      rw [hbound] at hattained
      have hsame := le_antisymm (rawSum_le s sine now deviceId)
        (hattained ▸ hle)
      exact Or.inr ⟨deviceId, houtput, hsame.symm.trans hattained, (rawSum_eq_iff deviceId).mp hsame⟩
  · intro hscale
    cases hscale with
    | inl hnone => rw [SourceState.documentedBound, hnone, List.map_nil, List.map_nil]
    | inr hbusiest =>
      obtain ⟨deviceId, houtput, hbound, hall⟩ := hbusiest
      refine le_antisymm greatest_rawSum_le ?_
      rw [← hbound, ← (rawSum_eq_iff deviceId).mpr hall]
      exact le_greatest (List.mem_map_of_mem houtput)

theorem unclamped_tick (settings : NormalizedSettings)
    (hgains : ∀ effect ∈ s.effects.values, 0 ≤ effectiveLevel s.devices now sine effect) :
    (s.tick now settings sine).2.levels.unclampedCombinedCommandLevel =
      greatest (s.outputs.map (rawSum s sine now)) := by
  obtain ⟨isClipping, atLimit, clipRatio, sampling, htick⟩ := s.tick_evaluates now settings sine
  rw [htick]
  exact (levels_evaluateEffects sine now hgains).2.1

end Levels

section Peaks

/-- A change that leaves the peak alone and at most clears the level. -/
structure SourceState.KeepsPeak (s s' : SourceState) : Prop where
  peak : s'.peakUnclampedCombinedCommandLevel = s.peakUnclampedCombinedCommandLevel
  level : s'.levels.unclampedCombinedCommandLevel = s.levels.unclampedCombinedCommandLevel ∨
    s'.levels.unclampedCombinedCommandLevel = 0

variable {s s' s'' : SourceState} (frame : ProtocolFrame) (now : ℚ)

theorem SourceState.KeepsPeak.refl (s : SourceState) : s.KeepsPeak s := ⟨rfl, Or.inl rfl⟩

theorem SourceState.KeepsPeak.trans (h : s.KeepsPeak s') (h' : s'.KeepsPeak s'') : s.KeepsPeak s'' := by
  refine ⟨h'.peak.trans h.peak, ?_⟩
  cases h'.level with
  | inl hsame => exact h.level.imp hsame.trans hsame.trans
  | inr hzero => exact Or.inr hzero

theorem SourceState.KeepsPeak.of_eq
    (hpeak : s'.peakUnclampedCombinedCommandLevel = s.peakUnclampedCombinedCommandLevel)
    (hlevels : s'.levels = s.levels) : s.KeepsPeak s' :=
  ⟨hpeak, Or.inl (congrArg Levels.unclampedCombinedCommandLevel hlevels)⟩

theorem overlooks_keepsPeak : SourceState.Overlooks SourceState.KeepsPeak where
  refl := .refl
  trans := .trans
  deviceDrop _ := .of_eq rfl rfl
  effectDrop _ := .of_eq rfl rfl
  objects _ _ _ _ := .of_eq rfl rfl

theorem keepsPeak_applyDropNotice (s : SourceState) : s.KeepsPeak (s.applyDropNotice frame now) := by
  unfold SourceState.applyDropNotice
  split
  · exact ⟨rfl, Or.inr rfl⟩
  · exact .of_eq rfl rfl

theorem keepsPeak_apply (s : SourceState) : s.KeepsPeak (s.apply frame now) :=
  overlooks_keepsPeak.apply frame now s fun _ => keepsPeak_applyDropNotice frame now s

theorem keepsPeak_call (s : SourceState) (sine : Sine) (settings : NormalizedSettings) (key : SourceKey)
    {call : Call} (htick : ∀ now, call ≠ .tick now) (hreset : call ≠ .resetPeak) :
    s.KeepsPeak (s.call sine settings key call) := by
  cases call with
  | connect identity connectionId now =>
    simp only [SourceState.call]
    split
    · exact .of_eq rfl rfl
    · exact .refl s
  | disconnect key' connectionId now =>
    simp only [SourceState.call]
    split
    · unfold SourceState.disconnect
      dsimp only
      split
      · exact .of_eq rfl rfl
      · exact ⟨rfl, Or.inr rfl⟩
    · exact .refl s
  | processFrame key' frame now =>
    simp only [SourceState.call]
    split
    · have hactive : s.KeepsPeak { s with lastActivityMilliseconds := now } := .of_eq rfl rfl
      exact hactive.trans (keepsPeak_apply frame now _)
    · exact .refl s
  | tick now => exact absurd rfl (htick now)
  | resetPeak => exact absurd rfl hreset
  | reportProtocolError => exact .refl s
  | updateSettings settings => exact .refl s
  | tryDequeueTransition => exact .refl s

theorem peak_tick (s : SourceState) (now : ℚ) (settings : NormalizedSettings) (sine : Sine) :
    (s.tick now settings sine).2.peakUnclampedCombinedCommandLevel =
      max s.peakUnclampedCombinedCommandLevel
        (s.tick now settings sine).2.levels.unclampedCombinedCommandLevel := by
  obtain ⟨isClipping, atLimit, clipRatio, sampling, htick⟩ := s.tick_evaluates now settings sine
  rw [htick]
  rfl

end Peaks

section Runs

variable (sine : Sine) (settings : DetectorSettings) (key : SourceKey)

/-- The bounds of a source since its last `ResetPeak`, which keeps the one it shows. -/
def boundsNext (engine : ClippingEngine) (bounds : List ℚ) (call : Call) : List ℚ :=
  match engine.sources.find? key with
  | none => []
  | some s =>
    match call with
    | .tick now => bounds ++ [s.documentedBound sine now]
    | .resetPeak => [s.levels.unclampedCombinedCommandLevel]
    | _ => bounds

/-- The documented bounds that the ticks of a run have met, for the source that has the key. -/
def boundsAfter (calls : List Call) : List ℚ :=
  (Runs.run (fun (state : ClippingEngine × List ℚ) call =>
    (state.1.step sine call, boundsNext sine key state.1 state.2 call))
    (ClippingEngine.new settings, []) calls).2

def TicksInScale (engine : ClippingEngine) (call : Call) : Prop :=
  ∀ now s, call = .tick now → engine.sources.find? key = some s → s.InScale sine now

variable {sine settings key}

theorem boundsAfter_concat (calls : List Call) (call : Call) :
    boundsAfter sine settings key (calls ++ [call]) = boundsNext sine key
      (ClippingEngine.after sine settings calls) (boundsAfter sine settings key calls) call := by
  have hengine : (Runs.run (fun (state : ClippingEngine × List ℚ) call =>
      (state.1.step sine call, boundsNext sine key state.1 state.2 call))
      (ClippingEngine.new settings, []) calls).1 = ClippingEngine.after sine settings calls := by
    induction calls using List.reverseRecOn with
    | nil => rfl
    | append_singleton calls call ih => rw [Runs.run_append, after_concat, ← ih]; rfl
  rw [boundsAfter, Runs.run_append, ← hengine]
  rfl

/-- A peak is the greatest of the bounds so far, and no level is negative. -/
structure Peaks (s : SourceState) (bounds : List ℚ) : Prop where
  peak : s.peakUnclampedCombinedCommandLevel = greatest bounds
  level : 0 ≤ s.levels.unclampedCombinedCommandLevel

theorem peaks_after {calls : List Call} (h : Runs.Throughout (ClippingEngine.step sine)
    (TicksInScale sine key) (ClippingEngine.new settings) calls) {s : SourceState}
    (hs : (ClippingEngine.after sine settings calls).sources.find? key = some s) :
    Peaks s (boundsAfter sine settings key calls) := by
  induction calls using List.reverseRecOn generalizing s with
  | nil => cases hs
  | append_singleton calls call ih =>
    have hearlier := h.initial (List.prefix_append calls [call])
    have hlast := h calls call [] rfl
    rw [after_concat] at hs
    rw [boundsAfter_concat, boundsNext]
    cases hbefore : (ClippingEngine.after sine settings calls).sources.find? key with
    | none =>
      obtain hnone | ⟨identity, connectionId, now, -, -, hnew⟩ :=
        find?_step_of_none sine hbefore call
      · rw [hnone] at hs
        cases hs
      · rw [hnew] at hs
        obtain rfl := Option.some.inj hs
        exact ⟨rfl, le_refl _⟩
    | some before =>
      have hpeaks := ih hearlier hbefore
      obtain hkept | ⟨-, hnone⟩ := find?_step_of_some sine hbefore call
      · rw [hkept] at hs
        obtain rfl := Option.some.inj hs
        have hother : (∀ now, call ≠ .tick now) → call ≠ .resetPeak →
            Peaks (before.call sine (ClippingEngine.after sine settings calls).settings key call)
              (boundsAfter sine settings key calls) := by
          intro htick hreset
          have hkeeps := keepsPeak_call before sine
            (ClippingEngine.after sine settings calls).settings key htick hreset
          refine ⟨hkeeps.peak.trans hpeaks.peak, ?_⟩
          cases hkeeps.level with
          | inl hsame => exact hsame ▸ hpeaks.level
          | inr hzero => exact hzero ▸ le_refl _
        cases call with
        | tick now =>
          have hgains := effectiveLevel_after hbefore now
          have hlevel := unclamped_tick (ClippingEngine.after sine settings calls).settings hgains
          rw [greatest_rawSum_eq_iff.mpr (hlast now before rfl hbefore)] at hlevel
          have hgreatest : greatest (boundsAfter sine settings key calls ++
                [before.documentedBound sine now]) =
              max (greatest (boundsAfter sine settings key calls))
                (before.documentedBound sine now) :=
            greatest_concat _ (greatest_nonneg _)
          refine ⟨(peak_tick before now _ sine).trans ?_, hlevel ▸ greatest_nonneg _⟩
          rw [hpeaks.peak, hlevel]
          exact hgreatest.symm
        | resetPeak => exact ⟨(max_eq_left hpeaks.level).symm, hpeaks.level⟩
        | connect identity connectionId now => exact hother nofun nofun
        | disconnect key' connectionId now => exact hother nofun nofun
        | processFrame key' frame now => exact hother nofun nofun
        | reportProtocolError => exact hother nofun nofun
        | updateSettings settings => exact hother nofun nofun
        | tryDequeueTransition => exact hother nofun nofun
      · rw [hnone] at hs
        cases hs

/-- A tick publishes the documented bound exactly where a busiest output stays in scale, and after ticks
that all do, the peak is the greatest bound since the last reset. -/
theorem unclamped_bound (calls : List Call) (now : ℚ) (key : SourceKey) (s : SourceState)
    (hs : (ClippingEngine.after sine settings calls).sources.find? key = some s) :
    let ticked := (s.tick now (ClippingEngine.after sine settings calls).settings sine).2
    (ClippingEngine.after sine settings (calls ++ [.tick now])).sources.find? key = some ticked ∧
    (ticked.levels.unclampedCombinedCommandLevel = s.documentedBound sine now ↔
      s.InScale sine now) ∧
    (Runs.Throughout (ClippingEngine.step sine) (TicksInScale sine key) (ClippingEngine.new settings)
        (calls ++ [.tick now]) →
      ticked.peakUnclampedCombinedCommandLevel =
        greatest (boundsAfter sine settings key (calls ++ [.tick now]))) := by
  intro ticked
  have hticked : (ClippingEngine.after sine settings (calls ++ [.tick now])).sources.find? key =
      some ticked := by
    rw [after_concat, ClippingEngine.step, find?_tick, hs]
    rfl
  have hlevel : ticked.levels.unclampedCombinedCommandLevel =
      greatest (s.outputs.map (rawSum s sine now)) :=
    unclamped_tick _ (effectiveLevel_after hs now)
  refine ⟨hticked, ?_, fun hthroughout => (peaks_after hthroughout hticked).peak⟩
  rw [hlevel]
  exact greatest_rawSum_eq_iff

instance (s : SourceState) (sine : Sine) (now : ℚ) : Decidable (s.InScale sine now) :=
  inferInstanceAs (Decidable (s.outputs = [] ∨ ∃ deviceId ∈ s.outputs, _ ∧ ∀ effect ∈ _, _))

/-- 80 % and -50 % on one device add up to 130 %. -/
theorem unclamped_bound_sample :
    ∃ s, (ClippingEngine.after flat {} mixedRun).sources.find? (sampleIdentity 1).key = some s ∧
      s.documentedBound flat 5 = 13 / 10 ∧
      let ticked := (s.tick 5 (ClippingEngine.after flat {} mixedRun).settings flat).2
      ticked.levels.unclampedCombinedCommandLevel = s.documentedBound flat 5 := by
  have hfind := (Option.some_get (show ((ClippingEngine.after flat {} mixedRun).sources.find?
    (sampleIdentity 1).key).isSome = true by decide +kernel)).symm
  refine ⟨_, hfind, by decide +kernel, ?_⟩
  exact (unclamped_bound mixedRun 5 _ _ hfind).2.1.mpr (by decide +kernel)

def overdrivenRun : List Call :=
  [.connect (sampleIdentity 1) 1 0,
    .processFrame (sampleIdentity 1).key { sampleFrame .effectCreated with
      processId := 1, effectKind := .square, periodicMagnitude := 8000, periodicOffset := 8000,
      periodicPeriod := 1000000, gain := 10000, duration := 1000000 } 0,
    .processFrame (sampleIdentity 1).key { sampleFrame .effectCommand with
      processId := 1, effectCommand := some .start, iterations := 1 } 0]

/-- The bound of a single effect is cut at 100 %. -/
theorem overdriven_truncated :
    ∃ s, (ClippingEngine.after flat {} overdrivenRun).sources.find? (sampleIdentity 1).key = some s ∧
      s.documentedBound flat 5 = 8 / 5 ∧
      let ticked := (s.tick 5 (ClippingEngine.after flat {} overdrivenRun).settings flat).2
      ticked.levels.unclampedCombinedCommandLevel = 1 := by
  have hfind := (Option.some_get (show ((ClippingEngine.after flat {} overdrivenRun).sources.find?
    (sampleIdentity 1).key).isSome = true by decide +kernel)).symm
  exact ⟨_, hfind, by decide +kernel, by decide +kernel⟩

end Runs

end FfbInterceptor.Engine
