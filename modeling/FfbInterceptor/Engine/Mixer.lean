import FfbInterceptor.Engine.Finished
import FfbInterceptor.Engine.Gains
import FfbInterceptor.Engine.Reconnect
import FfbInterceptor.Library.Greatest

/-! What a tick says of a source: the sums of its devices, cut at full scale. -/
namespace FfbInterceptor.Engine
open FfbInterceptor.Library FfbInterceptor.Protocol FfbInterceptor.Server

/-- The command of an effect now, before it is cut at full scale. -/
def EffectState.instantCommand (sine : Sine) (now : ℚ) (effect : EffectState) : ℚ :=
  effect.commandAt sine (effect.iterationElapsedMilliseconds now)

namespace SourceState

variable (s : SourceState)

def outputs : List UInt32 :=
  (s.devices.entries.filter fun e => !e.2.paused && e.2.actuatorsEnabled).map Prod.fst

/-- The producing effects of a device that the model supports. -/
def contributors (now : ℚ) (deviceId : UInt32) : List EffectState :=
  s.effects.values.filter fun effect =>
    effect.deviceId = deviceId && (effect.isProducing now).1 && effect.isSupported

end SourceState

section Loads

variable (devices : Dictionary UInt32 DeviceState) (now : ℚ)

def counted (effect : EffectState) : Bool :=
  (producingDevice devices now effect).isSome && effect.isSupported

def deviceGain (effect : EffectState) : ℚ := ((devices.find? effect.deviceId).getD {}).gain

def effectiveLevel (sine : Sine) (effect : EffectState) : ℚ :=
  effect.rawLevelAt sine now * effect.gain * deviceGain devices effect

def load (f : EffectState → ℚ) (effects : List EffectState) (deviceId : UInt32) : ℚ :=
  ((effects.filter fun effect => counted devices now effect && effect.deviceId = deviceId).map f).sum

variable {devices} {now} {f : EffectState → ℚ}

theorem load_concat (done : List EffectState) (effect : EffectState) (deviceId : UInt32) :
    load devices now f (done ++ [effect]) deviceId = load devices now f done deviceId +
      if counted devices now effect = true ∧ effect.deviceId = deviceId then f effect else 0 := by
  unfold load
  rw [List.filter_append, List.map_append, List.sum_append]
  by_cases hcounted : counted devices now effect = true ∧ effect.deviceId = deviceId
  · simp [hcounted]
  · rw [if_neg hcounted]
    rw [← Bool.and_eq_true_iff.trans (and_congr_right' decide_eq_true_iff)] at hcounted
    simp [hcounted]

theorem find?_addTo (sums : Dictionary UInt32 ℚ) (deviceId other : UInt32) (amount : ℚ) :
    ((addTo sums deviceId amount).find? other).getD 0 =
      (sums.find? other).getD 0 + if deviceId = other then amount else 0 := by
  rw [addTo, Dictionary.find?_set]
  by_cases hother : other = deviceId
  · subst hother
    simp
  · simp [hother, Ne.symm hother]

theorem largest_le_iff {sums : Dictionary UInt32 ℚ} {c : ℚ} (hc : 0 ≤ c) :
    largest sums ≤ c ↔ ∀ deviceId, (sums.find? deviceId).getD 0 ≤ c := by
  have hentries : (∀ deviceId, (sums.find? deviceId).getD 0 ≤ c) ↔ ∀ value ∈ sums.values, value ≤ c := by
    constructor
    · intro h value hvalue
      obtain ⟨⟨deviceId, value⟩, hentry, rfl⟩ := List.mem_map.mp hvalue
      have hsum := h deviceId
      rw [Dictionary.find?_eq_some_iff.mpr hentry] at hsum
      exact hsum
    · intro h deviceId
      cases hfind : sums.find? deviceId with
      | none => exact hc
      | some value =>
        exact h value (List.mem_map.mpr ⟨_, Dictionary.find?_eq_some_iff.mp hfind, rfl⟩)
  rw [hentries, largest]
  cases hmax : sums.values.max? with
  | none =>
    rw [List.max?_eq_none_iff] at hmax
    simp [hmax, hc]
  | some greatest => exact List.max?_le_iff hmax

theorem largest_nonneg {sums : Dictionary UInt32 ℚ}
    (h : ∀ deviceId, 0 ≤ (sums.find? deviceId).getD 0) : 0 ≤ largest sums := by
  unfold largest
  cases hmax : sums.values.max? with
  | none => exact le_refl _
  | some greatest =>
    obtain ⟨⟨deviceId, value⟩, hentry, rfl⟩ := List.mem_map.mp (List.max?_mem hmax)
    have hsum := h deviceId
    rw [Dictionary.find?_eq_some_iff.mpr hentry] at hsum
    exact hsum

end Loads

section Loop

variable {sine : Sine} {devices : Dictionary UInt32 DeviceState} {now : ℚ}

/-- What the loop knows when it has seen these effects. -/
structure Evaluation.Of (sine : Sine) (devices : Dictionary UInt32 DeviceState) (now : ℚ)
    (done : List EffectState) (evaluation : Evaluation) : Prop where
  active : evaluation.levels.activeEffectCount =
    done.countP fun effect => (producingDevice devices now effect).isSome
  unsupported : evaluation.levels.unsupportedEffectCount =
    done.countP fun effect => (producingDevice devices now effect).isSome && !effect.isSupported
  command : evaluation.levels.commandLevel = greatest
    ((done.filter (counted devices now)).map fun effect => effect.rawLevelAt sine now)
  commandSums : ∀ deviceId, (evaluation.commandByDevice.find? deviceId).getD 0 =
    load devices now (fun effect => effect.rawLevelAt sine now) done deviceId
  effectiveSums : ∀ deviceId, (evaluation.effectiveByDevice.find? deviceId).getD 0 =
    load devices now (effectiveLevel devices now sine) done deviceId
  effective : evaluation.levels.effectiveCommandLevel = 0 ∨ ∃ effect ∈ done,
    counted devices now effect = true ∧
      evaluation.levels.effectiveCommandLevel = clamp01 (effectiveLevel devices now sine effect)

theorem rawLevelAt_nonneg (sine : Sine) (now : ℚ) (effect : EffectState) :
    0 ≤ effect.rawLevelAt sine now := by
  unfold EffectState.rawLevelAt
  split
  · exact clamp01_nonneg _
  · exact le_refl _

theorem device_of_producing {effect : EffectState} {device : DeviceState}
    (h : producingDevice devices now effect = some device) :
    devices.find? effect.deviceId = some device ∧ device.paused = false ∧
      device.actuatorsEnabled = true ∧ (effect.isProducing now).1 = true := by
  unfold producingDevice at h
  split at h
  · cases h
  · split at h
    · cases h
    · rename_i hpaused
      split at h
      · cases h
      · rename_i hproducing
        cases h
        simp only [Bool.or_eq_true, Bool.not_eq_eq_eq_not, Bool.not_true, not_or,
          Bool.not_eq_false] at hproducing
        exact ⟨by assumption, Bool.not_eq_true _ ▸ hpaused, hproducing.2, hproducing.1⟩

theorem Evaluation.Of.add {done : List EffectState} {evaluation : Evaluation}
    (h : evaluation.Of sine devices now done) (effect : EffectState) :
    (Evaluation.add sine devices now evaluation effect).Of sine devices now (done ++ [effect]) := by
  have hkept : ∀ {level : ℚ}, (level = 0 ∨ ∃ e ∈ done, counted devices now e = true ∧
      level = clamp01 (effectiveLevel devices now sine e)) → (level = 0 ∨ ∃ e ∈ done ++ [effect],
        counted devices now e = true ∧ level = clamp01 (effectiveLevel devices now sine e)) := by
    rintro level (hzero | ⟨e, he, heffective⟩)
    · exact Or.inl hzero
    · exact Or.inr ⟨e, List.mem_append_left _ he, heffective⟩
  cases hproducing : producingDevice devices now effect with
  | none =>
    have hcounted : counted devices now effect = false := by simp [counted, hproducing]
    simp only [Evaluation.add, hproducing]
    refine ⟨?_, ?_, ?_, ?_, ?_, hkept h.effective⟩
    · simp [h.active, hproducing]
    · simp [h.unsupported, hproducing]
    · simp [h.command, hcounted]
    · simp [h.commandSums, load_concat, hcounted]
    · simp [h.effectiveSums, load_concat, hcounted]
  | some device =>
    have hgain : deviceGain devices effect = device.gain := by
      rw [deviceGain, (device_of_producing hproducing).1, Option.getD_some]
    cases hsupported : effect.isSupported with
    | false =>
      have hcounted : counted devices now effect = false := by simp [counted, hsupported]
      simp only [Evaluation.add, hproducing, hsupported, Bool.false_eq_true, ↓reduceIte]
      refine ⟨?_, ?_, ?_, ?_, ?_, hkept h.effective⟩
      · simp [h.active, hproducing]
      · simp [h.unsupported, hproducing, hsupported]
      · simp [h.command, hcounted]
      · simp [h.commandSums, load_concat, hcounted]
      · simp [h.effectiveSums, load_concat, hcounted]
    | true =>
      have hcounted : counted devices now effect = true := by simp [counted, hproducing, hsupported]
      have hraw := rawLevelAt_nonneg sine now effect
      simp only [Evaluation.add, hproducing, hsupported, ↓reduceIte]
      refine ⟨?_, ?_, ?_, ?_, ?_, ?_⟩
      · unfold Levels.select
        split <;> simp [h.active, hproducing]
      · unfold Levels.select
        split <;> simp [h.unsupported, hproducing, hsupported]
      · have hlevel : (Levels.select { evaluation.levels with
            activeEffectCount := evaluation.levels.activeEffectCount + 1 }
            (effect.rawLevelAt sine now) effect.gain device.gain).commandLevel =
              max evaluation.levels.commandLevel (effect.rawLevelAt sine now) := by
          rw [Levels.select, max_def]
          split <;> rfl
        rw [hlevel, List.filter_append, List.map_append, h.command]
        simp only [List.filter_cons, hcounted, ↓reduceIte, List.filter_nil, List.map_cons, List.map_nil]
        exact (greatest_concat _ hraw).symm
      · intro deviceId
        simp only [find?_addTo, h.commandSums, load_concat, hcounted, true_and]
      · intro deviceId
        simp only [find?_addTo, h.effectiveSums, load_concat, hcounted, true_and, effectiveLevel, hgain]
      · unfold Levels.select
        split
        · refine Or.inr ⟨effect, List.mem_append_right _ List.mem_cons_self, hcounted, ?_⟩
          simp only [effectiveLevel, hgain]
        · exact hkept h.effective

theorem evaluation_of (sine : Sine) (devices : Dictionary UInt32 DeviceState) (now : ℚ)
    (effects : List EffectState) :
    (effects.foldl (Evaluation.add sine devices now) {}).Of sine devices now effects := by
  induction effects using List.reverseRecOn with
  | nil =>
    refine ⟨rfl, rfl, rfl, ?_, ?_, Or.inl rfl⟩
    · exact fun _ => rfl
    · exact fun _ => rfl
  | append_singleton effects effect ih =>
    rw [List.foldl_append]
    exact ih.add effect

end Loop

section Levels

variable {sine : Sine} {now : ℚ} {s : SourceState}

theorem mem_outputs {deviceId : UInt32} : deviceId ∈ s.outputs ↔ ∃ device,
    s.devices.find? deviceId = some device ∧ device.paused = false ∧ device.actuatorsEnabled = true := by
  unfold SourceState.outputs
  rw [List.mem_map]
  constructor
  · rintro ⟨⟨id, device⟩, hentry, rfl⟩
    obtain ⟨hmem, hopen⟩ := List.mem_filter.mp hentry
    rw [Bool.and_eq_true, Bool.not_eq_true'] at hopen
    exact ⟨device, Dictionary.find?_eq_some_iff.mpr hmem, hopen⟩
  · rintro ⟨device, hfind, hpaused, henabled⟩
    refine ⟨(deviceId, device), List.mem_filter.mpr ⟨Dictionary.find?_eq_some_iff.mp hfind, ?_⟩, rfl⟩
    simp [hpaused, henabled]

/-- The contributors of an output are the effects counted for it. -/
theorem load_of_output {deviceId : UInt32} (h : deviceId ∈ s.outputs) (f : EffectState → ℚ) :
    load s.devices now f s.effects.values deviceId = ((s.contributors now deviceId).map f).sum := by
  obtain ⟨device, hfind, hpaused, henabled⟩ := mem_outputs.mp h
  have hsame : (s.effects.values.filter fun effect =>
      counted s.devices now effect && effect.deviceId = deviceId) = s.contributors now deviceId := by
    refine List.filter_congr ?_
    intro effect _
    by_cases howner : effect.deviceId = deviceId
    · cases hproducing : (effect.isProducing now).1 with
      | true => simp [counted, producingDevice, howner, hfind, hpaused, henabled, hproducing]
      | false => simp [counted, producingDevice, howner, hfind, hpaused, hproducing]
    · simp [howner]
  rw [load, hsame]

theorem load_of_no_output {deviceId : UInt32} (h : deviceId ∉ s.outputs) (f : EffectState → ℚ) :
    load s.devices now f s.effects.values deviceId = 0 := by
  have hnone : (s.effects.values.filter fun effect =>
      counted s.devices now effect && effect.deviceId = deviceId) = [] := by
    rw [List.filter_eq_nil_iff]
    intro effect _ hcounted
    rw [Bool.and_eq_true, decide_eq_true_eq, counted, Bool.and_eq_true, Option.isSome_iff_exists] at hcounted
    obtain ⟨⟨⟨device, hdevice⟩, -⟩, rfl⟩ := hcounted
    obtain ⟨hfind, hpaused, henabled, -⟩ := device_of_producing hdevice
    exact h (mem_outputs.mpr ⟨device, hfind, hpaused, henabled⟩)
  rw [load, hnone]
  rfl

theorem largest_eq_greatest {sums : Dictionary UInt32 ℚ} {f : EffectState → ℚ}
    (hf : ∀ effect ∈ s.effects.values, 0 ≤ f effect)
    (hsums : ∀ deviceId, (sums.find? deviceId).getD 0 =
      load s.devices now f s.effects.values deviceId) :
    largest sums =
      greatest (s.outputs.map fun deviceId => ((s.contributors now deviceId).map f).sum) := by
  have hnonneg : ∀ deviceId, 0 ≤ (sums.find? deviceId).getD 0 := by
    intro deviceId
    rw [hsums]
    exact sum_map_nonneg fun effect heffect => hf effect (List.mem_of_mem_filter heffect)
  refine eq_of_bounds (largest_nonneg hnonneg) (greatest_nonneg _) ?_
  intro c hc
  rw [largest_le_iff hc, greatest_le_iff hc, List.forall_mem_map]
  constructor
  · intro h deviceId houtput
    rw [← load_of_output houtput, ← hsums]
    exact h deviceId
  · intro h deviceId
    rw [hsums]
    by_cases houtput : deviceId ∈ s.outputs
    · rw [load_of_output houtput]
      exact h deviceId houtput
    · rw [load_of_no_output houtput]
      exact hc

/-- What a tick computes of the effects, in closed form. -/
theorem levels_evaluateEffects (sine : Sine) (now : ℚ)
    (hgains : ∀ effect ∈ s.effects.values, 0 ≤ effectiveLevel s.devices now sine effect) :
    let levels := (s.evaluateEffects sine now).levels
    let raw : EffectState → ℚ := fun effect => effect.rawLevelAt sine now
    let sum f deviceId : ℚ := ((s.contributors now deviceId).map f).sum
    levels.commandLevel = greatest ((s.effects.values.filter (counted s.devices now)).map raw) ∧
    levels.unclampedCombinedCommandLevel = greatest (s.outputs.map (sum raw)) ∧
    levels.combinedCommandLevel = min 1 (greatest (s.outputs.map (sum raw))) ∧
    levels.combinedEffectiveCommandLevel =
      min 1 (greatest (s.outputs.map (sum (effectiveLevel s.devices now sine)))) ∧
    levels.activeEffectCount =
      s.effects.values.countP (fun effect => (producingDevice s.devices now effect).isSome) ∧
    levels.unsupportedEffectCount = s.effects.values.countP fun effect =>
      (producingDevice s.devices now effect).isSome && !effect.isSupported := by
  have hloop := evaluation_of sine s.devices now s.effects.values
  have hcommand := largest_eq_greatest (fun effect _ => rawLevelAt_nonneg sine now effect)
    hloop.commandSums
  have heffective := largest_eq_greatest hgains hloop.effectiveSums
  have hclamp : ∀ values : List ℚ, clamp01 (greatest values) = min 1 (greatest values) :=
    fun values => max_eq_right (le_min zero_le_one (greatest_nonneg values))
  refine ⟨hloop.command, hcommand, ?_, ?_, hloop.active, hloop.unsupported⟩
  · simp only [SourceState.evaluateEffects, Evaluation.result, hcommand, hclamp]
  · simp only [SourceState.evaluateEffects, Evaluation.result, heffective, hclamp]

theorem rawLevelAt_of_supported {effect : EffectState} (h : effect.isSupported = true) (sine : Sine)
    (now : ℚ) : effect.rawLevelAt sine now = min 1 |effect.instantCommand sine now| := by
  rw [EffectState.rawLevelAt, if_pos h]
  exact max_eq_right (le_min zero_le_one (abs_nonneg _))

/-- The clamps of the effects do not show behind the clamp of the sums. -/
theorem min_greatest_contributors (sine : Sine) (now : ℚ) :
    min 1 (greatest (s.outputs.map fun deviceId =>
        ((s.contributors now deviceId).map fun effect => effect.rawLevelAt sine now).sum)) =
      min 1 (greatest (s.outputs.map fun deviceId =>
        ((s.contributors now deviceId).map fun effect => |effect.instantCommand sine now|).sum)) := by
  rw [min_greatest zero_le_one, min_greatest zero_le_one, List.map_map, List.map_map]
  refine congrArg greatest (List.map_congr_left ?_)
  intro deviceId _
  have hclamps : (s.contributors now deviceId).map (fun effect => effect.rawLevelAt sine now) =
      (s.contributors now deviceId).map fun effect => min 1 |effect.instantCommand sine now| := by
    refine List.map_congr_left ?_
    intro effect heffect
    have hcontributes := (List.mem_filter.mp heffect).2
    rw [Bool.and_eq_true] at hcontributes
    exact rawLevelAt_of_supported hcontributes.2 sine now
  simp only [Function.comp_apply, hclamps]
  exact min_sum_map_min zero_le_one fun effect _ => abs_nonneg _

theorem le_greatest_of_counted {f : EffectState → ℚ} (hf : ∀ effect ∈ s.effects.values, 0 ≤ f effect)
    {effect : EffectState} (hmem : effect ∈ s.effects.values)
    (hcounted : counted s.devices now effect = true) :
    f effect ≤ greatest (s.outputs.map fun deviceId => ((s.contributors now deviceId).map f).sum) := by
  rw [counted, Bool.and_eq_true, Option.isSome_iff_exists] at hcounted
  obtain ⟨⟨device, hdevice⟩, hsupported⟩ := hcounted
  obtain ⟨hfind, hpaused, henabled, hproducing⟩ := device_of_producing hdevice
  have houtput : effect.deviceId ∈ s.outputs := mem_outputs.mpr ⟨device, hfind, hpaused, henabled⟩
  have hcontributes : effect ∈ s.contributors now effect.deviceId := by
    refine List.mem_filter.mpr ⟨hmem, ?_⟩
    simp [hproducing, hsupported]
  have hsum : f effect ≤ ((s.contributors now effect.deviceId).map f).sum :=
    le_sum_map (fun other hother => hf other (List.mem_of_mem_filter hother)) hcontributes
  exact hsum.trans (le_greatest (List.mem_map.mpr ⟨_, houtput, rfl⟩))

theorem ordered_evaluateEffects (sine : Sine) (now : ℚ)
    (hgains : ∀ effect ∈ s.effects.values, 0 ≤ effectiveLevel s.devices now sine effect) :
    let levels := (s.evaluateEffects sine now).levels
    (0 ≤ levels.commandLevel ∧ levels.commandLevel ≤ levels.combinedCommandLevel ∧
      levels.combinedCommandLevel ≤ 1) ∧
    levels.effectiveCommandLevel ≤ levels.combinedEffectiveCommandLevel ∧
      levels.combinedEffectiveCommandLevel ≤ 1 := by
  intro levels
  obtain ⟨hcommand, -, hcombined, heffective, -, -⟩ := levels_evaluateEffects sine now hgains
  have hloop := evaluation_of sine s.devices now s.effects.values
  have hlevel : levels.effectiveCommandLevel = 0 ∨ ∃ effect ∈ s.effects.values,
      counted s.devices now effect = true ∧
        levels.effectiveCommandLevel = clamp01 (effectiveLevel s.devices now sine effect) :=
    hloop.effective
  refine ⟨⟨?_, ?_, ?_⟩, ?_, ?_⟩
  · exact hcommand ▸ greatest_nonneg _
  · rw [hcommand, hcombined, greatest_le_iff (le_min zero_le_one (greatest_nonneg _)),
      List.forall_mem_map]
    intro effect heffect
    obtain ⟨hmem, hcounted⟩ := List.mem_filter.mp heffect
    have hsupported := (Bool.and_eq_true _ _ ▸ hcounted : _ ∧ effect.isSupported = true).2
    refine le_min ?_ (le_greatest_of_counted (fun e _ => rawLevelAt_nonneg sine now e) hmem hcounted)
    rw [rawLevelAt_of_supported hsupported]
    exact min_le_left _ _
  · exact hcombined ▸ min_le_left _ _
  · rw [heffective]
    cases hlevel with
    | inl hzero =>
      rw [hzero]
      exact le_min zero_le_one (greatest_nonneg _)
    | inr hmost =>
      obtain ⟨effect, hmem, hcounted, hmost⟩ := hmost
      rw [hmost]
      refine max_le (le_min zero_le_one (greatest_nonneg _)) (min_le_min_left 1 ?_)
      exact le_greatest_of_counted hgains hmem hcounted
  · exact heffective ▸ min_le_left _ _

theorem perm_evaluateEffects (sine : Sine) (now : ℚ)
    (hgains : ∀ effect ∈ s.effects.values, 0 ≤ effectiveLevel s.devices now sine effect)
    {effects : Dictionary EffectKey EffectState} (hperm : effects.entries.Perm s.effects.entries) :
    let levels := (s.evaluateEffects sine now).levels
    let permuted := SourceState.evaluateEffects sine { s with effects := effects } now
    permuted.levels.commandLevel = levels.commandLevel ∧
    permuted.levels.unclampedCombinedCommandLevel = levels.unclampedCombinedCommandLevel ∧
    permuted.levels.combinedCommandLevel = levels.combinedCommandLevel ∧
    permuted.levels.combinedEffectiveCommandLevel = levels.combinedEffectiveCommandLevel ∧
    permuted.levels.activeEffectCount = levels.activeEffectCount ∧
    permuted.levels.unsupportedEffectCount = levels.unsupportedEffectCount ∧
    permuted.unobservedTriggerEffectCount =
      (s.evaluateEffects sine now).unobservedTriggerEffectCount := by
  intro levels permuted
  have hvalues : effects.values.Perm s.effects.values := hperm.map Prod.snd
  have hgains' : ∀ effect ∈ effects.values, 0 ≤ effectiveLevel s.devices now sine effect :=
    fun effect heffect => hgains effect (hvalues.mem_iff.mp heffect)
  have hsum : ∀ f : EffectState → ℚ, (s.outputs.map fun deviceId =>
      ((SourceState.contributors { s with effects := effects } now deviceId).map f).sum) =
        s.outputs.map fun deviceId => ((s.contributors now deviceId).map f).sum :=
    fun f => List.map_congr_left fun deviceId _ => ((hvalues.filter _).map f).sum_eq
  obtain ⟨hcommand, hunclamped, hcombined, heffective, hactive, hunsupported⟩ :=
    levels_evaluateEffects sine now hgains
  obtain ⟨hcommand', hunclamped', hcombined', heffective', hactive', hunsupported'⟩ :=
    levels_evaluateEffects (s := { s with effects := effects }) sine now hgains'
  refine ⟨?_, ?_, ?_, ?_, ?_, ?_, hvalues.countP_eq _⟩
  · rw [hcommand, hcommand']
    exact greatest_perm ((hvalues.filter _).map _)
  · rw [hunclamped, hunclamped']
    exact congrArg greatest (hsum _)
  · rw [hcombined, hcombined']
    exact congrArg (fun sums => min 1 (greatest sums)) (hsum _)
  · rw [heffective, heffective']
    exact congrArg (fun sums => min 1 (greatest sums)) (hsum _)
  · rw [hactive, hactive']
    exact hvalues.countP_eq _
  · rw [hunsupported, hunsupported']
    exact hvalues.countP_eq _

end Levels

section Reachable

variable {sine : Sine} {settings : DetectorSettings}

theorem effectiveLevel_after {calls : List Call} {key : SourceKey} {s : SourceState}
    (hs : (ClippingEngine.after sine settings calls).sources.find? key = some s) (now : ℚ) :
    ∀ effect ∈ s.effects.values, 0 ≤ effectiveLevel s.devices now sine effect := by
  intro effect heffect
  obtain ⟨⟨effectKey, effect⟩, hentry, rfl⟩ := List.mem_map.mp heffect
  have hfind := Dictionary.find?_eq_some_iff.mpr hentry
  have hscaled := scaled_after calls key s hs effectKey
  have howner : effect.deviceId = effectKey.deviceId := congrArg EffectKey.deviceId
    (((withinLimits_after calls).sources key s hs).filed effectKey effect hfind)
  have hdevice : 0 ≤ deviceGain s.devices effect := by
    rw [deviceGain, howner]
    exact hscaled.device
  exact mul_nonneg (mul_nonneg (rawLevelAt_nonneg sine now effect) (hscaled.effect effect hfind)) hdevice

/-- The combined level of a tick is the bound of what the devices could be told to do: the sum of the
magnitudes on the busiest output, cut at full scale. -/
theorem conservative_bound (calls : List Call) (now : ℚ) (key : SourceKey) (s : SourceState)
    (hs : (ClippingEngine.after sine settings calls).sources.find? key = some s) :
    let settings' := (ClippingEngine.after sine settings calls).settings
    let ticked := (s.tick now settings' sine).2
    (ClippingEngine.after sine settings (calls ++ [.tick now])).sources.find? key = some ticked ∧
    ticked.levels.combinedCommandLevel = min 1 (greatest (s.outputs.map fun deviceId =>
      ((s.contributors now deviceId).map fun effect => |effect.instantCommand sine now|).sum)) ∧
    (∀ deviceId ∈ s.outputs, ∀ weight : EffectKey → ℚ, (∀ effectKey, |weight effectKey| ≤ 1) →
      min 1 |((s.contributors now deviceId).map fun effect =>
        weight effect.key * effect.instantCommand sine now).sum| ≤
          ticked.levels.combinedCommandLevel) ∧
    (0 ≤ ticked.levels.commandLevel ∧
      ticked.levels.commandLevel ≤ ticked.levels.combinedCommandLevel ∧
      ticked.levels.combinedCommandLevel ≤ 1) ∧
    (ticked.levels.effectiveCommandLevel ≤ ticked.levels.combinedEffectiveCommandLevel ∧
      ticked.levels.combinedEffectiveCommandLevel ≤ 1) ∧
    (ticked.levels.commandLevel ≤ ticked.peakCommandLevel ∧
      ticked.levels.combinedCommandLevel ≤ ticked.peakCombinedCommandLevel ∧
      ticked.levels.unclampedCombinedCommandLevel ≤ ticked.peakUnclampedCombinedCommandLevel) ∧
    ∀ effects : Dictionary EffectKey EffectState, effects.entries.Perm s.effects.entries →
      let permuted := (SourceState.tick { s with effects := effects } now settings' sine).2
      permuted.levels.commandLevel = ticked.levels.commandLevel ∧
      permuted.levels.unclampedCombinedCommandLevel = ticked.levels.unclampedCombinedCommandLevel ∧
      permuted.levels.combinedCommandLevel = ticked.levels.combinedCommandLevel ∧
      permuted.levels.combinedEffectiveCommandLevel = ticked.levels.combinedEffectiveCommandLevel ∧
      permuted.levels.activeEffectCount = ticked.levels.activeEffectCount ∧
      permuted.levels.unsupportedEffectCount = ticked.levels.unsupportedEffectCount ∧
      permuted.unobservedTriggerEffectCount = ticked.unobservedTriggerEffectCount := by
  intro settings' ticked
  have hgains := effectiveLevel_after hs now
  obtain ⟨isClipping, atLimit, clipRatio, sampling, htick⟩ := s.tick_evaluates now settings' sine
  have hticked : ticked = _ := htick
  have hcombined : ticked.levels.combinedCommandLevel =
      min 1 (greatest (s.outputs.map fun deviceId =>
        ((s.contributors now deviceId).map fun effect => |effect.instantCommand sine now|).sum)) := by
    rw [hticked, ← min_greatest_contributors]
    exact (levels_evaluateEffects sine now hgains).2.2.1
  obtain ⟨hcommand, heffective⟩ := ordered_evaluateEffects sine now hgains
  refine ⟨?_, hcombined, ?_, ?_, ?_, ?_, ?_⟩
  · rw [after_concat, ClippingEngine.step, find?_tick, hs]
    rfl
  · intro deviceId houtput weight hweight
    rw [hcombined]
    have hsum := abs_sum_map_mul_le (fun effect : EffectState => weight effect.key)
      (EffectState.instantCommand sine now) (fun effect => hweight effect.key)
      (s.contributors now deviceId)
    have hmem := List.mem_map_of_mem (f := fun deviceId => ((s.contributors now deviceId).map
      fun effect => |effect.instantCommand sine now|).sum) houtput
    exact min_le_min_left 1 (hsum.trans (le_greatest hmem))
  · rw [hticked]
    exact hcommand
  · rw [hticked]
    exact heffective
  · rw [hticked]
    exact ⟨le_max_right _ _, le_max_right _ _, le_max_right _ _⟩
  · intro effects hperm permuted
    obtain ⟨isClipping', atLimit', clipRatio', sampling', htick'⟩ :=
      SourceState.tick_evaluates { s with effects := effects } now settings' sine
    have hpermuted : permuted = _ := htick'
    rw [hpermuted, hticked]
    exact perm_evaluateEffects sine now hgains hperm

def mixedRun : List Call :=
  .connect (sampleIdentity 1) 1 0 ::
    [((1 : UInt32), (8000 : Int32)), (2, -5000)].flatMap fun (id, magnitude) =>
      [.processFrame (sampleIdentity 1).key { sampleFrame .effectCreated with
          processId := 1, effectId := id, effectKind := .constant, magnitude := magnitude, gain := 10000,
          duration := 1000000 } 0,
        .processFrame (sampleIdentity 1).key { sampleFrame .effectCommand with
          processId := 1, effectId := id, effectCommand := some .start, iterations := 1 } 0]

/-- Their sum is cut at full scale, and no choice of signs reaches more. -/
theorem conservative_bound_sample :
    ∃ s, (ClippingEngine.after flat {} mixedRun).sources.find? (sampleIdentity 1).key = some s ∧
      s.outputs = [1] ∧ (s.contributors 5 1).map (EffectState.instantCommand flat 5) = [4 / 5, -1 / 2] ∧
      (s.tick 5 (ClippingEngine.after flat {} mixedRun).settings flat).2.levels.combinedCommandLevel =
        min 1 (greatest (s.outputs.map fun deviceId =>
          ((s.contributors 5 deviceId).map fun effect => |effect.instantCommand flat 5|).sum)) := by
  have hfind := (Option.some_get (show ((ClippingEngine.after flat {} mixedRun).sources.find?
    (sampleIdentity 1).key).isSome = true by decide +kernel)).symm
  exact ⟨_, hfind, by decide +kernel, by decide +kernel, (conservative_bound mixedRun 5 _ _ hfind).2.1⟩

end Reachable

end FfbInterceptor.Engine
