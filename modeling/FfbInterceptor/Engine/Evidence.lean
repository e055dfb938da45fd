import FfbInterceptor.Engine.Capacity
import FfbInterceptor.Engine.Finished
import FfbInterceptor.Engine.Reconnect

/-! What an unreliable snapshot still shows: its ratio is that of the selected source, whatever the
engine as a whole has refused. -/
namespace FfbInterceptor.Engine
open FfbInterceptor.Library FfbInterceptor.Protocol FfbInterceptor.Server

section Refusals

variable {engine : ClippingEngine}

theorem connected_of_full (hfiled : Filed engine) (hcount : engine.sources.count ≤ MaximumSources)
    (hfull : engine.tryMakeSourceRoom.1 = false) :
    MaximumSources ≤ engine.sources.count ∧ ∀ source ∈ engine.sources.values, source.connected = true := by
  unfold ClippingEngine.tryMakeSourceRoom at hfull
  split at hfull
  · cases hfull
  · rename_i hnot
    refine ⟨Nat.not_lt.mp hnot, ?_⟩
    cases hcandidate : engine.evictionCandidate with
    | none =>
      intro source hsource
      have hnil := List.argmin_eq_none.mp hcandidate
      rw [List.filter_eq_nil_iff] at hnil
      simpa using hnil source hsource
    | some candidate =>
      -- the candidate is tracked, so that its eviction makes room
      exfalso
      have hmem := (List.mem_filter.mp (List.argmin_mem (Option.mem_def.mpr hcandidate))).1
      obtain ⟨⟨key, value⟩, hentry, rfl⟩ := List.mem_map.mp hmem
      have hfind := Dictionary.find?_eq_some_iff.mpr hentry
      have hkey := hfiled key value hfind
      have hless : (engine.sources.remove value.identity.key).count < engine.sources.count := by
        refine Dictionary.count_remove_lt ?_
        rw [hkey, Dictionary.contains, hfind, Option.isSome_some]
      simp only [hcandidate, decide_eq_false_iff_not] at hfull
      exact hfull (hless.trans_le hcount)

variable {sine : Sine} {settings : DetectorSettings}

theorem NeverRefused.init {calls : List Call} {call : Call}
    (h : NeverRefused sine settings (calls ++ [call])) : NeverRefused sine settings calls := by
  rintro before other later rfl
  refine h before other (later ++ [call]) ?_
  rw [List.append_assoc, List.cons_append]

theorem sourceStateDrops_of_neverRefused {calls : List Call} (h : NeverRefused sine settings calls) :
    (ClippingEngine.after sine settings calls).sourceStateDrops = 0 := by
  induction calls using List.reverseRecOn with
  | nil => rfl
  | append_singleton calls call ih =>
    rw [after_concat]
    cases sourceStateDrops_step_cases sine (ClippingEngine.after sine settings calls) call with
    | inl hkept => exact hkept.trans (ih h.init)
    | inr hcounted =>
      obtain ⟨-, identity, connectionId, now, hcall, hnone, hfull⟩ := hcounted
      have hconnected := connected_of_full (filed_after calls) (withinLimits_after calls).count hfull
      exact absurd ⟨identity, connectionId, now, hcall, hnone, hconnected⟩ (h calls call [] rfl)

end Refusals

section Snapshots

variable {sine : Sine} {settings : DetectorSettings}

/-- A tick leaves an unreliable source without a ratio. -/
theorem clipRatio_tick {s : SourceState} {now : ℚ} {settings : NormalizedSettings}
    (h : (s.tick now settings sine).2.estimateReliable = false) :
    (s.tick now settings sine).2.clipRatio = 0 := by
  cases hreliable : (s.evaluateEffects sine now).estimateReliable with
  | false => simp [SourceState.tick, hreliable, SourceState.suspend]
  | true =>
    exfalso
    obtain ⟨isClipping, atLimit, clipRatio, sampling, htick⟩ := s.tick_evaluates now settings sine
    have hkept : (s.tick now settings sine).2.estimateReliable =
        (s.evaluateEffects sine now).estimateReliable := by
      rw [htick]
      rfl
    rw [hkept, hreliable] at h
    cases h

/-- As long as no source has been refused, an unreliable snapshot carries no evidence. -/
theorem unreliable_without_evidence (calls : List Call) (now : ℚ)
    (hnever : NeverRefused sine settings (calls ++ [.tick now]))
    (hunreliable : (ClippingEngine.snapshotAfter sine settings calls now).dataReliable = false) :
    let snapshot := ClippingEngine.snapshotAfter sine settings calls now
    snapshot.isClipping = false ∧ snapshot.atLimit = false ∧ snapshot.clipRatio = 0 := by
  intro snapshot
  have hsnapshot : snapshot = _ := snapshotAfter_eq calls now
  have hdrops := sourceStateDrops_of_neverRefused hnever
  rw [snapshotAfter_eq] at hunreliable
  rw [hsnapshot]
  cases hselected : (ClippingEngine.after sine settings (calls ++ [.tick now])).selectSource with
  | none =>
    simp only [ClippingEngine.buildSnapshot, hselected, ClippingEngine.unselectedSnapshot,
      ClippingEngine.baseSnapshot, and_self]
  | some source =>
    have hsource : source.estimateReliable = false := by
      simpa only [ClippingEngine.buildSnapshot, hselected, ClippingEngine.selectedSnapshot, hdrops,
        decide_true, Bool.true_and] using hunreliable
    obtain ⟨key, hkey⟩ := mem_connectedSources (mem_of_selectSource hselected)
    rw [after_concat, ClippingEngine.step, find?_tick, Option.map_eq_some_iff] at hkey
    obtain ⟨before, -, rfl⟩ := hkey
    simp only [ClippingEngine.buildSnapshot, hselected, ClippingEngine.selectedSnapshot, hsource,
      Bool.and_false, Bool.false_and, clipRatio_tick hsource, and_self]

/-- A session that comes again is unreliable. -/
theorem unreliable_without_evidence_sample :
    let snapshot := ClippingEngine.snapshotAfter flat {} [.connect (sampleIdentity 1) 1 0,
      .disconnect (sampleIdentity 1).key 1 1, .connect (sampleIdentity 1) 2 2] 3
    snapshot.isClipping = false ∧ snapshot.atLimit = false ∧ snapshot.clipRatio = 0 :=
  unreliable_without_evidence _ 3 (neverRefused_of_sourceStateDrops (by decide +kernel))
    (by decide +kernel)

/-- Of 64 sources the first is at its limit for 100 ms, before another one is refused. -/
def refusedRun : List Call :=
  (List.range 64).map (fun i => .connect (sampleIdentity (i + 1).toUInt32) 1 i) ++
    [.processFrame (sampleIdentity 1).key { sampleFrame .effectCreated with
        processId := 1, effectKind := .constant, magnitude := 10000, gain := 10000,
        duration := 1000000 } 100,
      .processFrame (sampleIdentity 1).key { sampleFrame .effectCommand with
        processId := 1, effectCommand := some .start, iterations := 1 } 100,
      .tick 100, .tick 200, .connect (sampleIdentity 65) 1 200]

/-- The snapshot is unreliable and shows the ratio of the last second. -/
theorem refused_source_leaves_ratio :
    (ClippingEngine.snapshotAfter flat {} refusedRun 200).dataReliable = false ∧
      (ClippingEngine.snapshotAfter flat {} refusedRun 200).clipRatio = 1 / 10 := by
  decide +kernel

end Snapshots

end FfbInterceptor.Engine
