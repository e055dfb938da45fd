import FfbInterceptor.Engine.FailClosed

/-! A session that comes back: the flag of its disconnect keeps it unreliable, until its source
gives way to another one and the flag is lost with it. -/
namespace FfbInterceptor.Engine
open FfbInterceptor.Library FfbInterceptor.Protocol FfbInterceptor.Server
variable {sine : Sine} {settings : DetectorSettings}

section Kept

variable (sine settings) in
def NeverEvicted (calls later : List Call) (key : SourceKey) : Prop :=
  ∀ part call rest, later = part ++ call :: rest →
    ¬ Evicts (ClippingEngine.after sine settings (calls ++ part)) key call

theorem NeverEvicted.tail {calls later : List Call} {call : Call} {key : SourceKey}
    (h : NeverEvicted sine settings calls (call :: later) key) :
    NeverEvicted sine settings (calls ++ [call]) later key := by
  rintro part next rest rfl
  rw [List.append_assoc]
  exact h (call :: part) next rest rfl

theorem NeverEvicted.concat_tick {calls later : List Call} {key : SourceKey}
    (h : NeverEvicted sine settings calls later key) (now : ℚ) :
    NeverEvicted sine settings calls (later ++ [.tick now]) key := by
  intro part call rest hsplit
  cases List.eq_nil_or_concat rest with
  | inl hrest =>
    have hcall : Call.tick now = call := by
      rw [hrest] at hsplit
      exact (List.append_inj' hsplit rfl).2 |> List.singleton_inj.mp
    rw [← hcall]
    rintro ⟨identity, connectionId, at', candidate, hconnect, -⟩
    cases hconnect
  | inr hrest =>
    obtain ⟨front, last, rfl⟩ := hrest
    rw [List.concat_eq_append, ← List.cons_append, ← List.append_assoc] at hsplit
    exact h part call front (List.append_inj' hsplit rfl).1

theorem NeverEvicted.trackedThrough {calls later : List Call} {key : SourceKey} {s : SourceState}
    (h : NeverEvicted sine settings calls later key)
    (hs : (ClippingEngine.after sine settings calls).sources.find? key = some s) :
    TrackedThrough sine settings calls later key := by
  induction later generalizing calls s with
  | nil =>
    intro part hpart
    rw [List.prefix_nil.mp hpart, List.append_nil, Dictionary.contains, hs, Option.isSome_some]
  | cons call later ih =>
    intro part hpart
    cases part with
    | nil => rw [List.append_nil, Dictionary.contains, hs, Option.isSome_some]
    | cons first part =>
      obtain ⟨rfl, htail⟩ := List.cons_prefix_cons.mp hpart
      cases find?_step_of_some sine hs first with
      | inl hsome =>
        rw [← after_concat] at hsome
        have htracked := ih h.tail hsome part htail
        rw [List.append_assoc, List.singleton_append] at htracked
        exact htracked
      | inr hevicted =>
        have hkept := h [] first later rfl
        rw [List.append_nil] at hkept
        exact absurd hevicted.1 hkept

end Kept

section Reconnects

/-- The source whose last connection is gone is unreliable at every later moment of its life. -/
theorem issues_after_disconnect {calls later : List Call} {key : SourceKey} {connectionId : Guid}
    {time : ℚ} {s : SourceState}
    (htracked : (ClippingEngine.after sine settings calls).sources.find? key = some s)
    (hlast : s.connections.erase connectionId = [])
    (hkept : NeverEvicted sine settings (calls ++ [.disconnect key connectionId time]) later key) :
    ∃ s', (ClippingEngine.after sine settings
        (calls ++ [.disconnect key connectionId time] ++ later)).sources.find? key = some s' ∧
      s'.estimateReliable = false := by
  have hdisconnected : (ClippingEngine.after sine settings
      (calls ++ [.disconnect key connectionId time])).sources.find? key =
      some (s.call sine (ClippingEngine.after sine settings calls).settings key
        (.disconnect key connectionId time)) := by
    rw [after_concat]
    cases find?_step_of_some sine htracked (.disconnect key connectionId time) with
    | inl hsome => exact hsome
    | inr hevicted =>
      obtain ⟨⟨identity, connectionId', now, candidate, hconnect, -⟩, -⟩ := hevicted
      cases hconnect
  obtain ⟨s', hs', hissues⟩ := (hkept.trackedThrough hdisconnected).issues hdisconnected
  refine ⟨s', hs', ?_⟩
  rw [Bool.eq_false_iff]
  intro hreliable
  rw [((estimateReliable_iff s').mp hreliable).1] at hissues
  exact (Incident.disconnected time hlast).issues sine _ (within_none hissues)

/-- After its last connection is gone a key is never again shown as reliable and never counts as
clipping, as long as its source is not evicted. -/
theorem reconnect_unreliable (calls later : List Call) (key : SourceKey) (connectionId : Guid)
    (time : ℚ) (s : SourceState)
    (htracked : (ClippingEngine.after sine settings calls).sources.find? key = some s)
    (hlast : s.connections.erase connectionId = [])
    (hkept : NeverEvicted sine settings (calls ++ [.disconnect key connectionId time]) later key)
    (now : ℚ) :
    let run := calls ++ [.disconnect key connectionId time] ++ later
    let engine := ClippingEngine.after sine settings (run ++ [.tick now])
    let snapshot := ClippingEngine.snapshotAfter sine settings run now
    (∀ source, engine.selectSource = some source → source.identity.key = key →
      snapshot.dataReliable = false) ∧
    (snapshot.anyClipping = true → ∃ source ∈ engine.connectedSources, source.identity.key ≠ key ∧
      source.estimateReliable = true ∧ source.isClipping = true) := by
  intro run engine snapshot
  have hsnapshot : snapshot = engine.buildSnapshot := snapshotAfter_eq run now
  obtain ⟨s', hs', hunreliable⟩ := issues_after_disconnect htracked hlast (hkept.concat_tick now)
  have hengine : engine.sources.find? key = some s' := by
    rw [← List.append_assoc] at hs'
    exact hs'
  have hsame : ∀ source ∈ engine.connectedSources, source.identity.key = key → source = s' := by
    intro source hsource hkey
    obtain ⟨filed, hfiled⟩ := mem_connectedSources hsource
    rw [← filed_after _ filed source hfiled, hkey, hengine] at hfiled
    exact (Option.some.inj hfiled).symm
  constructor
  · intro source hselected hkey
    have hsource := hsame source (mem_of_selectSource hselected) hkey
    simp only [hsnapshot, ClippingEngine.buildSnapshot, hselected, ClippingEngine.selectedSnapshot,
      hsource, hunreliable, Bool.and_false]
  · intro hany
    rw [hsnapshot] at hany
    obtain ⟨-, source, hsource, hreliable, hclipping⟩ := (anyClipping_buildSnapshot engine).mp hany
    refine ⟨source, hsource, ?_, hreliable, hclipping⟩
    intro hkey
    rw [hsame source hsource hkey, hunreliable] at hreliable
    cases hreliable

end Reconnects

section Samples

def sampleIdentity (processId : UInt32) : SourceIdentity := ⟨⟨processId, ""⟩, "", "", 64⟩

/-- Process 1 comes, goes and comes again. -/
theorem reconnect_unreliable_sample :
    (ClippingEngine.snapshotAfter flat {} [.connect (sampleIdentity 1) 1 0,
      .disconnect (sampleIdentity 1).key 1 1, .connect (sampleIdentity 1) 2 2] 3).dataReliable =
        false := by
  have hkept : NeverEvicted flat {} [.connect (sampleIdentity 1) 1 0,
      .disconnect (sampleIdentity 1).key 1 1] [.connect (sampleIdentity 1) 2 2]
      (sampleIdentity 1).key := by
    intro part call rest hsplit
    cases part with
    | nil =>
      obtain ⟨rfl, -⟩ := List.cons.inj hsplit
      rintro ⟨identity, connectionId, now, candidate, hconnect, huntracked, -⟩
      cases hconnect
      exact absurd huntracked (by decide +kernel)
    | cons first part => simp at hsplit
  exact (reconnect_unreliable [.connect (sampleIdentity 1) 1 0] [.connect (sampleIdentity 1) 2 2]
    (sampleIdentity 1).key 1 1 _ rfl (by decide) hkept 3).1 _ rfl rfl

/-- Process 1 comes and goes, 64 others fill its place, one of them goes, process 1 comes again. -/
def evictedRun : List Call :=
  [.connect (sampleIdentity 1) 1 0, .disconnect (sampleIdentity 1).key 1 1] ++
    (List.range 64).map (fun i => .connect (sampleIdentity (i + 2).toUInt32) 1 (i + 2)) ++
    [.disconnect (sampleIdentity 2).key 1 100, .connect (sampleIdentity 1) 2 200]

/-- With its source evicted in between the session is reliable again. -/
theorem evicted_session_is_reliable :
    ((ClippingEngine.after flat {} (evictedRun.take 2)).sources.find? (sampleIdentity 1).key).map
        SourceState.connections = some [] ∧
      (ClippingEngine.snapshotAfter flat {} evictedRun 300).selectedProcessId = 1 ∧
      (ClippingEngine.snapshotAfter flat {} evictedRun 300).selectedSessionId = "" ∧
      (ClippingEngine.snapshotAfter flat {} evictedRun 300).dataReliable = true := by
  decide +kernel

end Samples

end FfbInterceptor.Engine
