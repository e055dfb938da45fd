import FfbInterceptor.Engine.Transitions

/-! The transitions of a source's connections: they alternate as long as no disconnect reaches a
source that has no connection left. -/
namespace FfbInterceptor.Engine
open FfbInterceptor.Library FfbInterceptor.Protocol FfbInterceptor.Server

/-- What a transition does to the episodes of a source being connected. -/
def DetectorTransitionKind.connectionRole : DetectorTransitionKind → Role
  | .sourceConnected => .opens
  | .sourceDisconnected => .closes
  | .clippingStarted | .clippingEnded => .outside

def connectionsOf (key : SourceKey) (transitions : List DetectorTransition) :
    List DetectorTransitionKind :=
  (kindsOf key transitions).filter fun kind => kind.connectionRole ≠ .outside

/-- No kind twice in a row, a connection first. -/
def Alternates (kinds : List DetectorTransitionKind) : Prop :=
  kinds.IsChain (· ≠ ·) ∧ ∀ first ∈ kinds.head?, first = .sourceConnected

/-- The call is a disconnect, and the source of its key has no connection left. -/
def Stray (engine : ClippingEngine) (key : SourceKey) (call : Call) : Prop :=
  ∃ connectionId now source, call = .disconnect key connectionId now ∧
    engine.sources.find? key = some source ∧ source.connected = false

/-- Every connection id is connected once, and disconnected at most once later, for its key. -/
def ConnectOnce (used : List Guid) (live : List (SourceKey × Guid)) : List Call → Bool
  | [] => true
  | .connect identity connectionId _ :: calls =>
    connectionId ∉ used && ConnectOnce (connectionId :: used) ((identity.key, connectionId) :: live) calls
  | .disconnect key connectionId _ :: calls =>
    (key, connectionId) ∈ live && ConnectOnce used (live.erase (key, connectionId)) calls
  | _ :: calls => ConnectOnce used live calls

section Kinds
variable {key : SourceKey} {transitions : List DetectorTransition}

theorem connectionsOf_append (first second : List DetectorTransition) :
    connectionsOf key (first ++ second) = connectionsOf key first ++ connectionsOf key second := by
  simp only [connectionsOf, kindsOf_append, List.filter_append]

theorem connectionsOf_of_ne (h : ∀ transition ∈ transitions, transition.source ≠ key) :
    connectionsOf key transitions = [] := by
  rw [connectionsOf, kindsOf_of_ne h, List.filter_nil]

theorem connectionsOf_of_clipping
    (h : ∀ transition ∈ transitions, transition.kind.connectionRole = .outside) :
    connectionsOf key transitions = [] := by
  rw [connectionsOf, List.filter_eq_nil_iff]
  intro kind hkind
  obtain ⟨transition, hmem, rfl⟩ := List.mem_map.mp hkind
  simp [h transition (List.mem_of_mem_filter hmem)]

theorem connectionsOf_single (kind : DetectorTransitionKind) (h : kind.connectionRole ≠ .outside)
    (now : ℚ) : connectionsOf key [⟨kind, key, now⟩] = [kind] := by
  rw [connectionsOf, kindsOf_single, List.filter_cons_of_pos (by simpa using h), List.filter_nil]

theorem connectionRole_eq_iff {a b : DetectorTransitionKind} (ha : a.connectionRole ≠ .outside)
    (hb : b.connectionRole ≠ .outside) : a.connectionRole = b.connectionRole ↔ a = b := by
  cases a <;> cases b <;> simp_all [DetectorTransitionKind.connectionRole]

theorem alternates_iff_track (transitions : List DetectorTransition) :
    Alternates (connectionsOf key transitions) ↔
      (track DetectorTransitionKind.connectionRole false (connectionsOf key transitions)).isSome := by
  have hborder : ∀ kind ∈ connectionsOf key transitions, kind.connectionRole ≠ .outside := by
    intro kind hkind
    simpa using List.of_mem_filter hkind
  rw [isSome_track_iff hborder, Alternates]
  refine and_congr ?_ (forall₂_congr fun first hfirst => ?_)
  · refine List.IsChain.iff_of_mem_imp fun a b ha hb => ?_
    exact not_congr (connectionRole_eq_iff (hborder a ha) (hborder b hb)).symm
  · have hkind := hborder first (List.mem_of_mem_head? hfirst)
    rw [if_neg Bool.false_ne_true]
    exact (connectionRole_eq_iff hkind (b := .sourceConnected) nofun).symm

end Kinds

section Calls
variable {sine : Sine} {engine : ClippingEngine} {key : SourceKey}

/-- A key that is not tracked is not connected. -/
def ClippingEngine.isConnected (engine : ClippingEngine) (key : SourceKey) : Bool :=
  (engine.sources.find? key).any SourceState.connected

theorem isConnected_of_find? {source : SourceState} (h : engine.sources.find? key = some source) :
    engine.isConnected key = source.connected := by
  rw [ClippingEngine.isConnected, h, Option.any_some]

theorem isConnected_of_none (h : engine.sources.find? key = none) : engine.isConnected key = false := by
  rw [ClippingEngine.isConnected, h, Option.any_none]

theorem isConnected_connect_of_ne (hfiled : Filed engine) {identity : SourceIdentity}
    (hkey : identity.key ≠ key) (connectionId : Guid) (now : ℚ) :
    (engine.step sine (.connect identity connectionId now)).isConnected key = engine.isConnected key := by
  cases hbefore : engine.sources.find? key with
  | none =>
    cases find?_step_of_none sine hbefore (.connect identity connectionId now) with
    | inl hnone => rw [isConnected_of_none hnone, isConnected_of_none hbefore]
    | inr hnew =>
      obtain ⟨identity', connectionId', now', hcall, hkey', -⟩ := hnew
      cases hcall
      exact absurd hkey' hkey
  | some source =>
    rw [isConnected_of_find? hbefore]
    cases find?_step_of_some sine hbefore (.connect identity connectionId now) with
    | inl hsome => rw [isConnected_of_find? hsome, SourceState.call, if_neg hkey]
    | inr hevicted =>
      obtain ⟨hevicts, hnone⟩ := hevicted
      rw [isConnected_of_none hnone, eq_comm, Bool.eq_false_iff]
      intro hconnected
      exact connected_not_evicted hfiled hbefore hconnected _ hevicts

theorem track_connect (hfiled : Filed engine) (identity : SourceIdentity) (connectionId : Guid)
    (now : ℚ) :
    track DetectorTransitionKind.connectionRole (engine.isConnected key)
        (connectionsOf key (engine.produced sine (.connect identity connectionId now))) =
      some ((engine.step sine (.connect identity connectionId now)).isConnected key) := by
  by_cases hkey : identity.key = key
  · subst hkey
    cases hs : engine.sources.find? identity.key with
    | none =>
      rw [isConnected_of_none hs]
      have hsources := sources_connect_of_none hs connectionId now
      simp only [ClippingEngine.produced, hs, ClippingEngine.step]
      cases hroom : engine.tryMakeSourceRoom.1 with
      | false =>
        have hrefused : (engine.connect identity connectionId now).sources.find? identity.key = none := by
          rw [hsources, hroom, if_neg Bool.false_ne_true]
          cases sources_tryMakeSourceRoom engine identity.key with
          | inl hkept => exact hkept.trans hs
          | inr hevicted =>
            obtain ⟨-, candidate, -, -, hnone⟩ := hevicted
            exact hnone
        rw [isConnected_of_none hrefused]
        rfl
      | true =>
        have hadmitted := congrArg (fun sources => sources.find? identity.key) hsources
        simp only [hroom, if_true, Dictionary.find?_set_self] at hadmitted
        rw [isConnected_of_find? hadmitted, connected_connect, if_pos rfl,
          connectionsOf_single .sourceConnected (by decide)]
        rfl
    | some source =>
      have hjoined : (engine.step sine (.connect identity connectionId now)).sources.find?
          identity.key = some (source.connect identity connectionId now) := by
        rw [ClippingEngine.step, sources_connect_of_some hs, Dictionary.find?_set_self]
      rw [isConnected_of_find? hs, isConnected_of_find? hjoined, connected_connect]
      simp only [ClippingEngine.produced, hs]
      cases source.connected with
      | true => rfl
      | false =>
        rw [if_neg Bool.false_ne_true, connectionsOf_single .sourceConnected (by decide)]
        rfl
  · rw [isConnected_connect_of_ne hfiled hkey, connectionsOf_of_ne, track_nil]
    intro transition hmem
    simp only [ClippingEngine.produced] at hmem
    split at hmem
    · split at hmem
      · cases hmem
      · rw [List.mem_singleton.mp hmem]
        exact hkey
    · split at hmem
      · rw [List.mem_singleton.mp hmem]
        exact hkey
      · cases hmem

theorem isConnected_step {call : Call}
    (hcall : ∀ identity connectionId now, call ≠ .connect identity connectionId now) :
    (engine.step sine call).isConnected key = (engine.sources.find? key).any fun s =>
      (s.call sine engine.settings key call).connected := by
  cases hbefore : engine.sources.find? key with
  | none =>
    cases find?_step_of_none sine hbefore call with
    | inl hnone => exact isConnected_of_none hnone
    | inr hnew =>
      obtain ⟨identity, connectionId, now, hconnect, -⟩ := hnew
      exact absurd hconnect (hcall identity connectionId now)
  | some s =>
    cases find?_step_of_some sine hbefore call with
    | inl hsome => exact isConnected_of_find? hsome
    | inr hevicted =>
      obtain ⟨⟨identity, connectionId, now, -, hconnect, -⟩, -⟩ := hevicted
      exact absurd hconnect (hcall identity connectionId now)

theorem connectionsOf_disconnect {source : SourceState} (hs : engine.sources.find? key = some source)
    (connectionId : Guid) (now : ℚ) :
    connectionsOf key (engine.produced sine (.disconnect key connectionId now)) =
      if (source.disconnect connectionId now).connected then [] else [.sourceDisconnected] := by
  simp only [ClippingEngine.produced, hs]
  cases (source.disconnect connectionId now).connected with
  | true => rfl
  | false =>
    rw [if_neg Bool.false_ne_true, if_neg Bool.false_ne_true, connectionsOf_append,
      connectionsOf_single .sourceDisconnected (by decide), connectionsOf_of_clipping, List.nil_append]
    intro transition hmem
    split at hmem
    · rw [List.mem_singleton.mp hmem]
      rfl
    · cases hmem

theorem track_disconnect_self {source : SourceState} (hs : engine.sources.find? key = some source)
    (hconnected : source.connected = true) (connectionId : Guid) (now : ℚ) :
    track DetectorTransitionKind.connectionRole (engine.isConnected key)
        (connectionsOf key (engine.produced sine (.disconnect key connectionId now))) =
      some ((engine.step sine (.disconnect key connectionId now)).isConnected key) := by
  rw [isConnected_step (by intro _ _ _ h; cases h), hs, Option.any_some, SourceState.call, if_pos rfl,
    isConnected_of_find? hs, hconnected, connectionsOf_disconnect hs]
  cases (source.disconnect connectionId now).connected with
  | true => rfl
  | false => rfl

theorem connectionRole_tick (s : SourceState) (now : ℚ) (settings : NormalizedSettings) :
    ∀ kind ∈ (s.tick now settings sine).1, kind.connectionRole = .outside := by
  intro kind hkind
  simp only [SourceState.tick, SourceState.detect, SourceState.suspend] at hkind
  split at hkind
  · split at hkind
    · obtain rfl := Option.mem_some.mp hkind
      rfl
    · split at hkind
      · obtain rfl := Option.mem_some.mp hkind
        rfl
      · cases hkind
  · split at hkind
    · obtain rfl := Option.mem_some.mp hkind
      rfl
    · cases hkind

theorem connected_call (settings : NormalizedSettings) (s : SourceState) {call : Call}
    (hconnect : ∀ identity connectionId now, call ≠ .connect identity connectionId now)
    (hdisconnect : ∀ connectionId now, call ≠ .disconnect key connectionId now) :
    (s.call sine settings key call).connected = s.connected := by
  cases call with
  | connect identity connectionId now => exact absurd rfl (hconnect identity connectionId now)
  | disconnect key' connectionId now =>
    have hkey : key' ≠ key := by
      intro hkey
      subst hkey
      exact hdisconnect connectionId now rfl
    rw [SourceState.call, if_neg hkey]
  | processFrame key' frame now =>
    rw [SourceState.call]
    split
    · exact connected_continues (continues_receive frame now s)
    · rfl
  | tick now => exact connected_continues (continues_tick now s settings sine)
  | resetPeak | reportProtocolError | updateSettings settings | tryDequeueTransition => rfl

theorem connectionsOf_produced {call : Call}
    (hconnect : ∀ identity connectionId now, call ≠ .connect identity connectionId now)
    (hdisconnect : ∀ connectionId now, call ≠ .disconnect key connectionId now) :
    connectionsOf key (engine.produced sine call) = [] := by
  cases call with
  | connect identity connectionId now => exact absurd rfl (hconnect identity connectionId now)
  | disconnect key' connectionId now =>
    have hkey : key' ≠ key := by
      intro hkey
      subst hkey
      exact hdisconnect connectionId now rfl
    apply connectionsOf_of_ne
    intro transition hmem
    simp only [ClippingEngine.produced] at hmem
    split at hmem
    · cases hmem
    · split at hmem
      · cases hmem
      · rcases List.mem_append.mp hmem with hmem | hmem
        · split at hmem
          · rw [List.mem_singleton.mp hmem]
            exact hkey
          · cases hmem
        · rw [List.mem_singleton.mp hmem]
          exact hkey
  | processFrame key' frame now =>
    apply connectionsOf_of_clipping
    intro transition hmem
    simp only [ClippingEngine.produced] at hmem
    split at hmem
    · cases hmem
    · split at hmem
      · cases hmem
      · split at hmem
        · cases hmem
        · split at hmem
          · rw [List.mem_singleton.mp hmem]
            rfl
          · cases hmem
  | tick now =>
    apply connectionsOf_of_clipping
    intro transition hmem
    obtain ⟨key', -, hproduced⟩ := List.mem_flatMap.mp hmem
    simp only [ClippingEngine.producedByTick] at hproduced
    split at hproduced
    · cases hproduced
    · next source _ =>
      obtain ⟨kind, hkind, rfl⟩ := List.mem_map.mp hproduced
      exact connectionRole_tick source now engine.settings kind (Option.mem_toList.mp hkind)
  | resetPeak | reportProtocolError | updateSettings settings | tryDequeueTransition => rfl

/-- Unless the call is stray its transitions lead from what the source was to what it is. -/
theorem track_connections (hfiled : Filed engine) {call : Call} (hstray : ¬ Stray engine key call) :
    track DetectorTransitionKind.connectionRole (engine.isConnected key)
        (connectionsOf key (engine.produced sine call)) =
      some ((engine.step sine call).isConnected key) := by
  by_cases hconnect : ∃ identity connectionId now, call = .connect identity connectionId now
  · obtain ⟨identity, connectionId, now, rfl⟩ := hconnect
    exact track_connect hfiled identity connectionId now
  · simp only [not_exists] at hconnect
    cases hs : engine.sources.find? key with
    | none =>
      rw [isConnected_step hconnect, hs, Option.any_none, isConnected_of_none hs]
      by_cases hdisconnect : ∃ connectionId now, call = .disconnect key connectionId now
      · obtain ⟨connectionId, now, rfl⟩ := hdisconnect
        simp only [ClippingEngine.produced, hs]
        rfl
      · simp only [not_exists] at hdisconnect
        rw [connectionsOf_produced hconnect hdisconnect, track_nil]
    | some source =>
      by_cases hdisconnect : ∃ connectionId now, call = .disconnect key connectionId now
      · obtain ⟨connectionId, now, rfl⟩ := hdisconnect
        have hconnected : source.connected = true := by
          rw [← Bool.not_eq_false]
          intro hgone
          exact hstray ⟨connectionId, now, source, rfl, hs, hgone⟩
        exact track_disconnect_self hs hconnected connectionId now
      · simp only [not_exists] at hdisconnect
        rw [isConnected_step hconnect, hs, Option.any_some, connected_call _ _ hconnect hdisconnect,
          connectionsOf_produced hconnect hdisconnect, isConnected_of_find? hs, track_nil]

/-- A stray call reports the end of a connection that is not there. -/
theorem track_stray {call : Call} (hstray : Stray engine key call) :
    track DetectorTransitionKind.connectionRole (engine.isConnected key)
      (connectionsOf key (engine.produced sine call)) = none := by
  obtain ⟨connectionId, now, source, rfl, hs, hgone⟩ := hstray
  have hstill : (source.disconnect connectionId now).connected = false := by
    have hempty : source.connections = [] := by
      simpa [SourceState.connected] using hgone
    simp only [SourceState.disconnect, SourceState.connected, hempty, List.erase_nil]
    rfl
  rw [connectionsOf_disconnect hs, hstill, isConnected_of_find? hs, hgone]
  rfl

/-- Along a run the transitions can be tracked exactly as long as no call is stray. -/
theorem isSome_track_run (hfiled : Filed engine) (calls : List Call) :
    (track DetectorTransitionKind.connectionRole (engine.isConnected key)
        (connectionsOf key (engine.producedIn sine calls))).isSome ↔
      Runs.Throughout (ClippingEngine.step sine) (fun engine call => ¬ Stray engine key call)
        engine calls := by
  induction calls generalizing engine with
  | nil =>
    simp only [ClippingEngine.producedIn]
    exact iff_of_true rfl fun before call after hsplit => absurd hsplit (by simp)
  | cons call calls ih =>
    rw [ClippingEngine.producedIn, connectionsOf_append, track_append, Runs.throughout_cons,
      ← ih (hfiled.step call)]
    by_cases hstray : Stray engine key call
    · rw [track_stray hstray, Option.bind_none]
      simp [hstray]
    · rw [track_connections hfiled hstray, Option.bind_some]
      simp [hstray]

end Calls

section Alternation

/-- The connection transitions of a key alternate, a connection first, exactly when no disconnect
reaches a source of the key that has no connection left. -/
theorem connections_alternate_iff (sine : Sine) (settings : DetectorSettings) (calls : List Call)
    (key : SourceKey) :
    Alternates (connectionsOf key ((ClippingEngine.new settings).producedIn sine calls)) ↔
      ∀ before call after, calls = before ++ call :: after →
        ¬ Stray (ClippingEngine.after sine settings before) key call := by
  rw [alternates_iff_track]
  have hfiled : Filed (ClippingEngine.new settings) := by
    intro key s hs
    cases hs
  exact isSome_track_run hfiled calls

def crowdIdentity (processId : UInt32) : SourceIdentity := ⟨⟨processId, ""⟩, "", "", 64⟩

/-- A crowd of 64 leaves no room for process 100, whose refused connection 100 outlives the
admitted connection 101. -/
def refusedConnection : List Call :=
  (List.range 64).map (fun i => .connect (crowdIdentity (.ofNat i)) (.ofNat 128 i) 0) ++
    [.connect (crowdIdentity 100) 100 1, .disconnect (crowdIdentity 0).key 0 2,
      .connect (crowdIdentity 100) 101 3, .disconnect (crowdIdentity 100).key 101 4,
      .disconnect (crowdIdentity 100).key 100 5]

theorem refused_connection_ends_twice :
    ConnectOnce [] [] refusedConnection = true ∧
      connectionsOf (crowdIdentity 100).key
          ((ClippingEngine.new {}).producedIn flat refusedConnection) =
        [.sourceConnected, .sourceDisconnected, .sourceDisconnected] ∧
      ¬ Alternates (connectionsOf (crowdIdentity 100).key
          ((ClippingEngine.new {}).producedIn flat refusedConnection)) := by
  have hkinds : connectionsOf (crowdIdentity 100).key
      ((ClippingEngine.new {}).producedIn flat refusedConnection) =
        [.sourceConnected, .sourceDisconnected, .sourceDisconnected] := by decide +kernel
  refine ⟨by decide +kernel, hkinds, ?_⟩
  rw [hkinds]
  rintro ⟨hturns, -⟩
  simp at hturns

end Alternation

end FfbInterceptor.Engine
