import FfbInterceptor.Library.Episodes
import FfbInterceptor.Engine.Capacity
import FfbInterceptor.Engine.Hysteresis

/-! The transitions that calls produce, before the queue sheds any: clipping begins and ends in
turns, and has ended when a source is disconnected. -/
namespace FfbInterceptor.Engine
open FfbInterceptor.Library FfbInterceptor.Protocol FfbInterceptor.Server

section Produced
variable (sine : Sine)

namespace ClippingEngine

/-- The transition of one round of the loop of a tick. -/
def producedByTick (engine : ClippingEngine) (now : ℚ) (key : SourceKey) : List DetectorTransition :=
  match engine.sources.find? key with
  | none => []
  | some source =>
    (source.tick now engine.settings sine).1.toList.map fun kind => ⟨kind, source.identity.key, now⟩

/-- What a call hands to `EnqueueTransition`, in order. -/
def produced (engine : ClippingEngine) : Call → List DetectorTransition
  | .connect identity _ now =>
    match engine.sources.find? identity.key with
    | some source => if source.connected then [] else [⟨.sourceConnected, identity.key, now⟩]
    | none =>
      if engine.tryMakeSourceRoom.1 then [⟨.sourceConnected, identity.key, now⟩] else []
  | .disconnect key connectionId now =>
    match engine.sources.find? key with
    | none => []
    | some source =>
      if (source.disconnect connectionId now).connected then []
      else
        (if source.isClipping then [⟨.clippingEnded, key, now⟩] else []) ++
          [⟨.sourceDisconnected, key, now⟩]
  | .processFrame key frame now =>
    match engine.sources.find? key with
    | none => []
    | some source =>
      if !source.connected then []
      else if frame.processId ≠ key.processId then []
      else if source.isClipping && !(source.receive frame now).isClipping then
        [⟨.clippingEnded, key, now⟩]
      else []
  | .tick now => engine.sources.keys.flatMap (producedByTick sine engine now)
  | .reportProtocolError | .updateSettings _ | .resetPeak | .tryDequeueTransition => []

/-- The queue a call finds, one less when it takes one. -/
def dequeued (engine : ClippingEngine) : Call → List DetectorTransition
  | .tryDequeueTransition => engine.transitions.tail
  | _ => engine.transitions

def producedIn (engine : ClippingEngine) : List Call → List DetectorTransition
  | [] => []
  | call :: calls => engine.produced sine call ++ producedIn (engine.step sine call) calls

end ClippingEngine

end Produced

section Queue
variable (sine : Sine) {engine : ClippingEngine}

def shed (transitions : List DetectorTransition) : List DetectorTransition :=
  transitions.take MaximumQueuedTransitions

theorem shed_append (first second : List DetectorTransition) :
    shed (shed first ++ second) = shed (first ++ second) := by
  unfold shed
  rw [List.take_append, List.take_append, List.take_take, Nat.min_self, List.length_take]
  congr 2
  omega

theorem shed_of_length {transitions : List DetectorTransition}
    (h : transitions.length ≤ MaximumQueuedTransitions) : shed transitions = transitions :=
  List.take_of_length_le h

theorem transitions_enqueue (h : engine.transitions.length ≤ MaximumQueuedTransitions)
    (transition : DetectorTransition) :
    (engine.enqueueTransition transition).transitions = shed (engine.transitions ++ [transition]) := by
  unfold ClippingEngine.enqueueTransition
  split
  · next hroom =>
    rw [shed_of_length]
    rw [List.length_append, List.length_singleton]
    exact hroom
  · next hfull =>
    rw [shed, List.take_append_of_le_length (Nat.not_lt.mp hfull), ← shed, shed_of_length h]

theorem transitions_enqueue_setSource (h : engine.transitions.length ≤ MaximumQueuedTransitions)
    (key : SourceKey) (source : SourceState) (transition : DetectorTransition) :
    ((engine.setSource key source).enqueueTransition transition).transitions =
      shed (engine.transitions ++ [transition]) := by
  have hset : (engine.setSource key source).transitions.length ≤ MaximumQueuedTransitions := h
  exact transitions_enqueue hset transition

theorem transitions_connectSource_eq (h : engine.transitions.length ≤ MaximumQueuedTransitions)
    (source : SourceState) (identity : SourceIdentity) (connectionId : Guid) (now : ℚ) :
    (engine.connectSource source identity connectionId now).transitions =
      shed (engine.transitions ++
        if source.connected then [] else [⟨.sourceConnected, identity.key, now⟩]) := by
  unfold ClippingEngine.connectSource
  simp only
  split
  · rw [List.append_nil, shed_of_length h]
    rfl
  · exact transitions_enqueue_setSource h _ _ _

theorem producedByTick_congr {engine' : ClippingEngine} {now : ℚ} {key : SourceKey}
    (hfind : engine'.sources.find? key = engine.sources.find? key)
    (hsettings : engine'.settings = engine.settings) :
    engine'.producedByTick sine now key = engine.producedByTick sine now key := by
  simp only [ClippingEngine.producedByTick, hfind, hsettings]

theorem transitions_tickSource_eq (h : engine.transitions.length ≤ MaximumQueuedTransitions) (now : ℚ)
    (key : SourceKey) : (ClippingEngine.tickSource sine now engine key).transitions =
      shed (engine.transitions ++ engine.producedByTick sine now key) := by
  unfold ClippingEngine.tickSource ClippingEngine.producedByTick
  cases engine.sources.find? key with
  | none =>
    rw [List.append_nil, shed_of_length h]
  | some source =>
    simp only
    cases (source.tick now engine.settings sine).1 with
    | none =>
      simp only [Option.toList_none, List.map_nil, List.append_nil]
      exact (shed_of_length h).symm
    | some kind => exact transitions_enqueue_setSource h _ _ _

theorem transitions_tickSources (h : engine.transitions.length ≤ MaximumQueuedTransitions) (now : ℚ)
    (keys : List SourceKey) (hkeys : keys.Nodup) :
    (keys.foldl (ClippingEngine.tickSource sine now) engine).transitions =
      shed (engine.transitions ++ keys.flatMap (engine.producedByTick sine now)) := by
  induction keys generalizing engine with
  | nil => rw [List.flatMap_nil, List.append_nil, shed_of_length h, List.foldl_nil]
  | cons first keys ih =>
    obtain ⟨hnew, hrest⟩ := List.nodup_cons.mp hkeys
    have hsame : ∀ key ∈ keys,
        (ClippingEngine.tickSource sine now engine first).producedByTick sine now key =
          engine.producedByTick sine now key := by
      intro key hkey
      obtain ⟨hfind, hsettings, -⟩ := find?_tickSources sine engine now [first]
        (List.nodup_singleton first)
      apply producedByTick_congr sine _ hsettings
      have hne : key ∉ [first] := by
        rintro hmem
        rw [List.mem_singleton.mp hmem] at hkey
        exact hnew hkey
      have hkept := hfind key
      simp only [hne, if_false] at hkept
      exact hkept.trans Option.map_id'
    rw [List.foldl_cons, ih (transitions_tickSource sine h now first) hrest, List.flatMap_cons,
      List.flatMap_congr hsame, transitions_tickSource_eq sine h, shed_append, List.append_assoc]

/-- The queue after a call is what it was, and what the call has produced, as far as there is room. -/
theorem transitions_step_eq (h : engine.transitions.length ≤ MaximumQueuedTransitions) (call : Call) :
    (engine.step sine call).transitions =
      shed (engine.dequeued call ++ engine.produced sine call) := by
  cases call with
  | connect identity connectionId now =>
    simp only [ClippingEngine.step, ClippingEngine.connect, ClippingEngine.dequeued,
      ClippingEngine.produced]
    cases engine.sources.find? identity.key with
    | some source => exact transitions_connectSource_eq h source identity connectionId now
    | none =>
      have hroom : engine.tryMakeSourceRoom.2.transitions = engine.transitions := by
        unfold ClippingEngine.tryMakeSourceRoom
        split
        · rfl
        · simp only
          split <;> rfl
      cases hready : engine.tryMakeSourceRoom with
      | mk ready after =>
        rw [hready] at hroom
        simp only at hroom
        rw [← hroom] at h ⊢
        cases ready with
        | false => simp only [Bool.false_eq_true, if_false, List.append_nil, shed_of_length h]
        | true => exact transitions_connectSource_eq h _ identity connectionId now
  | disconnect key connectionId now =>
    simp only [ClippingEngine.step, ClippingEngine.disconnect, ClippingEngine.dequeued,
      ClippingEngine.produced]
    cases engine.sources.find? key with
    | none => simp only [List.append_nil, shed_of_length h]
    | some source =>
      simp only
      split
      · rw [List.append_nil, shed_of_length h]
        rfl
      · have hset : (engine.setSource key (source.disconnect connectionId now)).transitions.length ≤
            MaximumQueuedTransitions := h
        split
        · rw [transitions_enqueue (transitions_enqueueTransition hset _), transitions_enqueue hset,
            shed_append, List.append_assoc]
          rfl
        · exact transitions_enqueue hset _
  | processFrame key frame now =>
    simp only [ClippingEngine.step, ClippingEngine.processFrame, ClippingEngine.dequeued,
      ClippingEngine.produced]
    cases engine.sources.find? key with
    | none => simp only [List.append_nil, shed_of_length h]
    | some source =>
      simp only
      split
      · rw [List.append_nil, shed_of_length h]
      · split
        · rw [List.append_nil, shed_of_length h]
        · split
          · exact transitions_enqueue_setSource h _ _ _
          · rw [List.append_nil, shed_of_length h]
            rfl
  | tick now => exact transitions_tickSources sine h now engine.sources.keys engine.sources.nodup
  | tryDequeueTransition =>
    simp only [ClippingEngine.step, ClippingEngine.tryDequeueTransition, ClippingEngine.dequeued,
      ClippingEngine.produced, List.append_nil]
    cases htransitions : engine.transitions with
    | nil => simp [htransitions, shed]
    | cons transition transitions =>
      rw [htransitions] at h
      rw [shed_of_length]
      · rfl
      · exact Nat.le_of_succ_le h
  | reportProtocolError | updateSettings settings | resetPeak =>
    simp only [ClippingEngine.dequeued, ClippingEngine.produced, List.append_nil, shed_of_length h]
    rfl

end Queue

theorem isClipping_receive (frame : ProtocolFrame) (now : ℚ) (s : SourceState)
    (h : (s.receive frame now).isClipping = true) : s.isClipping = true := by
  by_cases hnotice : frame.messageType = .dropNotice → frame.dropped.toNat ≤ s.droppedFrames
  · have hsame := sameDetector_apply { s with lastActivityMilliseconds := now } frame now hnotice
    exact hsame.isClipping.symm.trans h
  · obtain ⟨htype, hmore⟩ := not_forall.mp hnotice
    simp only [SourceState.receive, SourceState.apply, if_pos htype, SourceState.applyDropNotice,
      if_pos (Nat.not_le.mp hmore)] at h
    cases h

section Pairing

/-- What a transition does to the episodes of clipping of its source. -/
def DetectorTransitionKind.role : DetectorTransitionKind → Role
  | .clippingStarted => .opens
  | .clippingEnded => .closes
  | .sourceConnected | .sourceDisconnected => .outside

def kindsOf (key : SourceKey) (transitions : List DetectorTransition) : List DetectorTransitionKind :=
  (transitions.filter fun transition => transition.source = key).map DetectorTransition.kind

variable {sine : Sine} {settings : DetectorSettings} {engine : ClippingEngine} {key : SourceKey}

theorem kindsOf_append (first second : List DetectorTransition) :
    kindsOf key (first ++ second) = kindsOf key first ++ kindsOf key second := by
  rw [kindsOf, List.filter_append, List.map_append]
  rfl

theorem kindsOf_of_ne {transitions : List DetectorTransition}
    (h : ∀ transition ∈ transitions, transition.source ≠ key) : kindsOf key transitions = [] := by
  rw [kindsOf, List.filter_eq_nil_iff.mpr, List.map_nil]
  intro transition hmem
  simpa using h transition hmem

theorem kindsOf_single (kind : DetectorTransitionKind) (now : ℚ) :
    kindsOf key [⟨kind, key, now⟩] = [kind] := by
  simp [kindsOf]

/-- A key that is not tracked is not clipping. -/
def ClippingEngine.clipping (engine : ClippingEngine) (key : SourceKey) : Bool :=
  (engine.sources.find? key).any SourceState.isClipping

theorem clipping_of_find? {source : SourceState} (h : engine.sources.find? key = some source) :
    engine.clipping key = source.isClipping := by rw [ClippingEngine.clipping, h, Option.any_some]

/-- The transition of a tick says what the tick does. -/
theorem track_tick (s : SourceState) (now : ℚ) (settings : NormalizedSettings) :
    track DetectorTransitionKind.role s.isClipping (s.tick now settings sine).1.toList =
      some (s.tick now settings sine).2.isClipping := by
  have hsame : (s.evaluateEffects sine now).isClipping = s.isClipping := rfl
  unfold SourceState.tick
  simp only
  split
  · unfold SourceState.detect
    simp only [hsame]
    cases s.isClipping with
    | false =>
      split
      · rfl
      · split
        · next hexit => simp at hexit
        · rfl
    | true =>
      split
      · next hentry => simp at hentry
      · split
        · rfl
        · rfl
  · unfold SourceState.suspend
    simp only [hsame]
    cases s.isClipping with
    | false => rfl
    | true => rfl

/-- A source without a connection is not clipping and will not be until it has one again. -/
def Quiet (engine : ClippingEngine) : Prop :=
  ∀ key s, engine.sources.find? key = some s → s.connected = false →
    s.isClipping = false ∧ s.persistentReliabilityIssues ≠ {}

theorem isClipping_suspended {s : SourceState} (h : s.persistentReliabilityIssues ≠ {}) (now : ℚ)
    (settings : NormalizedSettings) : (s.tick now settings sine).2.isClipping = false := by
  have hunreliable : (s.evaluateEffects sine now).estimateReliable = false := by
    rw [Bool.eq_false_iff]
    intro hreliable
    exact h ((estimateReliable_iff _).mp hreliable).1
  simp only [SourceState.tick, hunreliable, Bool.false_eq_true, if_false, SourceState.suspend]

theorem connected_connect (s : SourceState) (identity : SourceIdentity) (connectionId : Guid) (now : ℚ) :
    (s.connect identity connectionId now).connected = true := by
  simp only [SourceState.connect, SourceState.connected]
  split
  · next hmem =>
    cases hconnections : s.connections with
    | nil =>
      rw [hconnections] at hmem
      cases hmem
    | cons first rest => rfl
  · simp

theorem connected_continues {s s' : SourceState} (h : s.Continues s') : s'.connected = s.connected := by
  rw [SourceState.connected, SourceState.connected, h.connections]

theorem disconnect_cases (s : SourceState) (connectionId : Guid) (now : ℚ) :
    ((s.disconnect connectionId now).connected = true ∧
      (s.disconnect connectionId now).isClipping = s.isClipping) ∨
    ((s.disconnect connectionId now).connected = false ∧
      (s.disconnect connectionId now).isClipping = false ∧
      (s.disconnect connectionId now).persistentReliabilityIssues ≠ {}) := by
  unfold SourceState.disconnect
  simp only
  split
  · next hconnected => exact .inl ⟨hconnected, rfl⟩
  · next hgone =>
    refine .inr ⟨Bool.eq_false_iff.mpr hgone, rfl, ?_⟩
    intro hnone
    have hflag := congrArg DetectorReliabilityIssue.sessionReconnect hnone
    simp [SourceState.resetAfterDisconnect, DetectorReliabilityIssue.union] at hflag

theorem Quiet.step (h : Quiet engine) (call : Call) : Quiet (engine.step sine call) := by
  intro key s hs hdisconnected
  cases hbefore : engine.sources.find? key with
  | none =>
    rcases find?_step_of_none sine hbefore call with hnone | ⟨identity, connectionId, now, -, -, hnew⟩
    · rw [hnone] at hs
      cases hs
    · rw [hnew] at hs
      cases hs
      rw [connected_connect] at hdisconnected
      cases hdisconnected
  | some before =>
    rcases find?_step_of_some sine hbefore call with hsome | ⟨-, hnone⟩
    · rw [hsome] at hs
      cases hs
      cases call with
      | connect identity connectionId now =>
        simp only [SourceState.call] at hdisconnected ⊢
        split at hdisconnected
        · rw [connected_connect] at hdisconnected
          cases hdisconnected
        · next hkey =>
          rw [if_neg hkey]
          exact h key before hbefore hdisconnected
      | disconnect key' connectionId now =>
        simp only [SourceState.call] at hdisconnected ⊢
        split at hdisconnected
        · next hkey =>
          rw [if_pos hkey]
          rcases disconnect_cases before connectionId now with ⟨hconnected, -⟩ | ⟨-, hquiet⟩
          · rw [hconnected] at hdisconnected
            cases hdisconnected
          · exact hquiet
        · next hkey =>
          rw [if_neg hkey]
          exact h key before hbefore hdisconnected
      | processFrame key' frame now =>
        simp only [SourceState.call] at hdisconnected ⊢
        split at hdisconnected
        · next hreceived =>
          rw [connected_continues (continues_receive frame now before), hreceived.2.1] at hdisconnected
          cases hdisconnected
        · next hreceived =>
          rw [if_neg hreceived]
          exact h key before hbefore hdisconnected
      | tick now =>
        have hcontinues := continues_tick now before engine.settings sine
        simp only [SourceState.call] at hdisconnected ⊢
        rw [connected_continues hcontinues] at hdisconnected
        obtain ⟨-, hissues⟩ := h key before hbefore hdisconnected
        refine ⟨isClipping_suspended hissues now engine.settings, fun hnone => hissues ?_⟩
        have hwithin := hcontinues.issues
        rw [hnone] at hwithin
        exact within_none hwithin
      | resetPeak | reportProtocolError | updateSettings settings | tryDequeueTransition =>
        exact h key before hbefore hdisconnected
    · rw [hnone] at hs
      cases hs

theorem kindsOf_flatMap {keys : List SourceKey} {f : SourceKey → List DetectorTransition}
    (hkeys : keys.Nodup) (hf : ∀ k ∈ keys, ∀ transition ∈ f k, transition.source = k) :
    kindsOf key (keys.flatMap f) = if key ∈ keys then kindsOf key (f key) else [] := by
  induction keys with
  | nil => rfl
  | cons first keys ih =>
    obtain ⟨hnew, hrest⟩ := List.nodup_cons.mp hkeys
    rw [List.flatMap_cons, kindsOf_append, ih hrest fun k hk => hf k (List.mem_cons_of_mem _ hk)]
    by_cases hkey : key = first
    · subst hkey
      rw [if_neg hnew, List.append_nil, if_pos List.mem_cons_self]
    · have hother : kindsOf key (f first) = [] := by
        apply kindsOf_of_ne
        intro transition hmem
        rw [hf first List.mem_cons_self transition hmem]
        exact Ne.symm hkey
      simp only [hother, List.nil_append, List.mem_cons, hkey, false_or]

theorem kindsOf_producedByTick (hfiled : Filed engine) (now : ℚ) :
    (∀ transition ∈ engine.producedByTick sine now key, transition.source = key) ∧
      kindsOf key (engine.producedByTick sine now key) =
        ((engine.sources.find? key).bind fun s => (s.tick now engine.settings sine).1).toList := by
  unfold ClippingEngine.producedByTick
  cases hs : engine.sources.find? key with
  | none => exact ⟨nofun, rfl⟩
  | some s =>
    have hkey := hfiled key s hs
    simp only [Option.bind_some]
    cases (s.tick now engine.settings sine).1 with
    | none => exact ⟨nofun, rfl⟩
    | some kind =>
      constructor
      · intro transition hmem
        rw [List.mem_singleton.mp hmem]
        exact hkey
      · simp [kindsOf, hkey]

theorem clipping_of_none (h : engine.sources.find? key = none) : engine.clipping key = false := by
  rw [ClippingEngine.clipping, h, Option.any_none]

theorem clipping_connect (hfiled : Filed engine) (hquiet : Quiet engine) (identity : SourceIdentity)
    (connectionId : Guid) (now : ℚ) :
    (engine.step sine (.connect identity connectionId now)).clipping key = engine.clipping key := by
  cases hbefore : engine.sources.find? key with
  | none =>
    rw [clipping_of_none hbefore]
    rcases find?_step_of_none sine hbefore (.connect identity connectionId now) with
      hnone | ⟨identity', connectionId', now', -, -, hnew⟩
    · exact clipping_of_none hnone
    · rw [clipping_of_find? hnew]
      rfl
  | some s =>
    rw [clipping_of_find? hbefore]
    rcases find?_step_of_some sine hbefore (.connect identity connectionId now) with
      hsome | ⟨hevicts, hnone⟩
    · rw [clipping_of_find? hsome, SourceState.call]
      split <;> rfl
    · rw [clipping_of_none hnone]
      have hgone : s.connected = false := Bool.eq_false_iff.mpr fun hconnected =>
        connected_not_evicted hfiled hbefore hconnected _ hevicts
      exact (hquiet key s hbefore hgone).1.symm

theorem kindsOf_connect (identity : SourceIdentity) (connectionId : Guid) (now : ℚ)
    (hquiet : Quiet engine) :
    track DetectorTransitionKind.role (engine.clipping key)
        (kindsOf key (engine.produced sine (.connect identity connectionId now))) =
      some (engine.clipping key) := by
  by_cases hkey : identity.key = key
  · subst hkey
    cases hs : engine.sources.find? identity.key with
    | none =>
      rw [clipping_of_none hs]
      simp only [ClippingEngine.produced, hs]
      split
      · rw [kindsOf_single]
        rfl
      · rfl
    | some s =>
      rw [clipping_of_find? hs]
      simp only [ClippingEngine.produced, hs]
      split
      · rfl
      · next hgone =>
        rw [(hquiet _ s hs (Bool.eq_false_iff.mpr hgone)).1, kindsOf_single]
        rfl
  · rw [kindsOf_of_ne, track_nil]
    intro transition hmem
    simp only [ClippingEngine.produced] at hmem
    split at hmem
    · split at hmem
      · cases hmem
      · rw [List.mem_singleton.mp hmem]
        exact hkey
    · split at hmem
      · rw [List.mem_singleton.mp hmem]
        exact hkey
      · cases hmem

theorem clipping_step (call : Call)
    (hcall : ∀ identity connectionId now, call ≠ .connect identity connectionId now) :
    (engine.step sine call).clipping key = (engine.sources.find? key).any fun s =>
      (s.call sine engine.settings key call).isClipping := by
  cases hbefore : engine.sources.find? key with
  | none =>
    rcases find?_step_of_none sine hbefore call with
      hnone | ⟨identity, connectionId, now, hconnect, -⟩
    · exact clipping_of_none hnone
    · exact absurd hconnect (hcall identity connectionId now)
  | some s =>
    rcases find?_step_of_some sine hbefore call with
      hsome | ⟨⟨identity, connectionId, now, -, hconnect, -⟩, -⟩
    · exact clipping_of_find? hsome
    · exact absurd hconnect (hcall identity connectionId now)

theorem track_disconnect (key' : SourceKey) (connectionId : Guid) (now : ℚ) :
    track DetectorTransitionKind.role (engine.clipping key)
        (kindsOf key (engine.produced sine (.disconnect key' connectionId now))) =
      some ((engine.step sine (.disconnect key' connectionId now)).clipping key) := by
  rw [clipping_step (.disconnect key' connectionId now) (by rintro _ _ _ ⟨⟩)]
  cases hother : engine.sources.find? key' with
  | none =>
    have hsame : ∀ s, engine.sources.find? key = some s → key' ≠ key := by
      rintro s hs rfl
      rw [hother] at hs
      cases hs
    simp only [ClippingEngine.produced, hother, SourceState.call]
    cases hs : engine.sources.find? key with
    | none => rw [clipping_of_none hs]; rfl
    | some s => rw [clipping_of_find? hs, Option.any_some, if_neg (hsame s hs)]; rfl
  | some source =>
    by_cases hkey : key' = key
    · subst hkey
      rw [clipping_of_find? hother, hother, Option.any_some]
      simp only [ClippingEngine.produced, hother, SourceState.call, if_true]
      rcases disconnect_cases source connectionId now with ⟨hconnected, hsame⟩ | ⟨hgone, hended, -⟩
      · rw [hconnected, hsame]
        rfl
      · rw [hgone, hended, if_neg Bool.false_ne_true, kindsOf_append, kindsOf_single]
        cases source.isClipping with
        | true => simp only [if_true, kindsOf_single]; rfl
        | false => rfl
    · have hnone : kindsOf key (engine.produced sine (.disconnect key' connectionId now)) = [] := by
        apply kindsOf_of_ne
        intro transition hmem
        simp only [ClippingEngine.produced, hother] at hmem
        split at hmem
        · cases hmem
        · rcases List.mem_append.mp hmem with hmem | hmem
          · split at hmem
            · rw [List.mem_singleton.mp hmem]
              exact hkey
            · cases hmem
          · rw [List.mem_singleton.mp hmem]
            exact hkey
      rw [hnone]
      simp only [SourceState.call, if_neg hkey]
      rfl

theorem track_processFrame (key' : SourceKey) (frame : ProtocolFrame) (now : ℚ) :
    track DetectorTransitionKind.role (engine.clipping key)
        (kindsOf key (engine.produced sine (.processFrame key' frame now))) =
      some ((engine.step sine (.processFrame key' frame now)).clipping key) := by
  rw [clipping_step (.processFrame key' frame now) (by rintro _ _ _ ⟨⟩)]
  by_cases hkey : key' = key
  · subst hkey
    cases hs : engine.sources.find? key' with
    | none =>
      rw [clipping_of_none hs]
      simp only [ClippingEngine.produced, hs]
      rfl
    | some s =>
      rw [clipping_of_find? hs, Option.any_some]
      simp only [ClippingEngine.produced, hs, SourceState.call]
      cases hconnected : s.connected with
      | false => simp only [Bool.not_false, if_true, Bool.false_eq_true, false_and, and_false, if_false]; rfl
      | true =>
        by_cases hprocess : frame.processId = key'.processId
        · simp only [Bool.not_true, Bool.false_eq_true, if_false, hprocess, ne_eq,
            not_true_eq_false, and_self, if_true]
          have hnever := isClipping_receive frame now s
          cases hbefore : s.isClipping with
          | true =>
            cases hafter : (s.receive frame now).isClipping with
            | true => rfl
            | false => simp only [Bool.not_false, Bool.and_self, if_true, kindsOf_single]; rfl
          | false =>
            cases hafter : (s.receive frame now).isClipping with
            | true =>
              rw [hnever hafter] at hbefore
              cases hbefore
            | false => rfl
        · simp only [Bool.not_true, Bool.false_eq_true, if_false, hprocess, ne_eq,
            not_false_eq_true, and_false, if_true]
          rfl
  · have hnone : kindsOf key (engine.produced sine (.processFrame key' frame now)) = [] := by
      apply kindsOf_of_ne
      intro transition hmem
      simp only [ClippingEngine.produced] at hmem
      split at hmem
      · cases hmem
      · split at hmem
        · cases hmem
        · split at hmem
          · cases hmem
          · split at hmem
            · rw [List.mem_singleton.mp hmem]
              exact hkey
            · cases hmem
    rw [hnone]
    simp only [SourceState.call, hkey, false_and, if_false]
    rfl

theorem track_tickStep (hfiled : Filed engine) (now : ℚ) :
    track DetectorTransitionKind.role (engine.clipping key)
        (kindsOf key (engine.produced sine (.tick now))) =
      some ((engine.step sine (.tick now)).clipping key) := by
  rw [clipping_step (.tick now) (by rintro _ _ _ ⟨⟩)]
  have hown : ∀ k ∈ engine.sources.keys, ∀ transition ∈ engine.producedByTick sine now k,
      transition.source = k := fun k _ => (kindsOf_producedByTick hfiled now).1
  have hkeys : engine.sources.keys.Nodup := engine.sources.nodup
  rw [ClippingEngine.produced, kindsOf_flatMap hkeys hown,
    (kindsOf_producedByTick hfiled now).2]
  cases hs : engine.sources.find? key with
  | none =>
    rw [clipping_of_none hs]
    simp only [Option.bind_none, Option.toList_none, ite_self, track_nil, Option.any_none]
  | some s =>
    have hmem : key ∈ engine.sources.keys :=
      Dictionary.contains_iff.mp (by rw [Dictionary.contains, hs, Option.isSome_some])
    rw [clipping_of_find? hs, if_pos hmem, Option.bind_some, Option.any_some]
    exact track_tick s now engine.settings

theorem track_step (hfiled : Filed engine) (hquiet : Quiet engine) (call : Call) :
    track DetectorTransitionKind.role (engine.clipping key)
        (kindsOf key (engine.produced sine call)) =
      some ((engine.step sine call).clipping key) := by
  cases call with
  | connect identity connectionId now =>
    rw [kindsOf_connect identity connectionId now hquiet,
      clipping_connect hfiled hquiet identity connectionId now]
  | disconnect key' connectionId now => exact track_disconnect key' connectionId now
  | processFrame key' frame now => exact track_processFrame key' frame now
  | tick now => exact track_tickStep hfiled now
  | resetPeak | tryDequeueTransition | reportProtocolError | updateSettings settings =>
    apply congrArg some
    symm
    apply clipping_step
    rintro _ _ _ ⟨⟩

/-- Along a run the transitions of a key follow what its source is doing. -/
theorem track_run (hfiled : Filed engine) (hquiet : Quiet engine) (calls : List Call) :
    track DetectorTransitionKind.role (engine.clipping key)
        (kindsOf key (engine.producedIn sine calls)) =
      some ((Runs.run (ClippingEngine.step sine) engine calls).clipping key) := by
  induction calls generalizing engine with
  | nil => rfl
  | cons call calls ih =>
    rw [ClippingEngine.producedIn, kindsOf_append, track_append, track_step hfiled hquiet call,
      Option.bind_some, ih (hfiled.step call) (hquiet.step call), Runs.run_cons]

/-- Whatever is called, the transitions of a key begin and end its clipping in turns; it is clipping
exactly from a beginning to an end, and no disconnect finds it clipping. The queue gets what is
produced, as far as it has room. -/
theorem clipping_transitions_pair_up (sine : Sine) (settings : DetectorSettings) (calls : List Call)
    (key : SourceKey) :
    Paired DetectorTransitionKind.role
      (kindsOf key ((ClippingEngine.new settings).producedIn sine calls))
      ((ClippingEngine.after sine settings calls).clipping key) ∧
    ∀ call, ((ClippingEngine.after sine settings calls).step sine call).transitions =
      shed ((ClippingEngine.after sine settings calls).dequeued call ++
        (ClippingEngine.after sine settings calls).produced sine call) := by
  constructor
  · apply paired_of_track
    have hfiled : Filed (ClippingEngine.new settings) := by
      intro key s hs
      cases hs
    have hquiet : Quiet (ClippingEngine.new settings) := by
      intro key s hs
      cases hs
    exact track_run hfiled hquiet calls
  · exact transitions_step_eq sine (withinLimits_after calls).transitions

end Pairing

end FfbInterceptor.Engine
