import FfbInterceptor.Server.Segmentation

/-! What every session keeps to, whatever its client sends: one Hello, then frames of the same process
in order, then one farewell. -/
namespace FfbInterceptor.Server
open FfbInterceptor.Library FfbInterceptor.Protocol

section Calls

variable {ConnectionId : Type}

/-- The calls as they arrive: `RunClient` passes the id of its connection along. -/
inductive ConnectionCall (ConnectionId : Type) where
  | connected (source : SourceIdentity) (connectionId : ConnectionId)
  | disconnected (key : SourceKey) (connectionId : ConnectionId)
  | frameReceived (key : SourceKey) (frame : ProtocolFrame)
  | protocolError

def Callback.withConnection (connectionId : ConnectionId) : Callback → ConnectionCall ConnectionId
  | .connected source => .connected source connectionId
  | .disconnected key => .disconnected key connectionId
  | .frameReceived key frame => .frameReceived key frame
  | .protocolError => .protocolError

def runConnection (connectionId : ConnectionId) (client : Client) : List (ConnectionCall ConnectionId) :=
  (runClient client).map (Callback.withConnection connectionId)

def ConnectionCall.isConnected : ConnectionCall ConnectionId → Bool
  | .connected _ _ => true
  | _ => false

def ConnectionCall.isDisconnected : ConnectionCall ConnectionId → Bool
  | .disconnected _ _ => true
  | _ => false

end Calls

section Hellos

/-- 1 to 31 letters, digits, hyphens, underscores and dots. -/
def SafeSessionId (value : String) : Prop :=
  1 ≤ value.length ∧ value.length ≤ 31 ∧
    ∀ c ∈ value.toList, c.isAlphanum = true ∨ c = '-' ∨ c = '_' ∨ c = '.'

structure Accepts (processId : UInt32) (hello : ProtocolFrame) : Prop where
  type : hello.messageType = .hello
  processId : hello.processId = processId
  sessionId : SafeSessionId hello.sessionId

theorem isAlphanum_of_safe {c : Char} (h : isSafeSessionCharacter c = true) :
    (c.isAlphanum = true ∨ c = '-' ∨ c = '_' ∨ c = '.') ∧ utf16Size c = 1 := by
  simp only [isSafeSessionCharacter, Bool.or_eq_true, Bool.and_eq_true, decide_eq_true_eq,
    beq_iff_eq] at h
  obtain ((((hlower | hupper) | hdigit) | rfl) | rfl) | rfl := h
  · have hvalue : 97 ≤ c.toNat ∧ c.toNat ≤ 122 := hlower
    refine ⟨Or.inl ?_, if_pos (by omega)⟩
    have hletter : c.isLower = true :=
      Bool.and_eq_true_iff.mpr ⟨decide_eq_true hlower.1, decide_eq_true hlower.2⟩
    exact (Bool.or_eq_true _ _).mpr (Or.inl ((Bool.or_eq_true _ _).mpr (Or.inr hletter)))
  · have hvalue : 65 ≤ c.toNat ∧ c.toNat ≤ 90 := hupper
    refine ⟨Or.inl ?_, if_pos (by omega)⟩
    have hletter : c.isUpper = true := decide_eq_true hupper
    exact (Bool.or_eq_true _ _).mpr (Or.inl ((Bool.or_eq_true _ _).mpr (Or.inl hletter)))
  · have hvalue : 48 ≤ c.toNat ∧ c.toNat ≤ 57 := hdigit
    refine ⟨Or.inl ?_, if_pos (by omega)⟩
    simp only [Char.isAlphanum, Char.isDigit, Bool.or_eq_true, Bool.and_eq_true, decide_eq_true_eq]
    exact Or.inr hdigit
  · exact ⟨Or.inr (Or.inl rfl), rfl⟩
  · exact ⟨Or.inr (Or.inr (Or.inl rfl)), rfl⟩
  · exact ⟨Or.inr (Or.inr (Or.inr rfl)), rfl⟩

theorem safeSessionId {value : String} (h : isSafeSessionId value = true) : SafeSessionId value := by
  unfold isSafeSessionId at h
  split at h
  · cases h
  · rename_i hlength
    rw [List.all_eq_true] at h
    rw [Bool.or_eq_true, not_or, decide_eq_true_eq, Nat.not_lt] at hlength
    have hunits : utf16Length value = value.length := by
      have hones : value.toList.map utf16Size = value.toList.map fun _ => 1 :=
        List.map_congr_left fun c hc => (isAlphanum_of_safe (h c hc)).2
      rw [utf16Length, hones, List.map_const', List.sum_replicate_nat, mul_one,
        String.length_toList]
    refine ⟨?_, hunits ▸ hlength.2, fun c hc => (isAlphanum_of_safe (h c hc)).1⟩
    rw [Nat.one_le_iff_ne_zero, ne_eq, String.length_eq_zero_iff]
    rintro rfl
    exact hlength.1 rfl

end Hellos

section Sessions

variable {throws : List Callback → Bool} {processId : UInt32}

structure Session.Served (processId : UInt32) (hello : ProtocolFrame) (frames : List ProtocolFrame)
    (s : Session) : Prop where
  accepts : Accepts processId hello
  follows : ∀ frame ∈ frames, frame.messageType ≠ .hello ∧ frame.processId = processId
  increasing : (hello :: frames).Pairwise fun a b => a.sequence < b.sequence
  last : ∃ sequence, s.lastSequence = some sequence ∧
    ∀ frame ∈ hello :: frames, frame.sequence ≤ sequence
  key : s.sourceKey = some ⟨processId, hello.sessionId⟩
  callbacks : s.callbacks = .connected (helloIdentity processId hello) ::
    frames.map (.frameReceived ⟨processId, hello.sessionId⟩)

/-- The frames a session has handed on: none yet, or a Hello first. -/
inductive Session.Keeps (processId : UInt32) : List ProtocolFrame → Session → Prop
  | fresh {s : Session} (key : s.sourceKey = none) (last : s.lastSequence = none)
      (callbacks : s.callbacks = []) : Keeps processId [] s
  | served {s : Session} {hello : ProtocolFrame} {frames : List ProtocolFrame}
      (served : s.Served processId hello frames) : Keeps processId (hello :: frames) s

theorem Session.Keeps.of_eq {handed : List ProtocolFrame} {s s' : Session}
    (h : s.Keeps processId handed) (hkey : s'.sourceKey = s.sourceKey)
    (hlast : s'.lastSequence = s.lastSequence) (hcallbacks : s'.callbacks = s.callbacks) :
    s'.Keeps processId handed := by
  cases h with
  | fresh key last callbacks =>
    exact .fresh (hkey.trans key) (hlast.trans last) (hcallbacks.trans callbacks)
  | served served =>
    exact .served ⟨served.accepts, served.follows, served.increasing, hlast ▸ served.last,
      hkey.trans served.key, hcallbacks.trans served.callbacks⟩

theorem Session.Keeps.throw {handed : List ProtocolFrame} {s : Session}
    (h : s.Keeps processId handed) (failure : Failure) : (s.throw failure).Keeps processId handed := by
  unfold Session.throw
  split
  · exact h.of_eq rfl rfl rfl
  · exact h

/-- What the checks let through: the Hello of the process, or a later frame of it behind one. -/
theorem Session.check_cases {s : Session} {frame : ProtocolFrame} {key : SourceKey} {callback : Callback}
    (h : s.check processId frame = .ok (key, callback)) :
    (∀ sequence, s.lastSequence = some sequence → sequence < frame.sequence) ∧
    ((s.sourceKey = none ∧ Accepts processId frame ∧ key = ⟨processId, frame.sessionId⟩ ∧
        callback = .connected (helloIdentity processId frame)) ∨
      (s.sourceKey = some key ∧ frame.messageType ≠ .hello ∧ frame.processId = processId ∧
        callback = .frameReceived key frame)) := by
  unfold Session.check at h
  split at h
  · cases h
  · rename_i hsequence
    refine ⟨?_, ?_⟩
    · intro sequence hlast
      simpa [hlast] using hsequence
    · split at h
      · rename_i hkey
        split at h
        · cases h
        · rename_i htype
          split at h
          · cases h
          · rename_i hprocess
            split at h
            · cases h
            · rename_i hsafe
              cases h
              rw [not_not] at htype hprocess
              rw [Bool.not_eq_true', Bool.not_eq_false] at hsafe
              exact Or.inl ⟨hkey, ⟨htype, hprocess, safeSessionId hsafe⟩, rfl, rfl⟩
      · rename_i known hkey
        split at h
        · cases h
        · rename_i htype
          split at h
          · cases h
          · rename_i hprocess
            cases h
            exact Or.inr ⟨hkey, htype, not_not.mp hprocess, rfl⟩

theorem Session.Served.next {hello frame : ProtocolFrame} {frames : List ProtocolFrame} {s s' : Session}
    (h : s.Served processId hello frames) (htype : frame.messageType ≠ .hello)
    (hprocess : frame.processId = processId)
    (hsequence : ∀ sequence, s.lastSequence = some sequence → sequence < frame.sequence)
    (hkey : s'.sourceKey = s.sourceKey) (hlast : s'.lastSequence = some frame.sequence)
    (hcallbacks : s'.callbacks =
      s.callbacks ++ [.frameReceived ⟨processId, hello.sessionId⟩ frame]) :
    s'.Served processId hello (frames ++ [frame]) := by
  obtain ⟨sequence, hbefore, hle⟩ := h.last
  have hless : ∀ other ∈ hello :: frames, other.sequence < frame.sequence :=
    fun other hother => UInt64.lt_of_le_of_lt (hle other hother) (hsequence sequence hbefore)
  refine ⟨h.accepts, ?_, ?_, ?_, hkey.trans h.key, ?_⟩
  · intro other hother
    rw [List.mem_append, List.mem_singleton] at hother
    cases hother with
    | inl hearlier => exact h.follows other hearlier
    | inr hnow => exact hnow ▸ ⟨htype, hprocess⟩
  · rw [← List.cons_append, List.pairwise_append]
    refine ⟨h.increasing, List.pairwise_singleton _ _, ?_⟩
    intro other hother last hlast
    rw [List.mem_singleton.mp hlast]
    exact hless other hother
  · refine ⟨frame.sequence, hlast, ?_⟩
    intro other hother
    rw [← List.cons_append, List.mem_append, List.mem_singleton] at hother
    cases hother with
    | inl hearlier => exact UInt64.le_of_lt (hless other hearlier)
    | inr hnow => exact hnow ▸ UInt64.le_refl _
  · rw [hcallbacks, h.callbacks, List.map_append, List.cons_append, List.map_singleton]

theorem Session.Keeps.frame {handed : List ProtocolFrame} {s : Session} (h : s.Keeps processId handed)
    {frame : ProtocolFrame} {key : SourceKey} {callback : Callback} (hs : s.failure = none)
    (hcheck : s.check processId frame = .ok (key, callback)) :
    (s.frame throws processId frame).Keeps processId (handed ++ [frame]) := by
  obtain ⟨hcallbacks, hkey⟩ := Session.frame_of_ok throws hs hcheck
  have hlast : (s.frame throws processId frame).lastSequence = some frame.sequence := by
    simp only [Session.frame, hs, hcheck]
    split <;> rfl
  obtain ⟨hsequence, hcalled⟩ := Session.check_cases hcheck
  cases h with
  | fresh hnone hfresh hempty =>
    cases hcalled with
    | inr hknown =>
      rw [hnone] at hknown
      cases hknown.1
    | inl hhello =>
      obtain ⟨-, haccepts, rfl, rfl⟩ := hhello
      refine .served ⟨haccepts, ?_, List.pairwise_singleton _ _, ⟨_, hlast, ?_⟩, hkey, ?_⟩
      · exact fun other hother => absurd hother List.not_mem_nil
      · intro other hother
        rw [List.mem_singleton.mp hother]
        exact UInt64.le_refl _
      · rw [hcallbacks, hempty]
        rfl
  | served served =>
    cases hcalled with
    | inl hhello =>
      rw [served.key] at hhello
      cases hhello.1
    | inr hknown =>
      obtain ⟨hsame, htype, hprocess, rfl⟩ := hknown
      have hown := hsame
      rw [served.key, Option.some.injEq] at hown
      subst hown
      exact .served (served.next htype hprocess hsequence (hkey.trans hsame.symm) hlast hcallbacks)

variable (throws) in
theorem Session.Keeps.frames {handed : List ProtocolFrame} {s : Session} (h : s.Keeps processId handed)
    (frames : List ProtocolFrame) : ∃ part, part <+: frames ∧
      (s.frames throws processId frames).Keeps processId (handed ++ part) := by
  induction frames generalizing s handed with
  | nil => exact ⟨[], List.prefix_rfl, by rwa [List.append_nil]⟩
  | cons frame frames ih =>
    cases hs : s.failure with
    | some f =>
      refine ⟨[], List.nil_prefix, ?_⟩
      rwa [Session.frames_of_some hs, List.append_nil]
    | none =>
      rw [Session.frames, List.foldl_cons, ← Session.frames]
      cases hcheck : s.check processId frame with
      | error e =>
        refine ⟨[], List.nil_prefix, ?_⟩
        rw [Session.frame_of_error throws hs hcheck, Session.frames_of_some rfl, List.append_nil]
        exact h.of_eq rfl rfl rfl
      | ok called =>
        obtain ⟨part, hpart, hkeeps⟩ := ih (h.frame hs hcheck)
        rw [List.append_assoc] at hkeeps
        exact ⟨frame :: part, List.cons_prefix_cons.mpr ⟨rfl, hpart⟩, hkeeps⟩

/-- The frames a client's session hands on are the first ones of its stream, the Hello in front. -/
theorem keeps_body (client : Client) : ∃ processId handed,
    handed <+: (framing.parse (stream client.reads)).1 ∧ client.body.Keeps processId handed ∧
      (handed ≠ [] → client.clientProcessId = some processId ∧ processId ≠ 0) := by
  have hfresh : ∀ processId, Session.Keeps processId [] {} := fun _ => .fresh rfl rfl rfl
  cases hverified : client.clientProcessId with
  | none =>
    refine ⟨0, [], List.nil_prefix, ?_, fun hne => absurd rfl hne⟩
    simp only [Client.body, hverified]
    exact (hfresh 0).throw _
  | some processId =>
    by_cases hzero : processId = 0
    · refine ⟨0, [], List.nil_prefix, ?_, fun hne => absurd rfl hne⟩
      simp only [Client.body, hverified, hzero]
      exact (hfresh 0).throw _
    · rw [body_of_verified hverified hzero]
      obtain ⟨part, hpart, hkeeps⟩ := (hfresh processId).frames client.throws
        (framesBeforeFault client.reads)
      refine ⟨processId, part, hpart.trans (framesBeforeFault_isPrefix client.reads), ?_,
        fun _ => ⟨rfl, hzero⟩⟩
      have hreads : (client.reads.foldl (Session.read client.throws processId) ({}, [])).1.Keeps
          processId part := by
        rw [(reads_eq client.throws processId client.reads).1]
        unfold Session.fed
        split
        · exact hkeeps
        · exact hkeeps.throw _
      unfold Session.finishReads
      split
      · exact hreads
      · split
        · exact hreads.throw _
        · split
          · exact hreads.throw _
          · exact hreads
        · split
          · exact hreads.throw _
          · exact hreads

theorem Session.trace_eq (throws : List Callback → Bool) (s : Session) (running : Bool) :
    ∃ n m, s.trace throws running = s.callbacks ++ List.replicate n .protocolError ++
      (match s.sourceKey with
        | none => []
        | some key => .disconnected key :: List.replicate m .protocolError) := by
  have hcaught : ∃ n, s.catchFailure running =
      { s with callbacks := s.callbacks ++ List.replicate n .protocolError } := by
    have hkept : s = { s with callbacks := s.callbacks ++ List.replicate 0 .protocolError } := by
      rw [List.replicate_zero, List.append_nil]
    unfold Session.catchFailure
    split
    · exact ⟨0, hkept⟩
    · exact ⟨0, hkept⟩
    · split
      · exact ⟨1, rfl⟩
      · exact ⟨0, hkept⟩
  obtain ⟨n, hcaught⟩ := hcaught
  unfold Session.trace
  rw [hcaught]
  unfold Session.dispose
  cases hkey : s.sourceKey with
  | none => exact ⟨n, 0, (List.append_nil _).symm⟩
  | some key =>
    simp only
    split
    · exact ⟨n, 1, by simp⟩
    · exact ⟨n, 0, rfl⟩

end Sessions

section Connections

variable {ConnectionId : Type}

/-- The calls of a connection: errors only, or a Hello, the frames of its process, and a farewell. -/
theorem runConnection_eq (connectionId : ConnectionId) (client : Client) :
    (client.body.sourceKey = none ∧
      ∃ n, runConnection connectionId client = List.replicate n .protocolError) ∨
    ∃ processId hello frames n m, client.clientProcessId = some processId ∧ processId ≠ 0 ∧
      hello :: frames <+: (framing.parse (stream client.reads)).1 ∧
      client.body.Served processId hello frames ∧ runConnection connectionId client =
        .connected (helloIdentity processId hello) connectionId ::
          frames.map (.frameReceived ⟨processId, hello.sessionId⟩) ++
        (List.replicate n .protocolError ++
          .disconnected ⟨processId, hello.sessionId⟩ connectionId :: List.replicate m .protocolError) := by
  obtain ⟨processId, handed, hstart, hkeeps, hverified⟩ := keeps_body client
  obtain ⟨n, m, htrace⟩ := client.body.trace_eq client.throws client.running
  have hcalls : runConnection connectionId client = _ := congrArg (List.map _) htrace
  cases hkeeps with
  | fresh hkey hlast hcallbacks =>
    refine Or.inl ⟨hkey, n, ?_⟩
    rw [hcalls, hkey, hcallbacks, List.nil_append, List.append_nil, List.map_replicate]
    rfl
  | served served =>
    rename_i hello frames
    obtain ⟨hprocess, hzero⟩ := hverified (List.cons_ne_nil _ _)
    refine Or.inr ⟨processId, hello, frames, n, m, hprocess, hzero, hstart, served, ?_⟩
    rw [hcalls, served.key, served.callbacks]
    simp only [List.map_append, List.map_cons, List.map_map, List.map_replicate, List.append_assoc]
    rfl

theorem split_of_not_mem {α : Type} {xs ys before after : List α} {x : α}
    (h : xs ++ ys = before ++ x :: after) (hx : x ∉ ys) : ∃ rest, xs = before ++ x :: rest := by
  obtain ⟨rest, -, hys⟩ | ⟨rest, hxs, hrest⟩ := List.append_eq_append_iff.mp h
  · rw [hys] at hx
    exact absurd (List.mem_append_right _ List.mem_cons_self) hx
  · cases rest with
    | nil =>
      rw [List.nil_append] at hrest
      exact absurd (hrest ▸ List.mem_cons_self) hx
    | cons first rest =>
      obtain ⟨rfl, -⟩ := List.cons.inj hrest
      exact ⟨rest, hxs⟩

/-- Whatever a client sends: frames come behind its one accepted Hello, in order and of its process, and
the farewell is the last word. -/
theorem session_safe (connectionId : ConnectionId) (client : Client) :
    let calls := runConnection connectionId client
    (∀ before key frame after, calls = before ++ .frameReceived key frame :: after →
      ∃ processId hello passed, client.clientProcessId = some processId ∧ processId ≠ 0 ∧
        Accepts processId hello ∧ key = ⟨processId, hello.sessionId⟩ ∧
        before = .connected (helloIdentity processId hello) connectionId ::
          passed.map (.frameReceived key) ∧
        hello :: passed ++ [frame] <+: (framing.parse (stream client.reads)).1 ∧
        frame.messageType ≠ .hello ∧ frame.processId = processId ∧
        ∀ earlier ∈ hello :: passed, earlier.sequence < frame.sequence) ∧
    calls.countP ConnectionCall.isConnected ≤ 1 ∧
    (∀ key, client.body.sourceKey = some key →
      calls.filter ConnectionCall.isDisconnected = [.disconnected key connectionId] ∧
      ∃ source, source.key = key ∧
        calls.filter ConnectionCall.isConnected = [.connected source connectionId]) ∧
    (client.body.sourceKey = none → calls.filter ConnectionCall.isDisconnected = [] ∧
      calls.filter ConnectionCall.isConnected = []) ∧
    ∀ before key id after, calls = before ++ .disconnected key id :: after →
      ∀ call ∈ after, call = .protocolError := by
  intro calls
  cases runConnection_eq connectionId client with
  | inl hfresh =>
    obtain ⟨hkey, n, hfresh⟩ := hfresh
    have hcalls : calls = List.replicate n .protocolError := hfresh
    have hplain : ∀ call ∈ calls, call = .protocolError := by
      intro call hcall
      rw [hcalls] at hcall
      exact List.eq_of_mem_replicate hcall
    have hnone : ∀ p : ConnectionCall ConnectionId → Bool, p .protocolError = false →
        calls.filter p = [] := by
      intro p hp
      rw [List.filter_eq_nil_iff]
      intro call hcall
      rw [hplain call hcall, hp]
      exact Bool.false_ne_true
    refine ⟨?_, ?_, ?_, fun _ => ⟨hnone _ rfl, hnone _ rfl⟩, ?_⟩
    · intro before key frame after hsplit
      cases hplain (.frameReceived key frame) (hsplit ▸ List.mem_append_right _ List.mem_cons_self)
    · rw [List.countP_eq_length_filter, hnone _ rfl]
      exact Nat.zero_le 1
    · intro key hsome
      rw [hkey] at hsome
      cases hsome
    · intro before key id after hsplit
      cases hplain (.disconnected key id) (hsplit ▸ List.mem_append_right _ List.mem_cons_self)
  | inr hserved =>
    obtain ⟨processId, hello, frames, n, m, hprocess, hzero, hstart, served, hserved⟩ := hserved
    have hcalls : calls = _ := hserved
    have hframes : ∀ p : ConnectionCall ConnectionId → Bool,
        (∀ key frame, p (.frameReceived key frame) = false) →
          ((frames.map (.frameReceived ⟨processId, hello.sessionId⟩) :
            List (ConnectionCall ConnectionId)).filter p) = [] := by
      intro p hp
      rw [List.filter_eq_nil_iff, List.forall_mem_map]
      intro frame _
      rw [hp]
      exact Bool.false_ne_true
    have hconnected : calls.filter ConnectionCall.isConnected =
        [.connected (helloIdentity processId hello) connectionId] := by
      rw [hcalls, List.filter_append, List.filter_cons, hframes _ fun _ _ => rfl]
      simp [ConnectionCall.isConnected]
    have hdisconnected : calls.filter ConnectionCall.isDisconnected =
        [.disconnected ⟨processId, hello.sessionId⟩ connectionId] := by
      rw [hcalls, List.filter_append, List.filter_cons, hframes _ fun _ _ => rfl]
      simp [List.filter_cons, ConnectionCall.isDisconnected]
    refine ⟨?_, ?_, ?_, ?_, ?_⟩
    · intro before key frame after hsplit
      obtain ⟨rest, hrest⟩ := split_of_not_mem (hcalls.symm.trans hsplit) (by simp)
      cases before with
      | nil => cases (List.cons.inj hrest).1
      | cons first passed =>
        obtain ⟨rfl, hpassed⟩ := List.cons.inj hrest
        obtain ⟨earlier, others, rfl, rfl, hothers⟩ := List.map_eq_append_iff.mp hpassed
        obtain ⟨own, later, rfl, hown, -⟩ := List.map_eq_cons_iff.mp hothers
        cases hown
        have hfollows := served.follows frame (List.mem_append_right _ List.mem_cons_self)
        have hincreasing := served.increasing
        rw [← List.cons_append, List.pairwise_append] at hincreasing
        refine ⟨processId, hello, earlier, hprocess, hzero, served.accepts, rfl, rfl, ?_, hfollows.1,
          hfollows.2, ?_⟩
        · refine List.IsPrefix.trans ?_ hstart
          exact ⟨later, by simp⟩
        · exact fun other hother => hincreasing.2.2 other hother frame List.mem_cons_self
    · rw [List.countP_eq_length_filter, hconnected]
      exact Nat.le_refl 1
    · intro key hkey
      rw [served.key, Option.some.injEq] at hkey
      subst hkey
      exact ⟨hdisconnected, _, rfl, hconnected⟩
    · intro hnone
      rw [served.key] at hnone
      cases hnone
    · intro before key id after hsplit call hcall
      rw [hcalls, ← List.append_assoc] at hsplit
      obtain ⟨rest, -, hlast⟩ | ⟨rest, hfirst, hrest⟩ := List.append_eq_append_iff.mp hsplit
      · cases rest with
        | nil =>
          obtain ⟨-, rfl⟩ := List.cons.inj hlast
          exact List.eq_of_mem_replicate hcall
        | cons first rest =>
          obtain ⟨-, hreplicate⟩ := List.cons.inj hlast
          have hmem : ConnectionCall.disconnected key id ∈
              List.replicate m (.protocolError : ConnectionCall ConnectionId) :=
            hreplicate ▸ List.mem_append_right _ List.mem_cons_self
          cases List.eq_of_mem_replicate hmem
      · cases rest with
        | nil =>
          obtain ⟨-, rfl⟩ := List.cons.inj hrest
          exact List.eq_of_mem_replicate hcall
        | cons first rest =>
          obtain ⟨rfl, -⟩ := List.cons.inj hrest
          have hmem : ConnectionCall.disconnected key id ∈ before ++ .disconnected key id :: rest :=
            List.mem_append_right _ List.mem_cons_self
          rw [← hfirst] at hmem
          simp at hmem

end Connections

end FfbInterceptor.Server
