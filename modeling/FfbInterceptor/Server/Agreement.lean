import FfbInterceptor.Server.Segmentation
import FfbInterceptor.Telemetry.Stream

/-! The plug-in accepts what the proxy sends: the frames of a connection pass the checks of a
session, in whatever reads their bytes arrive. -/
namespace FfbInterceptor.Server
open FfbInterceptor.Library FfbInterceptor.Protocol FfbInterceptor.Telemetry

section Accepted

variable {throws : List Callback → Bool} {clientProcessId : UInt32} {s : Session} {key : SourceKey}

variable (throws) in
theorem Session.frame_of_check {frame : ProtocolFrame} {callback : Callback} (hs : s.failure = none)
    (h : s.check clientProcessId frame = .ok (key, callback)) :
    s.frame throws clientProcessId frame =
      { sourceKey := some key
        lastSequence := some frame.sequence
        callbacks := s.callbacks ++ [callback]
        failure := if throws (s.callbacks ++ [callback]) then some .callbackException else none } := by
  simp only [Session.frame, hs, h]
  split
  · rfl
  · rfl

/-- A session behind its Hello in which only calls have failed. -/
structure Session.Open (key : SourceKey) (sequence : UInt64) (s : Session) : Prop where
  sourceKey : s.sourceKey = some key
  lastSequence : s.lastSequence = some sequence
  failure : s.failure = none ∨ s.failure = some .callbackException

/-- What the session asks of a frame behind the Hello. -/
structure FollowUp (clientProcessId : UInt32) (sequence : UInt64) (frame : ProtocolFrame) : Prop where
  sequence_lt : sequence < frame.sequence
  messageType : frame.messageType ≠ .hello
  processId : frame.processId = clientProcessId

theorem Session.check_followUp {sequence : UInt64} {frame : ProtocolFrame}
    (hkey : s.sourceKey = some key) (hsequence : s.lastSequence = some sequence)
    (h : FollowUp clientProcessId sequence frame) :
    s.check clientProcessId frame = .ok (key, .frameReceived key frame) := by
  have hnew : ¬ frame.sequence ≤ sequence := UInt64.not_le.mpr h.sequence_lt
  simp only [Session.check, hkey, hsequence, Option.any_some, hnew, decide_false, Bool.false_eq_true,
    ↓reduceIte, h.messageType, h.processId, ne_eq, not_true_eq_false]

variable (throws) in
theorem Session.Open.frame {sequence : UInt64} {frame : ProtocolFrame} (hopen : s.Open key sequence)
    (h : FollowUp clientProcessId sequence frame) (hs : s.failure = none) :
    (s.frame throws clientProcessId frame).Open key frame.sequence ∧
      (s.frame throws clientProcessId frame).callbacks = s.callbacks ++ [.frameReceived key frame] ∧
      ((∀ calls, throws calls = false) → (s.frame throws clientProcessId frame).failure = none) := by
  have hcheck := Session.check_followUp hopen.sourceKey hopen.lastSequence h
  rw [Session.frame_of_check throws hs hcheck]
  refine ⟨⟨rfl, rfl, ?_⟩, rfl, ?_⟩
  · cases hthrows : throws (s.callbacks ++ [.frameReceived key frame]) with
    | true => exact Or.inr rfl
    | false => exact Or.inl rfl
  · intro hnever
    simp only [hnever, Bool.false_eq_true, ↓reduceIte]

variable (throws) in
theorem Session.Open.frames {sequence : UInt64} {frames : List ProtocolFrame}
    (hopen : s.Open key sequence)
    (hincreasing : (sequence :: frames.map ProtocolFrame.sequence).Pairwise (· < ·))
    (hframes : ∀ frame ∈ frames, frame.messageType ≠ .hello ∧ frame.processId = clientProcessId) :
    ((s.frames throws clientProcessId frames).failure = none ∨
      (s.frames throws clientProcessId frames).failure = some .callbackException) ∧
    ((∀ calls, throws calls = false) → s.failure = none →
      (s.frames throws clientProcessId frames).failure = none ∧
      (s.frames throws clientProcessId frames).callbacks =
        s.callbacks ++ frames.map (.frameReceived key)) := by
  induction frames generalizing s sequence with
  | nil =>
    refine ⟨hopen.failure, ?_⟩
    intro _ hs
    exact ⟨hs, (List.append_nil _).symm⟩
  | cons frame frames ih =>
    rw [List.map_cons, List.pairwise_cons] at hincreasing
    obtain ⟨htype, hprocessId⟩ := hframes frame (List.mem_cons_self ..)
    have hfollowUp : FollowUp clientProcessId sequence frame :=
      ⟨hincreasing.1 _ (List.mem_cons_self ..), htype, hprocessId⟩
    cases hopen.failure with
    | inr hs =>
      rw [Session.frames_of_some hs]
      refine ⟨Or.inr hs, ?_⟩
      intro _ hnone
      rw [hs] at hnone
      cases hnone
    | inl hs =>
      obtain ⟨hstep, hcallbacks, hfailure⟩ := hopen.frame throws hfollowUp hs
      have hrest := ih hstep hincreasing.2 fun f hf => hframes f (List.mem_cons_of_mem frame hf)
      refine ⟨hrest.1, ?_⟩
      intro hnever _
      have hall := hrest.2 hnever (hfailure hnever)
      rw [hcallbacks, List.append_assoc] at hall
      exact hall

end Accepted

section Session

variable (p : Producer)

theorem delivered_hello :
    p.helloEvent.delivered.sessionId = String.ofList p.sessionText := by
  simp only [Event.delivered, Event.received, Producer.helloEvent]
  exact (holdsText_session p).textOf_eq

theorem isSafeSessionId_session : isSafeSessionId (String.ofList p.sessionText) = true := by
  have hlength := sessionText_length p
  have hascii : ∀ c ∈ p.sessionText, utf16Size c = 1 := by
    intro c hc
    have hlt := toNat_lt_of_digit (sessionText_spec p c hc)
    simp only [utf16Size]
    rw [if_pos (by omega)]
  have hutf16 : utf16Length (String.ofList p.sessionText) = p.sessionText.length := by
    rw [utf16Length, String.toList_ofList, List.map_congr_left hascii]
    simp
  have hsafe : ∀ c ∈ p.sessionText, isSafeSessionCharacter c = true := by
    intro c hc
    cases sessionText_spec p c hc with
    | inl h =>
      simp only [Char.isDigit, Bool.and_eq_true, decide_eq_true_eq] at h
      have hdigit : '0' ≤ c ∧ c ≤ '9' := h
      simp only [isSafeSessionCharacter, hdigit, decide_true, Bool.and_self, Bool.or_true, Bool.true_or]
    | inr h =>
      rw [h]
      decide
  have hnonempty : (String.ofList p.sessionText).isEmpty = false := by
    rw [Bool.eq_false_iff]
    intro hempty
    rw [String.isEmpty_iff] at hempty
    have hnil : p.sessionText = [] := by
      rw [← String.toList_ofList (l := p.sessionText), hempty]
      rfl
    rw [hnil] at hlength
    simp at hlength
  have hshort : ¬ 31 < utf16Length (String.ofList p.sessionText) := by omega
  simp only [isSafeSessionId, hnonempty, hshort, decide_false, Bool.or_self, Bool.false_eq_true,
    ↓reduceIte, String.toList_ofList, List.all_eq_true]
  exact hsafe

theorem check_hello : Session.check p.processId {} p.helloEvent.delivered =
    .ok (⟨p.processId, String.ofList p.sessionText⟩,
      .connected (helloIdentity p.processId p.helloEvent.delivered)) := by
  have hsafe := isSafeSessionId_session p
  rw [← delivered_hello p] at hsafe ⊢
  have htype : p.helloEvent.delivered.messageType = .hello := rfl
  have hprocessId : p.helloEvent.delivered.processId = p.processId := rfl
  simp only [Session.check, Option.any_none, Bool.false_eq_true, ↓reduceIte, htype, hprocessId, hsafe,
    ne_eq, not_true_eq_false, Bool.not_true]

end Session

section Agreement

variable {p : Producer} {throws : List Callback → Bool}

variable (throws) in
/-- A session refuses nothing a producer has completely written. -/
theorem frames_written {actions : List (Action Event)} (hruns : p.Runs actions)
    (hdrawn : (State.after actions).drawn < 2 ^ 64) {k : Fin kSinkCount}
    {c : List (PipeEntry Event)} (hc : c ∈ ((State.after actions).sinks k).connections) :
    let s := Session.frames throws p.processId {} ((written c).map fun f => (p.sentEvent f).delivered)
    (s.failure = none ∨ s.failure = some .callbackException) ∧
    (.hello ∈ written c → (∀ calls, throws calls = false) →
      s.failure = none ∧ s.callbacks = .connected (helloIdentity p.processId p.helloEvent.delivered) ::
        (written c).tail.map fun f =>
          .frameReceived ⟨p.processId, String.ofList p.sessionText⟩ (p.sentEvent f).delivered) := by
  have hformed := (State.after_formed actions).sink k
  have hvalid := State.after_valid hdrawn
  have hincreasing := delivered_increasing p (hvalid.sequence ▸ hdrawn) (hvalid.sink k) hformed hc
  have hsendable := sendable_written hruns hc
  rcases hformed.hello_first c hc with hnil | ⟨rest, hwritten, hrest⟩
  · rw [hnil]
    exact ⟨Or.inl rfl, nofun⟩
  · rw [hwritten] at hincreasing hsendable ⊢
    have hframes : ∀ frame ∈ rest.map fun f => (p.sentEvent f).delivered,
        frame.messageType ≠ .hello ∧ frame.processId = p.processId := by
      intro frame hframe
      obtain ⟨f, hf, rfl⟩ := List.mem_map.mp hframe
      obtain ⟨hsend, htype⟩ := hsendable f (List.mem_cons_of_mem _ hf)
      refine ⟨htype ?_, hsend.processId⟩
      rintro rfl
      exact hrest hf
    have hhello := Session.frame_of_check throws rfl (check_hello p)
    have hopen : (Session.frame throws p.processId {} p.helloEvent.delivered).Open
        ⟨p.processId, String.ofList p.sessionText⟩ p.helloEvent.delivered.sequence := by
      rw [hhello]
      refine ⟨rfl, rfl, ?_⟩
      split
      · exact Or.inr rfl
      · exact Or.inl rfl
    obtain ⟨hfailure, hcalls⟩ := hopen.frames throws hincreasing hframes
    refine ⟨hfailure, ?_⟩
    intro _ hnever
    have hnone : (Session.frame throws p.processId {} p.helloEvent.delivered).failure = none := by
      rw [hhello]
      simp only [hnever, Bool.false_eq_true, ↓reduceIte]
    have hall := hcalls hnever hnone
    refine ⟨hall.1, hall.2.trans ?_⟩
    rw [hhello, List.map_map]
    rfl

theorem body_of_parse {client : Client} {processId : UInt32} {frames : List ProtocolFrame}
    {rest : List UInt8} (hclient : client.clientProcessId = some processId) (hzero : processId ≠ 0)
    (h : framing.parse (stream client.reads) = (frames, .ok rest)) :
    client.body = Session.finishReads client.ending
      (Session.frames client.throws processId {} frames, rest) := by
  rw [body_of_verified hclient hzero, session_of_wellFormed client.ending (congrArg Prod.snd h), h]

theorem finishReads_of_some {s : Session} {f : Failure} (h : s.failure = some f) (ending : Ending)
    (rest : List UInt8) : Session.finishReads ending (s, rest) = s := by
  simp only [Session.finishReads, h]

theorem finishReads_protocolException {ending : Ending} {s : Session} {rest : List UInt8}
    (hs : s.failure = none ∨ s.failure = some .callbackException) {e : ProtocolException}
    (h : (Session.finishReads ending (s, rest)).failure = some (.protocolException e)) :
    e = .truncatedFrameAtDisconnect ∧ rest ≠ [] := by
  cases hs with
  | inr hs =>
    rw [finishReads_of_some hs, hs] at h
    cases h
  | inl hs =>
    by_cases hrest : rest = []
    · cases ending <;> simp [Session.finishReads, hs, complete, hrest, Session.throw] at h
    · have hlength : rest.length ≠ 0 := fun hzero => hrest (List.eq_nil_of_length_eq_zero hzero)
      cases ending with
      | failed swallowed => simp [Session.finishReads, hs, Session.throw] at h
      | closed | stopped =>
        simp only [Session.finishReads, hs, complete, hlength, ne_eq, not_false_eq_true, ↓reduceIte,
          Session.throw, Option.some.injEq, Failure.protocolException.injEq] at h
        exact ⟨h.symm, hrest⟩

theorem finishReads_callbacks (ending : Ending) (s : Session) (rest : List UInt8) :
    (Session.finishReads ending (s, rest)).callbacks = s.callbacks := by
  cases hs : s.failure with
  | some f => rw [finishReads_of_some hs]
  | none =>
    cases ending with
    | failed swallowed =>
      simp only [Session.finishReads, hs]
      exact (s.throw_callbacks _).1
    | closed | stopped =>
      cases hcomplete : complete rest with
      | error e =>
        simp only [Session.finishReads, hs, hcomplete]
        exact (s.throw_callbacks _).1
      | ok u => simp only [Session.finishReads, hs, hcomplete]

/-- The plug-in takes from a connection exactly what the proxy's worker wrote on it, whatever the
reads, the interleaving and the failures of the pipe. -/
theorem agreement (p : Producer) (actions : List (Action Event)) (hruns : p.Runs actions)
    (hdrawn : (State.after actions).drawn < 2 ^ 64) (k : Fin kSinkCount)
    (c : List (PipeEntry Event)) (hc : c ∈ ((State.after actions).sinks k).connections)
    (client : Client) (hclient : client.clientProcessId = some p.processId)
    (hstream : stream client.reads = p.bytes c) :
    (∀ e, client.body.failure = some (.protocolException e) →
      e = .truncatedFrameAtDisconnect ∧
        ∃ opened f bytes, 0 < bytes ∧ c = opened ++ [.frame f (.failed bytes)]) ∧
    (.hello ∈ written c → (∀ calls, client.throws calls = false) →
      (runClient client).filter Callback.isDelivery =
        .connected (helloIdentity p.processId p.helloEvent.delivered) ::
          (written c).tail.map fun f =>
            .frameReceived ⟨p.processId, String.ofList p.sessionText⟩ (p.sentEvent f).delivered) := by
  obtain ⟨tail, hparse, htail⟩ := parse_bytes hruns hc
  rw [← hstream] at hparse
  have hbody := body_of_parse hclient p.processId_ne hparse
  obtain ⟨hfailure, hcalls⟩ := frames_written client.throws hruns hdrawn hc
  constructor
  · intro e he
    rw [hbody] at he
    obtain ⟨htruncated, hrest⟩ := finishReads_protocolException hfailure he
    exact ⟨htruncated, htail hrest⟩
  · intro hhello hnever
    have hcallbacks : client.body.callbacks =
        .connected (helloIdentity p.processId p.helloEvent.delivered) ::
          (written c).tail.map fun f =>
            .frameReceived ⟨p.processId, String.ofList p.sessionText⟩ (p.sentEvent f).delivered := by
      rw [hbody, finishReads_callbacks]
      exact (hcalls hhello hnever).2
    have hdelivering : client.body.Delivering := by
      intro callback hmem
      rw [hcallbacks] at hmem
      cases hmem with
      | head => rfl
      | tail _ hmem =>
        obtain ⟨f, -, rfl⟩ := List.mem_map.mp hmem
        rfl
    rw [← hcallbacks]
    exact hdelivering.filter_trace client.running

end Agreement

section Example

theorem exampleProcessId_ne : (7 : UInt32) ≠ 0 := by decide

def exampleProducer : Producer where
  processId := 7
  processId_ne := exampleProcessId_ne
  sessionTicks := 5000
  qpcFrequency := 10000000
  win64 := true
  basename := "game.exe".toList
  effectKindFromGuid := fun _ => .unknown
  clock := fun sequence => sequence.toUInt64

def pauseEvent : Event := exampleProducer.emitDeviceCommand 1 4 0

def wholeConnection (c : List (PipeEntry Event)) (hnonempty : exampleProducer.bytes c ≠ [])
    (hsize : (exampleProducer.bytes c).length ≤ ReadBufferSize) : Client where
  clientProcessId := some 7
  reads := [⟨exampleProducer.bytes c, hnonempty, hsize⟩]

theorem runs_lateViewer (n : Nat) : exampleProducer.Runs (lateViewer pauseEvent n) := by
  intro event hmem
  have heq : event = pauseEvent := by
    simp only [lateViewer, greeting, List.mem_append, List.mem_cons, List.mem_replicate, reduceCtorEq,
      Action.emit.injEq, List.not_mem_nil, false_or, or_false] at hmem
    cases hmem with
    | inl h => exact h.2
    | inr h => exact h
  rw [heq]
  exact .emitDeviceCommand 1 4 0

/-- What the late viewer's connection carries: the Hello, and the event under its number. -/
def lateConnection (q : Nat) : List (PipeEntry Event) :=
  [.frame .hello .ok, .frame (.event ⟨q, pauseEvent⟩) .ok]

theorem mem_lateConnection (n : Nat) : lateConnection (increment64 (n % 2 ^ 64)) ∈
    ((State.after (lateViewer pauseEvent n)).sinks viewerSink).connections := by
  have hpipe := connection_lateViewer pauseEvent n
  exact List.mem_append_right _ (List.mem_singleton.mpr hpipe.symm)

theorem sent_lateConnection (q : Nat) : ∀ f r, .frame f r ∈ lateConnection q → r = .ok := by
  intro f r hmem
  simp only [lateConnection, List.mem_cons, List.not_mem_nil, or_false, PipeEntry.frame.injEq] at hmem
  cases hmem with
  | inl h => exact h.2
  | inr h => exact h.2

theorem bytes_lateConnection (q : Nat) : exampleProducer.bytes (lateConnection q) =
    ([.hello, .event ⟨q, pauseEvent⟩].flatMap fun f =>
      serializeEvent (exampleProducer.sentEvent f)) ++ [] := by
  rw [List.append_nil]
  exact bytes_of_sent exampleProducer (sent_lateConnection q)

theorem parse_lateConnection (q : Nat) : framing.parse (exampleProducer.bytes (lateConnection q)) =
    ([exampleProducer.helloEvent.delivered,
      (exampleProducer.sentEvent (.event ⟨q, pauseEvent⟩)).delivered], .ok []) := by
  have hsendable : ∀ f ∈ [.hello, .event ⟨q, pauseEvent⟩],
      Sendable exampleProducer (exampleProducer.sentEvent f) := by
    intro f hf
    simp only [List.mem_cons, List.not_mem_nil, or_false] at hf
    cases hf with
    | inl h => exact h ▸ sendable_helloEvent
    | inr h => exact h ▸ sendable_stamped (sendable_wrapped (.emitDeviceCommand 1 4 0)).1
  rw [bytes_lateConnection, Framing.parse_flatMap fun f hf more => (hsendable f hf).front more,
    parse_nil]
  rfl

theorem length_lateConnection (q : Nat) : exampleProducer.bytes (lateConnection q) ≠ [] ∧
    (exampleProducer.bytes (lateConnection q)).length ≤ ReadBufferSize := by
  have hlength : (exampleProducer.bytes (lateConnection q)).length =
      (serializeEvent exampleProducer.helloEvent).length +
        (serializeEvent (exampleProducer.sentEvent (.event ⟨q, pauseEvent⟩))).length := by
    simp [bytes_lateConnection, Producer.sentEvent]
  have hhello := length_serializeEvent exampleProducer.helloEvent
  have hevent := length_serializeEvent (exampleProducer.sentEvent (.event ⟨q, pauseEvent⟩))
  constructor
  · intro hnil
    rw [hnil, List.length_nil] at hlength
    omega
  · rw [hlength, ReadBufferSize]
    omega

def lateClient (q : Nat) : Client :=
  wholeConnection (lateConnection q) (length_lateConnection q).1 (length_lateConnection q).2

theorem stream_lateClient (q : Nat) :
    stream (lateClient q).reads = exampleProducer.bytes (lateConnection q) := List.append_nil _

theorem agreement_lateViewer :
    (∀ e, (lateClient 1).body.failure ≠ some (.protocolException e)) ∧
    (runClient (lateClient 1)).filter Callback.isDelivery =
      [.connected (helloIdentity 7 exampleProducer.helloEvent.delivered),
        .frameReceived ⟨7, String.ofList exampleProducer.sessionText⟩
          (exampleProducer.sentEvent (.event ⟨1, pauseEvent⟩)).delivered] := by
  have hagreement := agreement exampleProducer (lateViewer pauseEvent 0) (runs_lateViewer 0)
    (drawn_lt (by decide)) viewerSink (lateConnection 1) (mem_lateConnection 0) (lateClient 1) rfl
    (stream_lateClient 1)
  refine ⟨?_, hagreement.2 (List.mem_cons_self ..) fun _ => rfl⟩
  intro e he
  obtain ⟨-, opened, f, bytes, -, hfailed⟩ := hagreement.1 e he
  have hlast := congrArg List.getLast? hfailed
  rw [List.getLast?_append] at hlast
  simp [lateConnection] at hlast

/-- The number behind the largest is 0: the first event of a connection that is greeted just before it
is refused. -/
theorem wrapped_sequence_is_refused :
    ∃ (p : Producer) (actions : List (Action Event)) (k : Fin kSinkCount)
      (c : List (PipeEntry Event)) (client : Client),
      p.Runs actions ∧ c ∈ ((State.after actions).sinks k).connections ∧
      client.clientProcessId = some p.processId ∧ stream client.reads = p.bytes c ∧
      (∀ f r, .frame f r ∈ c → r = .ok) ∧
      client.body.failure = some (.protocolException .frameSequenceIsNotStrictlyIncreasing) := by
  have hparse := parse_lateConnection 0
  rw [← stream_lateClient] at hparse
  refine ⟨exampleProducer, lateViewer pauseEvent (2 ^ 64 - 1), viewerSink, lateConnection 0,
    lateClient 0, runs_lateViewer _, mem_lateConnection (2 ^ 64 - 1), rfl, stream_lateClient 0,
    sent_lateConnection 0, ?_⟩
  have hgreeted := Session.frame_of_check (lateClient 0).throws rfl (check_hello exampleProducer)
  have hrefused : Session.check exampleProducer.processId
      (Session.frame (lateClient 0).throws exampleProducer.processId {}
        exampleProducer.helloEvent.delivered)
      (exampleProducer.sentEvent (.event ⟨0, pauseEvent⟩)).delivered =
      .error .frameSequenceIsNotStrictlyIncreasing := by
    rw [hgreeted]
    rfl
  have hframes : (Session.frames (lateClient 0).throws exampleProducer.processId {}
      [exampleProducer.helloEvent.delivered,
        (exampleProducer.sentEvent (.event ⟨0, pauseEvent⟩)).delivered]).failure =
      some (.protocolException .frameSequenceIsNotStrictlyIncreasing) := by
    rw [Session.frames, List.foldl_cons, List.foldl_cons, List.foldl_nil,
      Session.frame_of_error _ (by rw [hgreeted]; rfl) hrefused]
  have hclient : (lateClient 0).clientProcessId = some exampleProducer.processId := rfl
  rw [body_of_parse hclient exampleProcessId_ne hparse, finishReads_of_some hframes]
  exact hframes

end Example

end FfbInterceptor.Server
