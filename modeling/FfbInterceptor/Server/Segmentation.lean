import FfbInterceptor.Server.Client

/-! How the calls of a session depend on the division of its stream into reads. -/
namespace FfbInterceptor.Server
open FfbInterceptor.Library FfbInterceptor.Protocol

section Session

variable {throws : List Callback → Bool} {clientProcessId : UInt32}

@[simp] theorem Session.throw_of_some {s : Session} {f : Failure} (h : s.failure = some f)
    (g : Failure) : s.throw g = s := by
  simp only [Session.throw, h]

@[simp] theorem Session.throw_failure {s : Session} (h : s.failure = none) (g : Failure) :
    s.throw g = { s with failure := some g } := by
  simp only [Session.throw, h]

theorem Session.frame_of_some {s : Session} {f : Failure} (h : s.failure = some f)
    (frame : ProtocolFrame) : s.frame throws clientProcessId frame = s := by
  simp only [Session.frame, h]

theorem Session.frames_of_some {s : Session} {f : Failure} (h : s.failure = some f)
    (frames : List ProtocolFrame) : s.frames throws clientProcessId frames = s := by
  induction frames with
  | nil => rfl
  | cons frame frames ih =>
    rw [Session.frames, List.foldl_cons, Session.frame_of_some h]
    exact ih

theorem Session.frames_append (s : Session) (xs ys : List ProtocolFrame) :
    s.frames throws clientProcessId (xs ++ ys) =
      (s.frames throws clientProcessId xs).frames throws clientProcessId ys :=
  List.foldl_append

theorem reads_of_some {s : Session} {f : Failure} (h : s.failure = some f) (buffer : List UInt8)
    (reads : List Read) :
    reads.foldl (Session.read throws clientProcessId) (s, buffer) = (s, buffer) := by
  induction reads with
  | nil => rfl
  | cons read reads ih =>
    have hread : Session.read throws clientProcessId (s, buffer) read = (s, buffer) := by
      simp only [Session.read, h]
    rw [List.foldl_cons, hread]
    exact ih

end Session

section Reads

variable {throws : List Callback → Bool} {clientProcessId : UInt32}

def Session.fed (throws : List Callback → Bool) (clientProcessId : UInt32) (s : Session)
    (fed : List ProtocolFrame × Except ProtocolException (List UInt8)) : Session :=
  match fed.2 with
  | .ok _ => s.frames throws clientProcessId fed.1
  | .error e => (s.frames throws clientProcessId fed.1).throw (.protocolException e)

theorem Session.fed_append (s : Session) (as bs : List ProtocolFrame)
    (result : Except ProtocolException (List UInt8)) :
    s.fed throws clientProcessId (as ++ bs, result) =
      (s.frames throws clientProcessId as).fed throws clientProcessId (bs, result) := by
  cases result with
  | ok rest => exact s.frames_append as bs
  | error e => simp only [Session.fed, s.frames_append as bs]

theorem Session.fed_of_some {s : Session} {f : Failure} (h : s.failure = some f)
    (fed : List ProtocolFrame × Except ProtocolException (List UInt8)) :
    s.fed throws clientProcessId fed = s := by
  cases hresult : fed.2 with
  | ok rest => simp only [Session.fed, hresult, Session.frames_of_some h]
  | error e => simp only [Session.fed, hresult, Session.frames_of_some h, Session.throw_of_some h]

/-- A read within the accumulator's limits: the frames it completes are handled, an error ends all. -/
theorem Session.read_eq {s : Session} {buffer : List UInt8} (hs : s.failure = none)
    (hbuffer : framing.front buffer = .more) (read : Read) :
    Session.read throws clientProcessId (s, buffer) read =
      match framing.parse (buffer ++ read.bytes) with
      | (_, .error e) => (s.throw (.protocolException e), buffer)
      | (as, .ok rest) => (s.frames throws clientProcessId as, rest) := by
  have hmore := length_lt_of_more hbuffer
  have hsize := read.size_le
  have hlimit : buffer.length + read.bytes.length ≤ bufferLength := by
    simp only [bufferLength, MaximumFrameSize, ReadBufferSize] at *
    omega
  simp only [Session.read, hs, feed_eq_parse hlimit]
  cases framing.parse (buffer ++ read.bytes) with
  | mk as result => cases result <;> rfl

variable (throws clientProcessId) in
/-- A session handles the frames its reads complete, and fails at a malformed one. -/
theorem reads_eq_feedAll (s : Session) {buffer : List UInt8} (hbuffer : framing.front buffer = .more)
    (reads : List Read) :
    (reads.foldl (Session.read throws clientProcessId) (s, buffer)).1 =
      s.fed throws clientProcessId (framing.feedAll buffer (reads.map Read.bytes)) ∧
    ∀ rest, (framing.feedAll buffer (reads.map Read.bytes)).2 = .ok rest →
      (reads.foldl (Session.read throws clientProcessId) (s, buffer)).1.failure = none →
      (reads.foldl (Session.read throws clientProcessId) (s, buffer)).2 = rest := by
  induction reads generalizing s buffer with
  | nil =>
    refine ⟨rfl, ?_⟩
    intro rest hrest _
    cases hrest
    rfl
  | cons read reads ih =>
    cases hs : s.failure with
    | some f =>
      rw [reads_of_some hs, Session.fed_of_some hs]
      refine ⟨rfl, ?_⟩
      intro rest _ hnone
      rw [hs] at hnone
      cases hnone
    | none =>
      rw [List.foldl_cons, Session.read_eq hs hbuffer, List.map_cons]
      cases hparse : framing.parse (buffer ++ read.bytes) with
      | mk as result =>
        cases result with
        | error e =>
          have hthrown : (s.throw (.protocolException e)).failure = some (.protocolException e) := by
            rw [Session.throw_failure hs]
          simp only [Framing.feedAll, hparse]
          rw [reads_of_some hthrown]
          refine ⟨rfl, ?_⟩
          intro rest hrest
          cases hrest
        | ok rest =>
          simp only [Framing.feedAll, hparse, Session.fed_append]
          exact ih _ (Framing.front_rest hparse)

end Reads

section Handed

variable (throws : List Callback → Bool) (clientProcessId : UInt32)

/-- How many of the frames pass the checks of the session, until a call throws. -/
def Session.handed (s : Session) : List ProtocolFrame → Nat
  | [] => 0
  | frame :: frames =>
    match s.failure, s.check clientProcessId frame with
    | none, .ok _ => Session.handed (s.frame throws clientProcessId frame) frames + 1
    | _, _ => 0

def Callback.isDelivery : Callback → Bool
  | .connected _ | .frameReceived _ _ => true
  | .disconnected _ | .protocolError => false

/-- Until its catch clauses a session only hands frames on. -/
def Session.Delivering (s : Session) : Prop := ∀ callback ∈ s.callbacks, callback.isDelivery = true

variable {throws clientProcessId}

theorem Session.check_delivery {s : Session} {frame : ProtocolFrame} {key : SourceKey}
    {callback : Callback} (h : s.check clientProcessId frame = .ok (key, callback)) :
    callback.isDelivery = true := by
  unfold Session.check at h
  split at h
  · cases h
  · split at h
    · split at h
      · cases h
      · split at h
        · cases h
        · split at h
          · cases h
          · cases h
            rfl
    · split at h
      · cases h
      · split at h
        · cases h
        · cases h
          rfl

variable (throws) in
theorem Session.frame_of_ok {s : Session} {frame : ProtocolFrame} {key : SourceKey}
    {callback : Callback} (hs : s.failure = none)
    (h : s.check clientProcessId frame = .ok (key, callback)) :
    (s.frame throws clientProcessId frame).callbacks = s.callbacks ++ [callback] ∧
    (s.frame throws clientProcessId frame).sourceKey = some key := by
  simp only [Session.frame, hs, h]
  split
  · exact ⟨rfl, rfl⟩
  · exact ⟨rfl, rfl⟩

variable (throws) in
theorem Session.frame_of_error {s : Session} {frame : ProtocolFrame} {e : ProtocolException}
    (hs : s.failure = none) (h : s.check clientProcessId frame = .error e) :
    s.frame throws clientProcessId frame = { s with failure := some (.protocolException e) } := by
  simp only [Session.frame, hs, h, Session.throw]

theorem Session.handed_of_some {s : Session} {f : Failure} (h : s.failure = some f)
    (frames : List ProtocolFrame) : s.handed throws clientProcessId frames = 0 := by
  cases frames with
  | nil => rfl
  | cons frame frames => simp only [Session.handed, h]

theorem Session.handed_take (s : Session) (frames : List ProtocolFrame) (k : Nat) :
    s.handed throws clientProcessId (frames.take k) =
      min k (s.handed throws clientProcessId frames) := by
  induction frames generalizing s k with
  | nil => simp [Session.handed]
  | cons frame frames ih =>
    cases k with
    | zero => simp [Session.handed]
    | succ k =>
      rw [List.take_succ_cons]
      cases hs : s.failure with
      | some f => simp only [Session.handed_of_some hs, Nat.min_zero]
      | none =>
        cases hcheck : s.check clientProcessId frame with
        | error e => simp only [Session.handed, hs, hcheck, Nat.min_zero]
        | ok called =>
          simp only [Session.handed, hs, hcheck, ih]
          omega

/-- The frames behind the handed ones change neither the calls nor the key. -/
theorem Session.frames_eq_take_handed (s : Session) (frames : List ProtocolFrame) :
    (s.frames throws clientProcessId frames).callbacks = (s.frames throws clientProcessId
      (frames.take (s.handed throws clientProcessId frames))).callbacks ∧
    (s.frames throws clientProcessId frames).sourceKey = (s.frames throws clientProcessId
      (frames.take (s.handed throws clientProcessId frames))).sourceKey := by
  induction frames generalizing s with
  | nil => exact ⟨rfl, rfl⟩
  | cons frame frames ih =>
    cases hs : s.failure with
    | some f => simp only [Session.frames_of_some hs, and_self]
    | none =>
      cases hcheck : s.check clientProcessId frame with
      | error e =>
        have hframe := Session.frame_of_error throws hs hcheck
        have hrest : s.frames throws clientProcessId (frame :: frames) =
            { s with failure := some (.protocolException e) } := by
          rw [Session.frames, List.foldl_cons, hframe]
          exact Session.frames_of_some rfl frames
        simp only [hrest, Session.handed, hs, hcheck, List.take_zero]
        exact ⟨rfl, rfl⟩
      | ok called =>
        simp only [Session.handed, hs, hcheck, List.take_succ_cons]
        exact ih (s.frame throws clientProcessId frame)

theorem Session.length_callbacks (s : Session) (frames : List ProtocolFrame) :
    (s.frames throws clientProcessId frames).callbacks.length =
      s.callbacks.length + s.handed throws clientProcessId frames := by
  induction frames generalizing s with
  | nil => rfl
  | cons frame frames ih =>
    cases hs : s.failure with
    | some f =>
      simp only [Session.frames_of_some hs, Session.handed_of_some hs, Nat.add_zero]
    | none =>
      have hstep := ih (s.frame throws clientProcessId frame)
      cases hcheck : s.check clientProcessId frame with
      | error e =>
        have hframe := Session.frame_of_error throws hs hcheck
        have hzero : (s.frame throws clientProcessId frame).handed throws clientProcessId frames = 0 :=
          Session.handed_of_some (by rw [hframe]) frames
        rw [hzero, hframe] at hstep
        simp only [Session.handed, hs, hcheck]
        rw [Session.frames, List.foldl_cons, hframe]
        exact hstep
      | ok called =>
        have hcallbacks := (Session.frame_of_ok throws hs hcheck).1
        rw [hcallbacks, List.length_append, List.length_singleton] at hstep
        simp only [Session.handed, hs, hcheck]
        rw [Session.frames, List.foldl_cons]
        exact hstep.trans (by omega)

theorem Session.Delivering.frame {s : Session} (h : s.Delivering) (frame : ProtocolFrame) :
    (s.frame throws clientProcessId frame).Delivering := by
  cases hs : s.failure with
  | some f => rwa [Session.frame_of_some hs]
  | none =>
    cases hcheck : s.check clientProcessId frame with
    | error e => rwa [Session.frame_of_error throws hs hcheck]
    | ok called =>
      intro callback hmem
      rw [(Session.frame_of_ok throws hs hcheck).1, List.mem_append] at hmem
      cases hmem with
      | inl hmem => exact h callback hmem
      | inr hmem =>
        rw [List.mem_singleton] at hmem
        rw [hmem]
        exact Session.check_delivery hcheck

theorem Session.Delivering.frames {s : Session} (h : s.Delivering) (frames : List ProtocolFrame) :
    (s.frames throws clientProcessId frames).Delivering := by
  induction frames generalizing s with
  | nil => exact h
  | cons frame frames ih => exact ih (h.frame frame)

end Handed

section Trace

variable {throws : List Callback → Bool} {clientProcessId : UInt32}

/-- The catch clauses count every exception but a swallowed read error. -/
def Session.Counted (s : Session) : Prop := s.failure ≠ some (.readException true)

theorem Session.Counted.frames {s : Session} (h : s.Counted) (frames : List ProtocolFrame) :
    (s.frames throws clientProcessId frames).Counted := by
  induction frames generalizing s with
  | nil => exact h
  | cons frame frames ih =>
    apply ih
    cases hs : s.failure with
    | some f => rwa [Session.frame_of_some hs]
    | none =>
      simp only [Session.Counted, Session.frame, hs]
      split
      · simp [Session.throw, hs]
      · split <;> simp [Session.throw]

theorem Session.Counted.throw {s : Session} (h : s.Counted) (e : ProtocolException) :
    (s.throw (.protocolException e)).Counted ∧ (s.throw (.protocolException e)).failure ≠ none := by
  cases hs : s.failure with
  | none => simp [Session.Counted, Session.throw, hs]
  | some f =>
    rw [Session.throw_of_some hs]
    exact ⟨h, by simp [hs]⟩

theorem Session.throw_callbacks (s : Session) (f : Failure) :
    (s.throw f).callbacks = s.callbacks ∧ (s.throw f).sourceKey = s.sourceKey := by
  cases hs : s.failure <;> simp [Session.throw, hs]

def Session.trace (throws : List Callback → Bool) (running : Bool) (s : Session) : List Callback :=
  ((s.catchFailure running).dispose throws running).callbacks

theorem Session.catchFailure_of_counted {s : Session} (hcounted : s.Counted)
    (hfailure : s.failure ≠ none) (running : Bool) :
    (s.catchFailure running).sourceKey = s.sourceKey ∧ (s.catchFailure running).callbacks =
      s.callbacks ++ if running then [.protocolError] else [] := by
  have hcatch : s.catchFailure running =
      if running then { s with callbacks := s.callbacks ++ [.protocolError] } else s := by
    unfold Session.catchFailure
    split
    · contradiction
    · contradiction
    · rfl
  rw [hcatch]
  cases running <;> simp

theorem Session.dispose_congr {s s' : Session} (hkey : s.sourceKey = s'.sourceKey)
    (hcallbacks : s.callbacks = s'.callbacks) (running : Bool) :
    (s.dispose throws running).callbacks = (s'.dispose throws running).callbacks := by
  simp only [Session.dispose, hkey]
  cases s'.sourceKey with
  | none => exact hcallbacks
  | some key =>
    simp only [hcallbacks]
    split <;> rfl

/-- After a counted exception the calls depend on the frames handed on only. -/
theorem Session.trace_congr {s s' : Session} (hs : s.Counted ∧ s.failure ≠ none)
    (hs' : s'.Counted ∧ s'.failure ≠ none) (hkey : s.sourceKey = s'.sourceKey)
    (hcallbacks : s.callbacks = s'.callbacks) (running : Bool) :
    s.trace throws running = s'.trace throws running := by
  obtain ⟨hkey₁, hcallbacks₁⟩ := Session.catchFailure_of_counted hs.1 hs.2 running
  obtain ⟨hkey₂, hcallbacks₂⟩ := Session.catchFailure_of_counted hs'.1 hs'.2 running
  apply Session.dispose_congr
  · rw [hkey₁, hkey₂, hkey]
  · rw [hcallbacks₁, hcallbacks₂, hcallbacks]

theorem Session.Delivering.filter {s : Session} (h : s.Delivering) :
    s.callbacks.filter Callback.isDelivery = s.callbacks :=
  List.filter_eq_self.mpr h

theorem Session.filter_dispose (s : Session) (running : Bool) :
    (s.dispose throws running).callbacks.filter Callback.isDelivery =
      s.callbacks.filter Callback.isDelivery := by
  unfold Session.dispose
  split
  · rfl
  · simp only
    split <;> simp [Callback.isDelivery]

theorem Session.filter_catchFailure (s : Session) (running : Bool) :
    (s.catchFailure running).callbacks.filter Callback.isDelivery =
      s.callbacks.filter Callback.isDelivery := by
  unfold Session.catchFailure
  split
  · rfl
  · rfl
  · cases running <;> simp [Callback.isDelivery]

theorem Session.Delivering.filter_trace {s : Session} (h : s.Delivering) (running : Bool) :
    (s.trace throws running).filter Callback.isDelivery = s.callbacks := by
  rw [Session.trace, Session.filter_dispose, Session.filter_catchFailure, h.filter]

end Trace

section Division

def stream (reads : List Read) : List UInt8 := (reads.map Read.bytes).flatten

/-- The well-formed frames completed by the reads before the read that shows a malformed one. -/
def framesBeforeFault (reads : List Read) : List ProtocolFrame :=
  (framing.parse (framing.untilFault [] (reads.map Read.bytes))).1

/-- The stream has no malformed frame: it ends after a frame or within one. -/
def WellFormed (bytes : List UInt8) : Prop := ∃ rest, (framing.parse bytes).2 = .ok rest

/-- How many leading frames of a stream the session checks accept, until a call throws. -/
def Client.accepted (client : Client) (bytes : List UInt8) : Nat :=
  match client.clientProcessId with
  | none | some 0 => 0
  | some processId => Session.handed client.throws processId {} (framing.parse bytes).1

theorem parse_nil : framing.parse [] = ([], .ok []) := Framing.parse_more rfl

theorem feedAll_frames_nil (reads : List Read) :
    (framing.feedAll [] (reads.map Read.bytes)).1 = framesBeforeFault reads :=
  Framing.feedAll_frames (reads.map Read.bytes) parse_nil

theorem feedAll_result_nil (reads : List Read) :
    (framing.feedAll [] (reads.map Read.bytes)).2 = (framing.parse (stream reads)).2 :=
  Framing.feedAll_result (reads.map Read.bytes) parse_nil

theorem framesBeforeFault_isPrefix (reads : List Read) :
    framesBeforeFault reads <+: (framing.parse (stream reads)).1 :=
  Framing.parse_isPrefix (Framing.untilFault_isPrefix [] _)

theorem framesBeforeFault_of_wellFormed {reads : List Read} (h : WellFormed (stream reads)) :
    framesBeforeFault reads = (framing.parse (stream reads)).1 := by
  obtain ⟨rest, hrest⟩ := h
  have hall : framing.untilFault [] (reads.map Read.bytes) = [] ++ stream reads :=
    Framing.untilFault_of_ok hrest
  rw [framesBeforeFault, hall, List.nil_append]

variable {throws : List Callback → Bool} {clientProcessId : UInt32}

theorem reads_eq (throws : List Callback → Bool) (clientProcessId : UInt32) (reads : List Read) :
    (reads.foldl (Session.read throws clientProcessId) ({}, [])).1 =
      Session.fed throws clientProcessId {} (framesBeforeFault reads,
        (framing.parse (stream reads)).2) ∧
    ∀ rest, (framing.parse (stream reads)).2 = .ok rest →
      (reads.foldl (Session.read throws clientProcessId) ({}, [])).1.failure = none →
      (reads.foldl (Session.read throws clientProcessId) ({}, [])).2 = rest := by
  have h := reads_eq_feedAll throws clientProcessId {} (show framing.front [] = .more from rfl) reads
  rw [← feedAll_frames_nil, ← feedAll_result_nil]
  exact h

theorem finishReads_congr {state state' : Session × List UInt8} (hsession : state.1 = state'.1)
    (hbuffer : state.1.failure = none → state.2 = state'.2) (ending : Ending) :
    Session.finishReads ending state = Session.finishReads ending state' := by
  cases hfailure : state.1.failure with
  | some f =>
    rw [hsession] at hfailure
    simp only [Session.finishReads, hsession, hfailure]
  | none => rw [Prod.ext hsession (hbuffer hfailure)]

theorem session_of_wellFormed {reads : List Read} {rest : List UInt8} (ending : Ending)
    (h : (framing.parse (stream reads)).2 = .ok rest) :
    Session.finishReads ending (reads.foldl (Session.read throws clientProcessId) ({}, [])) =
      Session.finishReads ending
        (Session.frames throws clientProcessId {} (framing.parse (stream reads)).1, rest) := by
  obtain ⟨hsession, hbuffer⟩ := reads_eq throws clientProcessId reads
  rw [h, framesBeforeFault_of_wellFormed ⟨rest, h⟩] at hsession
  exact finishReads_congr hsession (hbuffer rest h) ending

/-- A malformed frame lets only the frames of earlier reads through. -/
theorem session_of_malformed {reads : List Read} {e : ProtocolException} (ending : Ending)
    (h : (framing.parse (stream reads)).2 = .error e) :
    Session.finishReads ending (reads.foldl (Session.read throws clientProcessId) ({}, [])) =
      (Session.frames throws clientProcessId {} (framesBeforeFault reads)).throw
        (.protocolException e) := by
  obtain ⟨hsession, -⟩ := reads_eq throws clientProcessId reads
  rw [h] at hsession
  have hfailure : (reads.foldl (Session.read throws clientProcessId) ({}, [])).1.failure ≠ none := by
    rw [hsession]
    have hcounted : Session.Counted {} := by simp [Session.Counted]
    exact ((hcounted.frames _).throw e).2
  cases hsome : (reads.foldl (Session.read throws clientProcessId) ({}, [])).1.failure with
  | none => exact absurd hsome hfailure
  | some f =>
    simp only [Session.finishReads, hsome]
    exact hsession

theorem handed_framesBeforeFault (throws : List Callback → Bool) (clientProcessId : UInt32)
    (reads : List Read) :
    Session.handed throws clientProcessId {} (framesBeforeFault reads) =
      min (framesBeforeFault reads).length
        (Session.handed throws clientProcessId {} (framing.parse (stream reads)).1) := by
  have htake := List.prefix_iff_eq_take.mp (framesBeforeFault_isPrefix reads)
  rw [htake, Session.handed_take, ← htake]

theorem frames_congr {reads reads' : List Read} (hstream : stream reads = stream reads')
    (h : Session.handed throws clientProcessId {} (framesBeforeFault reads) =
      Session.handed throws clientProcessId {} (framesBeforeFault reads')) :
    (Session.frames throws clientProcessId {} (framesBeforeFault reads)).callbacks =
      (Session.frames throws clientProcessId {} (framesBeforeFault reads')).callbacks ∧
    (Session.frames throws clientProcessId {} (framesBeforeFault reads)).sourceKey =
      (Session.frames throws clientProcessId {} (framesBeforeFault reads')).sourceKey := by
  have htake : ∀ reads : List Read,
      (framesBeforeFault reads).take
        (Session.handed throws clientProcessId {} (framesBeforeFault reads)) =
      (framing.parse (stream reads)).1.take
        (Session.handed throws clientProcessId {} (framesBeforeFault reads)) := by
    intro reads
    have hle := handed_framesBeforeFault throws clientProcessId reads
    rw [List.prefix_iff_eq_take.mp (framesBeforeFault_isPrefix reads), List.take_take]
    rw [← List.prefix_iff_eq_take.mp (framesBeforeFault_isPrefix reads)]
    congr 1
    omega
  obtain ⟨hcallbacks, hkey⟩ := Session.frames_eq_take_handed {} (framesBeforeFault reads)
  obtain ⟨hcallbacks', hkey'⟩ := Session.frames_eq_take_handed {} (framesBeforeFault reads')
  rw [hcallbacks, hkey, hcallbacks', hkey', htake reads, htake reads', h, hstream]
  exact ⟨rfl, rfl⟩

theorem trace_of_malformed_iff {reads reads' : List Read} {e : ProtocolException}
    (hstream : stream reads = stream reads') (running : Bool) :
    ((Session.frames throws clientProcessId {} (framesBeforeFault reads)).throw
        (.protocolException e)).trace throws running =
      ((Session.frames throws clientProcessId {} (framesBeforeFault reads')).throw
        (.protocolException e)).trace throws running ↔
    Session.handed throws clientProcessId {} (framesBeforeFault reads) =
      Session.handed throws clientProcessId {} (framesBeforeFault reads') := by
  have hcounted : Session.Counted {} := by simp [Session.Counted]
  have hdelivering : Session.Delivering {} := by simp [Session.Delivering]
  have hcallbacks : ∀ reads : List Read,
      (((Session.frames throws clientProcessId {} (framesBeforeFault reads)).throw
        (.protocolException e)).trace throws running).filter Callback.isDelivery =
      (Session.frames throws clientProcessId {} (framesBeforeFault reads)).callbacks := by
    intro reads
    have hthrown := (Session.frames throws clientProcessId {} (framesBeforeFault reads)).throw_callbacks
      (.protocolException e)
    rw [Session.Delivering.filter_trace, hthrown.1]
    intro callback hmem
    rw [hthrown.1] at hmem
    exact hdelivering.frames (framesBeforeFault reads) callback hmem
  constructor
  · intro h
    have hfilter := congrArg (List.filter Callback.isDelivery) h
    rw [hcallbacks reads, hcallbacks reads'] at hfilter
    have hlength := congrArg List.length hfilter
    rw [Session.length_callbacks, Session.length_callbacks] at hlength
    exact Nat.add_left_cancel hlength
  · intro h
    obtain ⟨hcalls, hkey⟩ := frames_congr hstream h
    apply Session.trace_congr ((hcounted.frames _).throw e) ((hcounted.frames _).throw e)
    · rw [(Session.throw_callbacks _ _).2, (Session.throw_callbacks _ _).2, hkey]
    · rw [(Session.throw_callbacks _ _).1, (Session.throw_callbacks _ _).1, hcalls]

theorem body_of_verified {client : Client} {processId : UInt32}
    (h : client.clientProcessId = some processId) (hzero : processId ≠ 0) :
    client.body = Session.finishReads client.ending
      (client.reads.foldl (Session.read client.throws processId) ({}, [])) := by
  unfold Client.body
  split
  · simp_all
  · simp_all
  · rename_i other _ hother
    rw [h] at hother
    cases hother
    rfl

theorem accepted_of_verified {client : Client} {processId : UInt32}
    (h : client.clientProcessId = some processId) (hzero : processId ≠ 0) (bytes : List UInt8) :
    client.accepted bytes =
      Session.handed client.throws processId {} (framing.parse bytes).1 := by
  unfold Client.accepted
  split
  · simp_all
  · simp_all
  · rename_i other _ hother
    rw [h] at hother
    cases hother
    rfl

theorem runClient_of_verified (client : Client) (reads : List Read) {processId : UInt32}
    (h : client.clientProcessId = some processId) (hzero : processId ≠ 0) :
    runClient { client with reads := reads } = (Session.finishReads client.ending
      (reads.foldl (Session.read client.throws processId) ({}, []))).trace
        client.throws client.running := by
  have hbody : Client.body { client with reads := reads } = Session.finishReads client.ending
      (reads.foldl (Session.read client.throws processId) ({}, [])) := body_of_verified h hzero
  rw [← hbody]
  rfl

/-- Two divisions of a stream lead to the same calls exactly when the stream has no malformed frame or
as many acceptable frames are complete, in both, in the reads before the one that shows it. -/
theorem same_calls_iff (client : Client) (reads reads' : List Read)
    (hstream : stream reads = stream reads') :
    runClient { client with reads := reads } = runClient { client with reads := reads' } ↔
      WellFormed (stream reads) ∨
      min (framesBeforeFault reads).length (client.accepted (stream reads)) =
        min (framesBeforeFault reads').length (client.accepted (stream reads)) := by
  have hverified : client.clientProcessId = none ∨ client.clientProcessId = some 0 ∨
      ∃ processId, client.clientProcessId = some processId ∧ processId ≠ 0 := by
    cases client.clientProcessId with
    | none => exact Or.inl rfl
    | some processId =>
      by_cases hzero : processId = 0
      · exact Or.inr (Or.inl (congrArg some hzero))
      · exact Or.inr (Or.inr ⟨processId, rfl, hzero⟩)
  rcases hverified with hnone | hzero | ⟨processId, hsome, hzero⟩
  · simp [runClient, Client.body, Client.accepted, hnone]
  · simp [runClient, Client.body, Client.accepted, hzero]
  · rw [runClient_of_verified client reads hsome hzero, runClient_of_verified client reads' hsome hzero,
      accepted_of_verified hsome hzero]
    cases hresult : (framing.parse (stream reads)).2 with
    | ok rest =>
      have hresult' : (framing.parse (stream reads')).2 = .ok rest := hstream ▸ hresult
      have hwellFormed : WellFormed (stream reads) := ⟨rest, hresult⟩
      rw [session_of_wellFormed client.ending hresult, session_of_wellFormed client.ending hresult',
        ← hstream]
      simp only [hwellFormed, true_or]
    | error e =>
      have hresult' : (framing.parse (stream reads')).2 = .error e := hstream ▸ hresult
      have hmalformed : ¬ WellFormed (stream reads) := by
        rintro ⟨rest, hrest⟩
        rw [hresult] at hrest
        cases hrest
      have hhanded := handed_framesBeforeFault client.throws processId reads
      have hhanded' := handed_framesBeforeFault client.throws processId reads'
      rw [← hstream] at hhanded'
      simp only [session_of_malformed client.ending hresult,
        session_of_malformed client.ending hresult', hmalformed, false_or]
      rw [trace_of_malformed_iff hstream, hhanded, hhanded']

section Example

def shortHello : Event := { type := .hello, processId := 7, sessionId := filled 32 [0x73] }

def noise : List UInt8 := List.replicate 32 0

def helloRead : Read where
  bytes := serializeEvent shortHello
  nonempty := by
    have h := length_serializeEvent shortHello
    intro hnil
    rw [hnil, List.length_nil] at h
    omega
  size_le := (length_serializeEvent shortHello).2.trans (by decide)

def noiseRead : Read := ⟨noise, by decide, by decide⟩

def wholeRead : Read where
  bytes := serializeEvent shortHello ++ noise
  nonempty := List.append_ne_nil_of_left_ne_nil helloRead.nonempty noise
  size_le := by
    have h := (length_serializeEvent shortHello).2
    have hnoise : noise.length = 32 := by decide
    rw [List.length_append, hnoise, ReadBufferSize]
    omega

theorem parse_helloRead (more : List UInt8) :
    framing.parse (serializeEvent shortHello ++ more) =
      (shortHello.received "" "s" "" :: (framing.parse more).1, (framing.parse more).2) := by
  have hfront : framing.front (serializeEvent shortHello ++ more) =
      .frame (shortHello.received "" "s" "") (serializeEvent shortHello).length :=
    front_serializeEvent more (by decide) (by decide) ⟨by decide, by decide⟩ ⟨by decide, by decide⟩
      ⟨by decide, by decide⟩
  rw [Framing.parse_frame hfront, List.drop_left]

theorem parse_noise : framing.parse noise = ([], .error .badMagic) :=
  Framing.parse_malformed (by rfl)

theorem stream_wholeRead : stream [wholeRead] = stream [helloRead, noiseRead] := by
  simp [stream, wholeRead, helloRead, noiseRead]

theorem same_calls_iff_wholeRead :
    runClient { clientProcessId := some 7, reads := [wholeRead] } =
        runClient { clientProcessId := some 7, reads := [helloRead, noiseRead] } ↔
      WellFormed (stream [wholeRead]) ∨
      min (framesBeforeFault [wholeRead]).length
          (Client.accepted { clientProcessId := some 7, reads := [] } (stream [wholeRead])) =
        min (framesBeforeFault [helloRead, noiseRead]).length
          (Client.accepted { clientProcessId := some 7, reads := [] } (stream [wholeRead])) :=
  same_calls_iff { clientProcessId := some 7, reads := [] } [wholeRead] [helloRead, noiseRead]
    stream_wholeRead

/-- The frame in front of noise is lost when both arrive in one read. -/
theorem noise_hides_hello :
    stream [wholeRead] = stream [helloRead, noiseRead] ∧
    runClient { clientProcessId := some 7, reads := [wholeRead] } ≠
      runClient { clientProcessId := some 7, reads := [helloRead, noiseRead] } := by
  have hwhole : (framing.parse (stream [wholeRead])).2 = .error .badMagic := by
    simp [stream, wholeRead, parse_helloRead, parse_noise]
  have hsplit : (framing.parse (stream [helloRead, noiseRead])).2 = .error .badMagic :=
    stream_wholeRead ▸ hwhole
  have hhello : framing.parse (serializeEvent shortHello) = ([shortHello.received "" "s" ""], .ok []) := by
    have h := parse_helloRead []
    rwa [List.append_nil, parse_nil] at h
  have hnone : framesBeforeFault [wholeRead] = [] := by
    simp [framesBeforeFault, Framing.untilFault, wholeRead, parse_helloRead, parse_noise, parse_nil]
  have hone : framesBeforeFault [helloRead, noiseRead] = [shortHello.received "" "s" ""] := by
    simp [framesBeforeFault, Framing.untilFault, helloRead, noiseRead, parse_helloRead, parse_noise,
      hhello]
  refine ⟨stream_wholeRead, ?_⟩
  intro hcalls
  rw [runClient_of_verified { clientProcessId := some 7, reads := [] } [wholeRead] rfl (by decide),
    runClient_of_verified { clientProcessId := some 7, reads := [] } [helloRead, noiseRead] rfl
      (by decide),
    session_of_malformed _ hwhole, session_of_malformed _ hsplit, trace_of_malformed_iff stream_wholeRead,
    hnone, hone] at hcalls
  have hzero : Session.handed (fun _ => false) 7 {} [] = 0 := rfl
  have hone : Session.handed (fun _ => false) 7 {} [shortHello.received "" "s" ""] = 1 := by rfl
  rw [hzero, hone] at hcalls
  cases hcalls

end Example

end Division

end FfbInterceptor.Server
