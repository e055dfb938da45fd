import FfbInterceptor.Viewer.SessionSafety

/-! How often a failed session is counted (`pipe_server.py`). -/
namespace FfbInterceptor.Viewer
open FfbInterceptor.Library

section Frames

variable {clientPid : Option UInt32} {raises : List Frame → Bool} {frames part : List Frame}
  {s : Session}

/-- A session behind the frames of a stream, with its part of the error count. -/
inductive Session.Counted (clientPid : Option UInt32) (raises : List Frame → Bool)
    (frames : List Frame) (s : Session) : Prop
  | going (left : s.left = false) (errors : s.errors = 0) (failed : s.protocolFailed = false)
      (first : s.firstFrame = frames.isEmpty) (log : s.log = frames.map Entry.passed)
      (last : s.lastSequence = frames.getLast?.map Frame.sequence)
      (admissible : Admissible clientPid raises frames)
      (quiet : frames ≠ [] → raises frames = false)
  | refused (left : s.left = true) (errors : s.errors = 1) (failed : s.protocolFailed = true)
      {part : List Frame} {frame : Frame} {error : SessionError} (first : s.firstFrame = part.isEmpty)
      (log : s.log = part.map Entry.passed ++ [.refused error])
      (initial : part ++ [frame] <+: frames) (admissible : Admissible clientPid raises part)
      (quiet : part ≠ [] → raises part = false)
      (disorder : ¬ Orderly clientPid (part ++ [frame]))
  | called (left : s.left = true) (errors : s.errors = 1) (failed : s.protocolFailed = false)
      {part : List Frame} (first : s.firstFrame = false)
      (log : s.log = part.map Entry.passed ++ [.callbackRaised]) (nonempty : part ≠ [])
      (initial : part <+: frames) (admissible : Admissible clientPid raises part)
      (raised : raises part = true)

theorem Admissible.append (h : Admissible clientPid raises frames)
    (hquiet : frames ≠ [] → raises frames = false) {frame : Frame}
    (horderly : Orderly clientPid (frames ++ [frame])) :
    Admissible clientPid raises (frames ++ [frame]) where
  orderly := horderly
  quiet := by
    intro earlier hearlier hne hproper
    cases List.prefix_concat_iff.mp hearlier with
    | inl hsame => exact (hproper hsame).elim
    | inr hbefore =>
      by_cases hwhole : earlier = frames
      · exact hwhole ▸ hquiet (hwhole ▸ hne)
      · exact h.quiet earlier hbefore hne hwhole

theorem Session.Counted.frame (h : s.Counted clientPid raises frames) (frame : Frame) :
    (s.frame clientPid raises frame).Counted clientPid raises (frames ++ [frame]) := by
  have hgrows := List.prefix_append frames [frame]
  cases h with
  | refused left errors failed first log initial admissible quiet disorder =>
    rw [Session.frame_of_left left]
    exact .refused left errors failed first log (initial.trans hgrows) admissible quiet disorder
  | called left errors failed first log nonempty initial admissible raised =>
    rw [Session.frame_of_left left]
    exact .called left errors failed first log nonempty (initial.trans hgrows) admissible raised
  | going left errors failed first log last admissible quiet =>
    have hcheck := Session.check_iff frame admissible.orderly first last
    rw [Session.frame, if_neg (Bool.eq_false_iff.mp left)]
    cases hresult : s.check clientPid frame with
    | some error =>
      refine .refused rfl (congrArg (· + 1) errors) rfl first
        (congrArg (· ++ [Entry.refused error]) log) List.prefix_rfl admissible quiet ?_
      intro horderly
      rw [hcheck.mpr horderly] at hresult
      cases hresult
    | none =>
      have hnext := admissible.append quiet (hcheck.mp hresult)
      have hne : frames ++ [frame] ≠ [] :=
        List.append_ne_nil_of_right_ne_nil _ (List.cons_ne_nil _ _)
      have hlog : s.log ++ [Entry.passed frame] = (frames ++ [frame]).map Entry.passed := by
        rw [log, List.map_append, List.map_singleton]
      dsimp only
      rw [hlog, handed_passed]
      split
      · next hraises =>
        exact .called rfl (congrArg (· + 1) errors) failed rfl rfl hne List.prefix_rfl hnext hraises
      · next hraises =>
        refine .going left errors failed ?_ rfl ?_ hnext fun _ => Bool.eq_false_iff.mpr hraises
        · simp
        · simp

variable (clientPid raises) in
theorem counted_frames (frames : List Frame) :
    (({} : Session).frames clientPid raises frames).Counted clientPid raises frames := by
  induction frames using List.reverseRecOn with
  | nil =>
    refine .going rfl rfl rfl rfl rfl rfl ⟨trivial, ?_⟩ fun hne => absurd rfl hne
    intro earlier hearlier hne
    exact absurd (List.prefix_nil.mp hearlier) hne
  | append_singleton frames frame ih =>
    rw [Session.frames, List.foldl_append]
    exact ih.frame frame

end Frames

section Buffer

attribute [ext] Drained

variable {clientPid : Option UInt32} {raises : List Frame → Bool} {s : Session}

theorem nextFrame_ne_structError (buffer rest : List UInt8) :
    nextFrame buffer ≠ .raised .structError rest := by
  rw [nextFrame]
  split
  · intro h
    cases h
  · rename_i hlong
    split
    · intro h
      cases h
    · have hword : u32 buffer 8 = .ok (word32At buffer 8) := by
        apply unpackFrom_word32
        simp only [headerSize] at hlong
        omega
      rw [hword]
      dsimp only
      split
      · intro h
        cases h
      · split
        · intro h
          cases h
        · cases hdecode : decodeFrame (buffer.take (word32At buffer 8).toNat) with
          | ok frame =>
            intro h
            cases h
          | error error =>
            intro h
            cases h
            exact decodeFrame_ne_structError _ hdecode

theorem iterFramesFuel_empty {fuel : Nat} {buffer : List UInt8}
    (h : iterFramesFuel fuel buffer = ⟨[], [], none⟩) : buffer = [] := by
  cases fuel with
  | zero => exact congrArg Drained.buffer h
  | succ fuel =>
    rw [iterFramesFuel_succ] at h
    cases hnext : nextFrame buffer with
    | exhausted =>
      rw [hnext] at h
      exact congrArg Drained.buffer h
    | raised error rest =>
      rw [hnext] at h
      cases congrArg Drained.raised h
    | frame frame rest =>
      rw [hnext] at h
      cases congrArg Drained.frames h

theorem Session.frame_cases (h : s.left = false) (hfailed : s.protocolFailed = false) (frame : Frame) :
    ((s.frame clientPid raises frame).left = false ∧
      (s.frame clientPid raises frame).protocolFailed = false ∧
      (s.frame clientPid raises frame).log = s.log ++ [.passed frame]) ∨
    ((s.frame clientPid raises frame).left = true ∧
      (s.frame clientPid raises frame).protocolFailed = true) ∨
    ((s.frame clientPid raises frame).left = true ∧
      (s.frame clientPid raises frame).protocolFailed = false ∧
      (s.frame clientPid raises frame).log = s.log ++ [.passed frame, .callbackRaised]) := by
  rw [Session.frame, if_neg (Bool.eq_false_iff.mp h)]
  cases s.check clientPid frame with
  | some error => exact Or.inr (Or.inl ⟨rfl, rfl⟩)
  | none =>
    dsimp only
    split
    · exact Or.inr (Or.inr ⟨rfl, hfailed, by simp⟩)
    · exact Or.inl ⟨h, hfailed, rfl⟩

/-- A loop over the frames of a buffer that goes through, and one that a callback ends. -/
structure Session.Drains (s t : Session) (drained : Drained) : Prop where
  through : t.left = false → t.protocolFailed = false ∧ t.buf = drained.buffer ∧
    drained.raised = none ∧ t.log = s.log ++ drained.frames.map Entry.passed
  called : t.left = true → t.protocolFailed = false →
    ∃ handed, handed ≠ [] ∧ handed <+: drained.frames ∧
      t.log = s.log ++ handed.map Entry.passed ++ [.callbackRaised] ∧
      (t.buf = [] ↔ drained = ⟨handed, [], none⟩)

variable (clientPid raises) in
theorem Session.drains_framesFuel (fuel : Nat) {s : Session} (h : s.left = false)
    (hfailed : s.protocolFailed = false) :
    s.Drains (s.framesFuel clientPid raises fuel) (iterFramesFuel fuel s.buf) := by
  induction fuel generalizing s with
  | zero =>
    refine ⟨fun _ => ⟨hfailed, rfl, rfl, (List.append_nil _).symm⟩, fun hleft => ?_⟩
    rw [Session.framesFuel, h] at hleft
    cases hleft
  | succ fuel ih =>
    rw [Session.framesFuel, iterFramesFuel_succ]
    cases hnext : nextFrame s.buf with
    | exhausted =>
      refine ⟨fun _ => ⟨hfailed, rfl, rfl, (List.append_nil _).symm⟩, fun hleft => ?_⟩
      rw [h] at hleft
      cases hleft
    | raised error rest =>
      dsimp only
      refine ⟨fun hleft => ?_, fun _ hopen => ?_⟩
      · rw [Session.raise_left] at hleft
        cases hleft
      · cases error with
        | protocolError error => cases hopen
        | structError => exact absurd hnext (nextFrame_ne_structError _ _)
    | frame frame rest =>
      dsimp only
      have hbuf : (({ s with buf := rest } : Session).frame clientPid raises frame).buf = rest :=
        Session.frame_buf _ frame
      have hcases := @Session.frame_cases clientPid raises { s with buf := rest } h hfailed frame
      generalize ({ s with buf := rest } : Session).frame clientPid raises frame = next
        at hbuf hcases ⊢
      cases hcases with
      | inl hgoes =>
        obtain ⟨hleft, hopen, hlog⟩ := hgoes
        rw [if_neg (Bool.eq_false_iff.mp hleft)]
        have hrest := ih hleft hopen
        rw [hbuf] at hrest
        refine ⟨fun hthrough => ?_, fun hcalled hfine => ?_⟩
        · obtain ⟨hfine, hbuffer, hraised, hlogs⟩ := hrest.through hthrough
          refine ⟨hfine, hbuffer, hraised, ?_⟩
          rw [hlogs, hlog, List.map_cons, List.append_assoc]
          rfl
        · obtain ⟨handed, hne, hinitial, hlogs, hempty⟩ := hrest.called hcalled hfine
          refine ⟨frame :: handed, List.cons_ne_nil _ _, List.cons_prefix_cons.mpr ⟨rfl, hinitial⟩,
            ?_, ?_⟩
          · rw [hlogs, hlog, List.map_cons]
            simp
          · rw [hempty]
            constructor
            · intro hdrained
              rw [hdrained]
            · intro hdrained
              obtain ⟨hframes, hbuffer, hraised⟩ := Drained.mk.inj hdrained
              exact Drained.ext (List.cons.inj hframes).2 hbuffer hraised
      | inr hends =>
        have hleft : next.left = true := hends.elim And.left And.left
        rw [if_pos hleft]
        refine ⟨fun hthrough => ?_, fun _ hfine => ?_⟩
        · rw [hleft] at hthrough
          cases hthrough
        · cases hends with
          | inl hrefused =>
            rw [hrefused.2] at hfine
            cases hfine
          | inr hraised =>
            refine ⟨[frame], List.cons_ne_nil _ _,
              List.cons_prefix_cons.mpr ⟨rfl, List.nil_prefix⟩, ?_, ?_⟩
            · rw [hraised.2.2, List.map_singleton, List.append_assoc]
              rfl
            · rw [hbuf]
              constructor
              · rintro rfl
                cases fuel <;> rfl
              · intro hdrained
                obtain ⟨hframes, hbuffer, hraised⟩ := Drained.mk.inj hdrained
                exact iterFramesFuel_empty (Drained.ext (List.cons.inj hframes).2 hbuffer hraised)

theorem drainChunks_empty {buffer : List UInt8} {chunks : List (List UInt8)}
    (h : drainChunks buffer chunks = ⟨[], [], none⟩) : buffer = [] := by
  induction chunks generalizing buffer with
  | nil => exact congrArg Drained.buffer h
  | cons chunk chunks ih =>
    rw [drainChunks] at h
    cases hraised : (iterFrames (buffer ++ chunk)).raised with
    | some error =>
      simp only [hraised] at h
      rw [h] at hraised
      cases hraised
    | none =>
      simp only [hraised] at h
      obtain ⟨hframes, hbuffer, hrest⟩ := Drained.mk.inj h
      obtain ⟨hfirst, hmore⟩ := List.append_eq_nil_iff.mp hframes
      have hempty := ih (Drained.ext hmore hbuffer hrest)
      have hboth := iterFramesFuel_empty (Drained.ext hfirst hempty hraised)
      exact (List.append_eq_nil_iff.mp hboth).1

theorem drainChunks_cons {buffer chunk : List UInt8} (chunks : List (List UInt8))
    (h : (iterFrames (buffer ++ chunk)).raised = none) :
    drainChunks buffer (chunk :: chunks) =
      ⟨(iterFrames (buffer ++ chunk)).frames ++
          (drainChunks (iterFrames (buffer ++ chunk)).buffer chunks).frames,
        (drainChunks (iterFrames (buffer ++ chunk)).buffer chunks).buffer,
        (drainChunks (iterFrames (buffer ++ chunk)).buffer chunks).raised⟩ := by
  rw [drainChunks]
  simp only [h]

theorem drainChunks_cons_iff {buffer chunk : List UInt8} {chunks : List (List UInt8)}
    {frames : List Frame} (hne : frames ≠ [])
    (hinitial : frames <+: (iterFrames (buffer ++ chunk)).frames) :
    (∃ n, drainChunks buffer ((chunk :: chunks).take n) = ⟨frames, [], none⟩) ↔
      iterFrames (buffer ++ chunk) = ⟨frames, [], none⟩ := by
  constructor
  · intro h
    obtain ⟨n, hn⟩ := h
    cases n with
    | zero => exact absurd (congrArg Drained.frames hn).symm hne
    | succ n =>
      rw [List.take_succ_cons] at hn
      cases hraised : (iterFrames (buffer ++ chunk)).raised with
      | some error =>
        rw [drainChunks] at hn
        simp only [hraised] at hn
        rw [hn] at hraised
        cases hraised
      | none =>
        rw [drainChunks_cons _ hraised] at hn
        obtain ⟨hframes, hbuffer, hrest⟩ := Drained.mk.inj hn
        obtain ⟨more, hmore⟩ := hinitial
        rw [← hmore, List.append_assoc, List.append_right_eq_self, List.append_eq_nil_iff] at hframes
        have hempty := drainChunks_empty (Drained.ext hframes.2 hbuffer hrest)
        rw [hframes.1, List.append_nil] at hmore
        exact Drained.ext hmore.symm hempty hraised
  · intro h
    refine ⟨1, ?_⟩
    have hraised : (iterFrames (buffer ++ chunk)).raised = none := congrArg Drained.raised h
    rw [List.take_succ_cons, List.take_zero, drainChunks_cons _ hraised, h]
    simp [drainChunks]

theorem Session.reads_of_left {s : Session} (h : s.left = true) (reads : List Read) :
    reads.foldl (Session.read clientPid raises) s = s := by
  induction reads with
  | nil => rfl
  | cons read reads ih =>
    have hsame : s.read clientPid raises read = s := if_pos h
    rw [List.foldl_cons, hsame, ih]

variable (clientPid raises) in
/-- The reads of a session: it goes through them all, or a callback ends it with an empty buffer only
where the handed frames were all that had come in. -/
theorem Session.drains_reads {s : Session} (h : s.left = false) (hfailed : s.protocolFailed = false)
    (reads : List Read) :
    let t := reads.foldl (Session.read clientPid raises) s
    let bytes := reads.map Read.bytes
    (t.left = false → t.buf = (drainChunks s.buf bytes).buffer ∧
      (drainChunks s.buf bytes).raised = none) ∧
    (t.left = true → t.protocolFailed = false →
      ∃ handed, handed ≠ [] ∧ t.log = s.log ++ handed.map Entry.passed ++ [.callbackRaised] ∧
        (t.buf = [] ↔ ∃ n, drainChunks s.buf (bytes.take n) = ⟨handed, [], none⟩)) := by
  induction reads generalizing s with
  | nil =>
    refine ⟨fun _ => ⟨rfl, rfl⟩, fun hleft => ?_⟩
    rw [List.foldl_nil, h] at hleft
    cases hleft
  | cons read reads ih =>
    have hread : s.read clientPid raises read = ({ s with buf := s.buf ++ read.bytes } :
        Session).framesFuel clientPid raises (s.buf ++ read.bytes).length :=
      if_neg (Bool.eq_false_iff.mp h)
    have hdrains := @Session.drains_framesFuel clientPid raises (s.buf ++ read.bytes).length
      { s with buf := s.buf ++ read.bytes } h hfailed
    rw [← hread] at hdrains
    dsimp only
    rw [List.foldl_cons, List.map_cons]
    generalize s.read clientPid raises read = t at hdrains ⊢
    cases hleft : t.left with
    | true =>
      rw [Session.reads_of_left hleft]
      refine ⟨fun hthrough => ?_, fun _ hfine => ?_⟩
      · rw [hleft] at hthrough
        cases hthrough
      · obtain ⟨handed, hne, hinitial, hlog, hempty⟩ := hdrains.called hleft hfine
        exact ⟨handed, hne, hlog, hempty.trans (drainChunks_cons_iff hne hinitial).symm⟩
    | false =>
      obtain ⟨hfine, hbuf, hraised, hlog⟩ := hdrains.through hleft
      obtain ⟨hthrough, hcalled⟩ := ih hleft hfine
      have hraised' : (iterFrames (s.buf ++ read.bytes)).raised = none := hraised
      have hbuf' : t.buf = (iterFrames (s.buf ++ read.bytes)).buffer := hbuf
      rw [hbuf'] at hthrough hcalled
      refine ⟨fun hopen => ?_, fun hended hopen => ?_⟩
      · rw [drainChunks_cons _ hraised']
        exact hthrough hopen
      · obtain ⟨handed, hne, hlogs, hempty⟩ := hcalled hended hopen
        refine ⟨(iterFrames (s.buf ++ read.bytes)).frames ++ handed,
          List.append_ne_nil_of_right_ne_nil _ hne, ?_, hempty.trans ?_⟩
        · rw [hlogs, hlog, List.map_append, List.append_assoc s.log]
          rfl
        · constructor
          · intro hall
            obtain ⟨n, hn⟩ := hall
            refine ⟨n + 1, ?_⟩
            rw [List.take_succ_cons, drainChunks_cons _ hraised', hn]
          · intro hall
            obtain ⟨n, hn⟩ := hall
            cases n with
            | zero =>
              have hnil := (congrArg Drained.frames hn).symm
              exact absurd (List.append_eq_nil_iff.mp hnil).2 hne
            | succ n =>
              rw [List.take_succ_cons, drainChunks_cons _ hraised'] at hn
              obtain ⟨hframes, hbuffer, hrest⟩ := Drained.mk.inj hn
              exact ⟨n, Drained.ext (List.append_cancel_left hframes) hbuffer hrest⟩

end Buffer

section Raised

theorem iterFramesFuel_ne_structError (fuel : Nat) (buffer : List UInt8) :
    (iterFramesFuel fuel buffer).raised ≠ some .structError := by
  induction fuel generalizing buffer with
  | zero => nofun
  | succ fuel ih =>
    rw [iterFramesFuel_succ]
    cases hnext : nextFrame buffer with
    | exhausted => nofun
    | raised error rest =>
      intro h
      obtain rfl := Option.some.inj h
      exact nextFrame_ne_structError _ _ hnext
    | frame frame rest => exact ih rest

theorem drainChunks_ne_structError (buffer : List UInt8) (chunks : List (List UInt8)) :
    (drainChunks buffer chunks).raised ≠ some .structError := by
  induction chunks generalizing buffer with
  | nil => nofun
  | cons chunk chunks ih =>
    cases hraised : (iterFrames (buffer ++ chunk)).raised with
    | some error =>
      rw [drainChunks]
      simp only [hraised]
      rw [← hraised]
      exact iterFramesFuel_ne_structError _ _
    | none =>
      rw [drainChunks_cons _ hraised]
      exact ih _

end Raised

section Client

variable {client : Client} {part other : List Frame}

def Client.drained (client : Client) : Drained := drainChunks [] (client.reads.map Read.bytes)

/-- Every frame passes, nothing is malformed, and no callback raises: the reading itself ends. -/
structure Client.Reached (client : Client) : Prop where
  admissible : Admissible client.clientPid client.raises client.drained.frames
  quiet : client.drained.frames ≠ [] → client.raises client.drained.frames = false
  raised : client.drained.raised = none

/-- What makes a session a failed one: a refused or a malformed frame, a callback that raises, no Hello,
a partial frame at the end, or a read that fails without explanation. -/
def Client.Failed (client : Client) : Prop :=
  (∃ error, .refused error ∈ (readClient client).log) ∨
  (∃ error, .raised error ∈ (readClient client).log) ∨ .callbackRaised ∈ (readClient client).log ∨
  handed (readClient client).log = [] ∨
  (client.Reached ∧ (client.drained.buffer ≠ [] ∨ client.ending = .failed false))

structure Client.CountedOnce (client : Client) : Prop where
  at_most : (readClient client).errors ≤ 1
  exactly : client.Failed → (readClient client).errors = 1

/-- The stream starts with a Hello of the client unless it has no frame and nothing malformed; a
callback raises only where a read ended with its frame; a read fails only behind whole frames. -/
structure Client.Apart (client : Client) : Prop where
  first : ∀ frame rest, client.drained.frames = frame :: rest → Orderly client.clientPid [frame]
  malformed : client.drained.frames = [] → client.drained.raised = none
  callback : ∀ part, part ≠ [] → part <+: client.drained.frames →
    Admissible client.clientPid client.raises part → client.raises part = true →
    ∃ n, drainChunks [] ((client.reads.map Read.bytes).take n) = ⟨part, [], none⟩
  read : client.Reached → client.ending = .failed false →
    client.drained.frames ≠ [] ∧ client.drained.buffer = []

theorem Admissible.unique {clientPid : Option UInt32} {raises : List Frame → Bool} {frames : List Frame}
    (h : Admissible clientPid raises part) (h' : Admissible clientPid raises other)
    (hpart : part <+: frames) (hother : other <+: frames) (hne : part ≠ []) (hne' : other ≠ [])
    (hraises : raises part = true) (hraises' : raises other = true) : part = other := by
  cases List.prefix_or_prefix_of_prefix hpart hother with
  | inl hwithin =>
    by_contra hdiffer
    have hquiet := h'.quiet part hwithin hne hdiffer
    rw [hraises] at hquiet
    cases hquiet
  | inr hwithin =>
    by_contra hdiffer
    have hquiet := h.quiet other hwithin hne' (Ne.symm hdiffer)
    rw [hraises'] at hquiet
    cases hquiet

theorem Orderly.head {clientPid : Option UInt32} {frames rest : List Frame} {frame : Frame}
    (h : Orderly clientPid part) (hne : part ≠ []) (hinitial : part <+: frames)
    (hframes : frames = frame :: rest) : Orderly clientPid [frame] := by
  cases part with
  | nil => exact absurd rfl hne
  | cons hello part =>
    rw [hframes] at hinitial
    obtain ⟨rfl, -⟩ := List.cons_prefix_cons.mp hinitial
    exact h.initial (List.cons_prefix_cons.mpr ⟨rfl, List.nil_prefix⟩)

def Session.unexplained (s : Session) : Bool := s.firstFrame || (!s.buf.isEmpty && !s.protocolFailed)

theorem close_errors (s : Session) :
    (s.close false).errors = s.errors + if s.unexplained then 1 else 0 := by
  rw [Session.close, Session.unexplained]
  cases s.firstFrame with
  | true => rfl
  | false =>
    cases s.buf.isEmpty with
    | true => rfl
    | false =>
      cases s.protocolFailed with
      | true => rfl
      | false => rfl

theorem finishReads_of_left {s : Session} (h : s.left = true) (ending : Ending) :
    s.finishReads ending = s := if_pos h

theorem finishReads_open {s : Session} (h : s.left = false) (ending : Ending) :
    (s.finishReads ending).errors = s.errors + (if ending = .failed false then 1 else 0) ∧
      (s.finishReads ending).unexplained = s.unexplained := by
  cases ending with
  | closed => simp [Session.finishReads, h, Session.unexplained]
  | stopped => simp [Session.finishReads, h, Session.unexplained]
  | failed ordinary =>
    cases ordinary with
    | true => simp [Session.finishReads, h, Session.unexplained]
    | false => simp [Session.finishReads, h, Session.unexplained]

def Client.readAll (client : Client) : Session :=
  client.reads.foldl (Session.read client.clientPid client.raises) {}

theorem readAll_forget (client : Client) : client.readAll.forget =
    ({} : Session).after client.clientPid client.raises client.drained :=
  Session.reads_forget client.clientPid client.raises rfl client.reads

theorem readAll_log (client : Client) : (readClient client).log = client.readAll.log := by
  rw [readClient, close_log, finishReads_log]
  rfl

/-- How a session ends, and how often it is counted. -/
inductive Client.Outcome (client : Client) : Prop
  | broken {part : List Frame} {entry : Entry}
      (log : (readClient client).log = part.map Entry.passed ++ [entry])
      (errors : (readClient client).errors = if part = [] then 2 else 1)
      (apart : client.Apart ↔ part ≠ [])
  | called {part : List Frame}
      (log : (readClient client).log = part.map Entry.passed ++ [.callbackRaised])
      (empty : Bool) (errors : (readClient client).errors = if empty then 1 else 2)
      (apart : client.Apart ↔ empty = true)
  | reached (log : (readClient client).log = client.drained.frames.map Entry.passed)
      (errors : (readClient client).errors = (if client.ending = .failed false then 1 else 0) +
        if client.drained.frames = [] ∨ client.drained.buffer ≠ [] then 1 else 0)
      (apart : client.Apart ↔ (client.ending = .failed false →
        client.drained.frames ≠ [] ∧ client.drained.buffer = []))

theorem readClient_errors (hstop : client.stop = false) : (readClient client).errors =
    (client.readAll.finishReads client.ending).errors +
      if (client.readAll.finishReads client.ending).unexplained then 1 else 0 := by
  rw [readClient, hstop, close_errors]
  rfl

theorem apart_of_refused {frame : Frame} (hinitial : part ++ [frame] <+: client.drained.frames)
    (hadmissible : Admissible client.clientPid client.raises part)
    (hquiet : part ≠ [] → client.raises part = false)
    (hdisorder : ¬ Orderly client.clientPid (part ++ [frame])) : client.Apart ↔ part ≠ [] := by
  constructor
  · intro h hnil
    rw [hnil, List.nil_append] at hinitial hdisorder
    obtain ⟨rest, hrest⟩ := hinitial
    exact hdisorder (h.first frame rest hrest.symm)
  · intro hne
    have hpart : part <+: client.drained.frames := (List.prefix_append part [frame]).trans hinitial
    constructor
    · intro first rest hframes
      exact hadmissible.orderly.head hne hpart hframes
    · intro hnil
      rw [hnil] at hpart
      exact absurd (List.prefix_nil.mp hpart) hne
    · intro other hother hotherInitial hotherAdmissible hraises
      exfalso
      cases List.prefix_or_prefix_of_prefix hotherInitial hpart with
      | inl hwithin =>
        by_cases hsame : other = part
        · rw [hsame, hquiet hne] at hraises
          cases hraises
        · rw [hadmissible.quiet other hwithin hother hsame] at hraises
          cases hraises
      | inr hbeyond =>
        obtain ⟨rest, rfl⟩ := hbeyond
        cases rest with
        | nil =>
          rw [List.append_nil, hquiet hne] at hraises
          cases hraises
        | cons next rest =>
          have hnext : part ++ [next] <+: part ++ next :: rest := ⟨rest, by simp⟩
          have hsame : part ++ [frame] = part ++ [next] :=
            (List.prefix_of_prefix_length_le hinitial (hnext.trans hotherInitial)
              (by simp)).eq_of_length (by simp)
          rw [hsame] at hdisorder
          exact hdisorder (hotherAdmissible.orderly.initial hnext)
    · intro hreached
      exact absurd (hreached.admissible.orderly.initial hinitial) hdisorder

theorem apart_of_called (hne : part ≠ []) (hinitial : part <+: client.drained.frames)
    (hadmissible : Admissible client.clientPid client.raises part)
    (hraises : client.raises part = true) : client.Apart ↔
      ∃ n, drainChunks [] ((client.reads.map Read.bytes).take n) = ⟨part, [], none⟩ := by
  constructor
  · intro h
    exact h.callback part hne hinitial hadmissible hraises
  · intro hends
    constructor
    · intro first rest hframes
      exact hadmissible.orderly.head hne hinitial hframes
    · intro hnil
      rw [hnil] at hinitial
      exact absurd (List.prefix_nil.mp hinitial) hne
    · intro other hother hotherInitial hotherAdmissible hotherRaises
      have hsame := hadmissible.unique hotherAdmissible hinitial hotherInitial hne hother hraises
        hotherRaises
      exact hsame ▸ hends
    · intro hreached
      exfalso
      by_cases hwhole : part = client.drained.frames
      · rw [hwhole, hreached.quiet (hwhole ▸ hne)] at hraises
        cases hraises
      · rw [hreached.admissible.quiet part hinitial hne hwhole] at hraises
        cases hraises

theorem apart_of_going (hadmissible : Admissible client.clientPid client.raises client.drained.frames)
    (hquiet : client.drained.frames ≠ [] → client.raises client.drained.frames = false) :
    client.Apart ↔ (client.drained.frames = [] → client.drained.raised = none) ∧
      (client.drained.raised = none → client.ending = .failed false →
        client.drained.frames ≠ [] ∧ client.drained.buffer = []) := by
  constructor
  · intro h
    exact ⟨h.malformed, fun hraised => h.read ⟨hadmissible, hquiet, hraised⟩⟩
  · intro h
    constructor
    · intro first rest hframes
      have hne : client.drained.frames ≠ [] := by
        rw [hframes]
        exact List.cons_ne_nil _ _
      exact hadmissible.orderly.head hne List.prefix_rfl hframes
    · exact h.1
    · intro other hother hotherInitial hotherAdmissible hraises
      exfalso
      by_cases hwhole : other = client.drained.frames
      · rw [hwhole, hquiet (hwhole ▸ hother)] at hraises
        cases hraises
      · rw [hadmissible.quiet other hotherInitial hother hwhole] at hraises
        cases hraises
    · intro hreached
      exact h.2 hreached.raised

theorem errors_of_broken {s : Session} (hall : client.readAll.forget = s) (hstop : client.stop = false)
    (hleft : s.left = true) (herrors : s.errors = 1) (hfailed : s.protocolFailed = true)
    (hfirst : s.firstFrame = part.isEmpty) :
    (readClient client).errors = if part = [] then 2 else 1 := by
  subst hall
  have hunexplained : client.readAll.unexplained = part.isEmpty := by
    have hfailed' : client.readAll.protocolFailed = true := hfailed
    have hfirst' : client.readAll.firstFrame = part.isEmpty := hfirst
    rw [Session.unexplained, hfailed', hfirst', Bool.not_true, Bool.and_false, Bool.or_false]
  have herrors' : client.readAll.errors = 1 := herrors
  have hleft' : client.readAll.left = true := hleft
  rw [readClient_errors hstop, finishReads_of_left hleft', hunexplained, herrors']
  cases part <;> rfl

theorem handed_called (part : List Frame) :
    handed (part.map Entry.passed ++ [.callbackRaised]) = part := by
  have hpassed := handed_passed part
  rw [handed] at hpassed ⊢
  rw [List.filterMap_append, hpassed]
  exact List.append_nil part

theorem outcome (hstop : client.stop = false) : client.Outcome := by
  have hall := readAll_forget client
  have hcounted := counted_frames client.clientPid client.raises client.drained.frames
  have hlog := readAll_log client
  rw [Session.after] at hall
  generalize ({} : Session).frames client.clientPid client.raises client.drained.frames = s
    at hall hcounted
  cases hcounted with
  | refused left errors failed first log initial admissible quiet disorder =>
    rw [if_pos left] at hall
    have hlogs := (congrArg Session.log hall).trans log
    exact .broken (hlog.trans hlogs) (errors_of_broken hall hstop left errors failed first)
      (apart_of_refused initial admissible quiet disorder)
  | @called left errors failed part first log nonempty initial admissible raised =>
    rw [if_pos left] at hall
    have hlogs := (congrArg Session.log hall).trans log
    have hleft : client.readAll.left = true := (congrArg Session.left hall).trans left
    have hfailed : client.readAll.protocolFailed = false :=
      (congrArg Session.protocolFailed hall).trans failed
    have hfirst : client.readAll.firstFrame = false := (congrArg Session.firstFrame hall).trans first
    have herrors : client.readAll.errors = 1 := (congrArg Session.errors hall).trans errors
    obtain ⟨frames, -, hframes, hempty⟩ :=
      (Session.drains_reads client.clientPid client.raises rfl rfl client.reads).2 hleft hfailed
    have hsame : frames = part := by
      have hboth : frames.map Entry.passed ++ [.callbackRaised] =
          part.map Entry.passed ++ [.callbackRaised] := hframes.symm.trans hlogs
      rw [← handed_called frames, hboth, handed_called]
    have hends : client.readAll.buf = [] ↔ client.Apart := by
      rw [apart_of_called nonempty initial admissible raised, ← hsame]
      exact hempty
    refine .called (hlog.trans hlogs) client.readAll.buf.isEmpty ?_ ?_
    · rw [readClient_errors hstop, finishReads_of_left hleft, herrors, Session.unexplained, hfirst,
        hfailed]
      cases client.readAll.buf with
      | nil => rfl
      | cons byte rest => rfl
    · rw [List.isEmpty_iff]
      exact hends.symm
  | going left errors failed first log last admissible quiet =>
    rw [if_neg (Bool.eq_false_iff.mp left)] at hall
    have hapart := apart_of_going admissible quiet
    cases hraised : client.drained.raised with
    | some error =>
      rw [hraised] at hall hapart
      cases error with
      | structError => exact absurd hraised (drainChunks_ne_structError _ _)
      | protocolError error =>
        have hlogs : client.readAll.log = s.log ++ [.raised (.protocolError error)] :=
          congrArg Session.log hall
        refine .broken (hlog.trans (hlogs.trans (congrArg (· ++ _) log)))
          (errors_of_broken hall hstop rfl (congrArg (· + 1) errors) rfl first) ?_
        rw [hapart]
        simp
    | none =>
      rw [hraised] at hall hapart
      have hall' : client.readAll.forget = s := hall
      have hlogs := (congrArg Session.log hall').trans log
      have hleft : client.readAll.left = false := (congrArg Session.left hall').trans left
      have hfailed : client.readAll.protocolFailed = false :=
        (congrArg Session.protocolFailed hall').trans failed
      have hfirst : client.readAll.firstFrame = client.drained.frames.isEmpty :=
        (congrArg Session.firstFrame hall').trans first
      have herrors : client.readAll.errors = 0 := (congrArg Session.errors hall').trans errors
      have hbuf : client.readAll.buf = client.drained.buffer :=
        ((Session.drains_reads client.clientPid client.raises rfl rfl client.reads).1 hleft).1
      obtain ⟨hend, hunexplained⟩ := finishReads_open hleft client.ending
      refine .reached (hlog.trans hlogs) ?_ ?_
      · rw [readClient_errors hstop, hend, hunexplained, herrors, Session.unexplained, hfirst, hfailed,
          hbuf, Nat.zero_add]
        congr 1
        simp [List.isEmpty_iff]
      · rw [hapart]
        simp

/-- Where the reading ends by itself, only the two reasons of its last clauses fail the session. -/
theorem failed_of_reached (hlog : (readClient client).log = client.drained.frames.map Entry.passed)
    (h : client.Failed) : client.drained.frames = [] ∨ client.drained.buffer ≠ [] ∨
      client.ending = .failed false := by
  have hpassed : ∀ entry ∈ (readClient client).log, ∃ frame, Entry.passed frame = entry := by
    intro entry hentry
    rw [hlog] at hentry
    obtain ⟨frame, -, heq⟩ := List.mem_map.mp hentry
    exact ⟨frame, heq⟩
  cases h with
  | inl hrefused =>
    obtain ⟨error, herror⟩ := hrefused
    obtain ⟨frame, hframe⟩ := hpassed _ herror
    cases hframe
  | inr h =>
    cases h with
    | inl hraised =>
      obtain ⟨error, herror⟩ := hraised
      obtain ⟨frame, hframe⟩ := hpassed _ herror
      cases hframe
    | inr h =>
      cases h with
      | inl hcallback =>
        obtain ⟨frame, hframe⟩ := hpassed _ hcallback
        cases hframe
      | inr h =>
        cases h with
        | inl hnone =>
          rw [hlog, handed_passed] at hnone
          exact Or.inl hnone
        | inr hend => exact Or.inr hend.2

end Client

/-- A session that nobody stops is counted as it should be exactly where what goes wrong leaves nothing
for the last clause to count again: behind a Hello, and with an empty buffer unless the protocol is
broken. -/
theorem counted_once_iff (client : Client) (hstop : client.stop = false) :
    client.CountedOnce ↔ client.Apart := by
  cases outcome hstop with
  | @broken part entry log errors apart =>
    rw [apart]
    constructor
    · intro h hnil
      have hle := h.at_most
      rw [errors, if_pos hnil] at hle
      omega
    · intro hne
      rw [if_neg hne] at errors
      exact ⟨errors.le, fun _ => errors⟩
  | @called part log empty errors apart =>
    rw [apart]
    constructor
    · intro h
      have hle := h.at_most
      cases empty with
      | true => rfl
      | false =>
        rw [errors] at hle
        simp at hle
    · intro hempty
      rw [hempty, if_pos rfl] at errors
      exact ⟨errors.le, fun _ => errors⟩
  | reached log errors apart =>
    rw [apart]
    constructor
    · intro h hending
      have hle := h.at_most
      rw [errors, if_pos hending] at hle
      by_contra hleft
      rw [if_pos (by tauto)] at hle
      omega
    · intro h
      by_cases hending : client.ending = .failed false
      · obtain ⟨hne, hempty⟩ := h hending
        have hcounted : (readClient client).errors = 1 := by
          rw [errors, if_pos hending, if_neg (by tauto)]
        exact ⟨hcounted.le, fun _ => hcounted⟩
      · rw [if_neg hending, Nat.zero_add] at errors
        constructor
        · rw [errors]
          split <;> omega
        · intro hfailed
          have hreason := failed_of_reached log hfailed
          rw [errors, if_pos (by tauto)]

def malformedClient : Client where
  clientPid := some 1
  reads := [⟨List.replicate 32 0, by decide, by decide⟩]
  ending := .closed
  stop := false
  raises := fun _ => false

/-- It is counted where the exception is caught, and again for the missing Hello. -/
theorem malformedClient_counted_twice :
    (readClient malformedClient).errors = 2 ∧ ¬ malformedClient.CountedOnce := by
  have herrors : (readClient malformedClient).errors = 2 := by decide +kernel
  refine ⟨herrors, fun h => ?_⟩
  have hle := h.at_most
  rw [herrors] at hle
  omega

def brokenClient : Client where
  clientPid := some 1
  reads := [{
    bytes := plainFrame 1 1 1 ++ List.replicate 32 0
    nonempty := List.append_ne_nil_of_right_ne_nil _ (by decide)
    size_le := by rw [List.length_append, plainFrame_length]; decide }]
  ending := .closed
  stop := false
  raises := fun _ => false

theorem brokenClient_apart : brokenClient.Apart := by
  have hframes : brokenClient.drained.frames.map (fun frame => (frame.messageType, frame.processId)) =
      [(helloType, 1)] := by decide +kernel
  constructor
  · intro frame rest hdrained
    rw [hdrained, List.map_cons, List.cons.injEq, Prod.mk.injEq] at hframes
    obtain ⟨⟨htype, hprocess⟩, -⟩ := hframes
    exact ⟨htype, congrArg some hprocess.symm, fun _ hmem => absurd hmem List.not_mem_nil,
      List.pairwise_singleton _ _⟩
  · intro hnil
    rw [hnil] at hframes
    cases hframes
  · intro part _ _ _ hraises
    cases hraises
  · intro _ hfailed
    cases hfailed

/-- It is counted where the exception is caught, and only there. -/
theorem brokenClient_counted_once : brokenClient.Failed ∧ (readClient brokenClient).errors = 1 := by
  have hraised : .raised (.protocolError .badMagic) ∈ (readClient brokenClient).log := by decide +kernel
  have hfailed : brokenClient.Failed := Or.inr (Or.inl ⟨_, hraised⟩)
  exact ⟨hfailed, ((counted_once_iff brokenClient rfl).mpr brokenClient_apart).exactly hfailed⟩

end FfbInterceptor.Viewer
