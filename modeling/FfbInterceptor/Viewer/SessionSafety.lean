import FfbInterceptor.Viewer.Session

/-! What a session of the viewer hands on, whatever the stream, its division and the callback. -/
namespace FfbInterceptor.Viewer
open FfbInterceptor.Library

variable {clientPid : Option UInt32} {raises : List Frame → Bool}

section Generator

theorem iterFramesFuel_succ (fuel : Nat) (buffer : List UInt8) :
    iterFramesFuel (fuel + 1) buffer =
      match nextFrame buffer with
      | .exhausted => ⟨[], buffer, none⟩
      | .raised e rest => ⟨[], rest, some e⟩
      | .frame frame rest =>
        ⟨frame :: (iterFramesFuel fuel rest).frames, (iterFramesFuel fuel rest).buffer,
          (iterFramesFuel fuel rest).raised⟩ := by
  rw [iterFramesFuel, nextFrame]
  by_cases hshort : buffer.length < headerSize
  · rw [if_pos hshort, if_pos hshort]
  · rw [if_neg hshort, if_neg hshort]
    by_cases hmagic : buffer.take 4 = magic
    · rw [if_neg (not_not_intro hmagic), if_neg (not_not_intro hmagic)]
      cases u32 buffer 8 with
      | error e => rfl
      | ok frameSize =>
        dsimp only
        by_cases hrange : frameSize.toNat < headerSize ∨ maxFrameSize < frameSize.toNat
        · rw [if_pos hrange, if_pos hrange]
        · rw [if_neg hrange, if_neg hrange]
          by_cases hwait : buffer.length < frameSize.toNat
          · rw [if_pos hwait, if_pos hwait]
          · rw [if_neg hwait, if_neg hwait]
            cases decodeFrame (buffer.take frameSize.toNat) with
            | error e => rfl
            | ok frame => rfl
    · rw [if_pos hmagic, if_pos hmagic]

variable (clientPid raises) in
def Session.frames (s : Session) (frames : List Frame) : Session :=
  frames.foldl (Session.frame clientPid raises) s

variable (clientPid raises) in
/-- The frames of a buffer, then the exception behind them. -/
def Session.after (s : Session) (drained : Drained) : Session :=
  let served := s.frames clientPid raises drained.frames
  if served.left then served
  else match drained.raised with
    | none => served
    | some error => served.raise error

/-- The session without its buffer, which no check reads. -/
def Session.forget (s : Session) : Session := { s with buf := [] }

theorem Session.frame_of_left {s : Session} (h : s.left = true) (frame : Frame) :
    s.frame clientPid raises frame = s := if_pos h

theorem Session.frames_of_left {s : Session} (h : s.left = true) (frames : List Frame) :
    s.frames clientPid raises frames = s := by
  induction frames with
  | nil => rfl
  | cons frame frames ih => rwa [Session.frames, List.foldl_cons, Session.frame_of_left h]

theorem Session.after_of_left {s : Session} (h : s.left = true) (drained : Drained) :
    s.after clientPid raises drained = s := by
  rw [Session.after, Session.frames_of_left h]
  exact if_pos h

variable (clientPid raises) in
theorem Session.frame_forget (s : Session) (buffer : List UInt8) (frame : Frame) :
    (({ s with buf := buffer } : Session).frame clientPid raises frame).forget =
      s.forget.frame clientPid raises frame := by
  have hcheck : ({ s with buf := buffer } : Session).check clientPid frame =
      s.forget.check clientPid frame := rfl
  by_cases hleft : s.left = true
  · have hleft' : ({ s with buf := buffer } : Session).left = true := hleft
    rw [Session.frame_of_left hleft', Session.frame_of_left (s := s.forget) hleft]
    rfl
  · have hopen : ¬({ s with buf := buffer } : Session).left = true := hleft
    have hopen' : ¬s.forget.left = true := hleft
    rw [Session.frame, if_neg hopen, Session.frame, if_neg hopen', hcheck]
    cases s.forget.check clientPid frame with
    | some error => rfl
    | none =>
      dsimp only
      split
      · next hraises => exact (if_pos hraises).symm
      · next hquiet => exact (if_neg hquiet).symm

theorem Session.raise_forget (s : Session) (buffer : List UInt8) (error : Raised) :
    (({ s with buf := buffer } : Session).raise error).forget = s.forget.raise error := by
  cases error with
  | protocolError error => rfl
  | structError => rfl

theorem Session.raise_left (s : Session) (error : Raised) : (s.raise error).left = true := by
  cases error with
  | protocolError error => rfl
  | structError => rfl

theorem Session.forget_left (s : Session) : s.forget.left = s.left := rfl

theorem Session.frame_buf (s : Session) (frame : Frame) :
    (s.frame clientPid raises frame).buf = s.buf := by
  unfold Session.frame
  split
  · rfl
  · split
    · rfl
    · dsimp only
      split <;> rfl

variable (clientPid raises) in
/-- Handling the frames as the generator gives them is handling all that it can give, as long as the
loop is not left. -/
theorem Session.framesFuel_forget (fuel : Nat) {s : Session} (h : s.left = false) :
    (s.framesFuel clientPid raises fuel).forget =
        s.forget.after clientPid raises (iterFramesFuel fuel s.buf) ∧
      ((s.framesFuel clientPid raises fuel).left = false →
        (s.framesFuel clientPid raises fuel).buf = (iterFramesFuel fuel s.buf).buffer ∧
        (iterFramesFuel fuel s.buf).raised = none) := by
  have hopen : ¬s.forget.left = true := by
    rw [Session.forget_left, h]
    exact Bool.false_ne_true
  induction fuel generalizing s with
  | zero =>
    refine ⟨?_, fun _ => ⟨rfl, rfl⟩⟩
    exact (if_neg hopen).symm
  | succ fuel ih =>
    rw [Session.framesFuel, iterFramesFuel_succ]
    cases nextFrame s.buf with
    | exhausted =>
      refine ⟨?_, fun _ => ⟨rfl, rfl⟩⟩
      exact (if_neg hopen).symm
    | raised error rest =>
      dsimp only
      refine ⟨?_, fun hleft => ?_⟩
      · rw [Session.raise_forget]
        exact (if_neg hopen).symm
      · rw [Session.raise_left] at hleft
        cases hleft
    | frame frame rest =>
      dsimp only
      have hnext := Session.frame_forget clientPid raises s rest frame
      have hbuf : (({ s with buf := rest } : Session).frame clientPid raises frame).buf = rest :=
        Session.frame_buf _ frame
      have hafter : ∀ d : Drained, s.forget.after clientPid raises
            ⟨frame :: d.frames, d.buffer, d.raised⟩ =
          (s.forget.frame clientPid raises frame).after clientPid raises d := fun d => rfl
      rw [hafter, ← hnext]
      generalize ({ s with buf := rest } : Session).frame clientPid raises frame = next at hbuf ⊢
      cases hleft : next.left with
      | true =>
        rw [if_pos rfl]
        refine ⟨(Session.after_of_left (s := next.forget) hleft _).symm, fun hno => ?_⟩
        rw [hleft] at hno
        cases hno
      | false =>
        rw [if_neg Bool.false_ne_true]
        have hstep := ih hleft (by rw [Session.forget_left, hleft]; exact Bool.false_ne_true)
        rwa [hbuf] at hstep

theorem Session.after_append (s : Session) (first rest : Drained) (h : first.raised = none) :
    s.after clientPid raises ⟨first.frames ++ rest.frames, rest.buffer, rest.raised⟩ =
      (s.after clientPid raises first).after clientPid raises rest := by
  have hfirst : s.after clientPid raises first = s.frames clientPid raises first.frames := by
    rw [Session.after, h]
    exact ite_self _
  rw [hfirst, Session.after, Session.after, Session.frames, List.foldl_append]
  rfl

variable (clientPid raises) in
theorem Session.reads_forget {s : Session} (h : s.left = false) (reads : List Read) :
    (reads.foldl (Session.read clientPid raises) s).forget =
      s.forget.after clientPid raises (drainChunks s.buf (reads.map Read.bytes)) := by
  induction reads generalizing s with
  | nil =>
    refine (if_neg ?_).symm
    exact Bool.eq_false_iff.mp h
  | cons read reads ih =>
    have hstep := Session.framesFuel_forget clientPid raises (s.buf ++ read.bytes).length
      (s := { s with buf := s.buf ++ read.bytes }) h
    have hread : s.read clientPid raises read = ({ s with buf := s.buf ++ read.bytes } :
        Session).framesFuel clientPid raises (s.buf ++ read.bytes).length :=
      if_neg (Bool.eq_false_iff.mp h)
    rw [← hread] at hstep
    obtain ⟨hforget, hbuf⟩ := hstep
    have hforget' : (s.read clientPid raises read).forget =
        s.forget.after clientPid raises (iterFrames (s.buf ++ read.bytes)) := hforget
    have hbuf' : (s.read clientPid raises read).left = false →
        (s.read clientPid raises read).buf = (iterFrames (s.buf ++ read.bytes)).buffer ∧
          (iterFrames (s.buf ++ read.bytes)).raised = none := hbuf
    rw [List.foldl_cons, List.map_cons, drainChunks]
    cases hleft : (s.read clientPid raises read).left with
    | false =>
      obtain ⟨hrest, hnone⟩ := hbuf' hleft
      rw [ih hleft, hforget', hrest, hnone, Session.after_append _ _ _ hnone]
    | true =>
      have hstays : reads.foldl (Session.read clientPid raises) (s.read clientPid raises read) =
          s.read clientPid raises read := by
        clear ih
        induction reads with
        | nil => rfl
        | cons other reads ih =>
          have hsame : (s.read clientPid raises read).read clientPid raises other =
              s.read clientPid raises read := if_pos hleft
          rw [List.foldl_cons, hsame]
          exact ih
      rw [hstays, hforget']
      cases hraised : (iterFrames (s.buf ++ read.bytes)).raised with
      | some error => rfl
      | none =>
        dsimp only
        rw [Session.after_append _ _ _ hraised, ← hforget']
        exact (Session.after_of_left (s := (s.read clientPid raises read).forget) hleft _).symm

end Generator

section Order

variable {frames part : List Frame} {frame : Frame} {s : Session}

/-- What the checks demand of the frames of a session. -/
def Orderly (clientPid : Option UInt32) : List Frame → Prop
  | [] => True
  | hello :: frames => hello.messageType = helloType ∧ clientPid = some hello.processId ∧
      (∀ frame ∈ frames, frame.messageType ≠ helloType) ∧
      (hello :: frames).Pairwise fun a b => a.sequence < b.sequence

theorem Orderly.initial (h : Orderly clientPid frames) (hpart : part <+: frames) :
    Orderly clientPid part := by
  cases part with
  | nil => trivial
  | cons hello part =>
    obtain ⟨rest, rfl⟩ := hpart
    obtain ⟨htype, hpid, hothers, hincreasing⟩ := h
    rw [List.pairwise_cons] at hincreasing
    refine ⟨htype, hpid, fun frame hmem => hothers frame (List.mem_append_left _ hmem), ?_⟩
    rw [List.pairwise_cons]
    exact ⟨fun frame hmem => hincreasing.1 frame (List.mem_append_left _ hmem),
      hincreasing.2.sublist (List.sublist_append_left part rest)⟩

theorem le_getLast {last : Frame} (h : frames.Pairwise fun a b => a.sequence < b.sequence)
    (hlast : frames.getLast? = some last) (hmem : frame ∈ frames) : frame.sequence ≤ last.sequence := by
  obtain ⟨front, rfl⟩ := List.getLast?_eq_some_iff.mp hlast
  cases List.mem_append.mp hmem with
  | inl hfront =>
    exact UInt64.le_of_lt ((List.pairwise_append.mp h).2.2 frame hfront last (List.mem_singleton_self _))
  | inr hself => exact List.mem_singleton.mp hself ▸ UInt64.le_refl _

theorem Session.check_iff (frame : Frame) (h : Orderly clientPid frames)
    (hfirst : s.firstFrame = frames.isEmpty)
    (hlast : s.lastSequence = frames.getLast?.map Frame.sequence) :
    s.check clientPid frame = none ↔ Orderly clientPid (frames ++ [frame]) := by
  cases frames with
  | nil =>
    simp only [Session.check, hfirst, hlast, List.isEmpty_nil, Orderly, List.nil_append]
    by_cases htype : frame.messageType = helloType
    · by_cases hpid : clientPid = some frame.processId
      · simp [htype, hpid]
      · simp [htype, hpid]
    · simp [htype]
  | cons hello frames =>
    obtain ⟨last, hsome⟩ : ∃ last, (hello :: frames).getLast? = some last :=
      ⟨_, List.getLast?_eq_some_getLast (List.cons_ne_nil hello frames)⟩
    obtain ⟨hhello, hpid, hothers, hincreasing⟩ := h
    have horder : ((hello :: frames) ++ [frame]).Pairwise (fun a b => a.sequence < b.sequence) ↔
        last.sequence < frame.sequence := by
      rw [List.pairwise_append]
      constructor
      · intro hpairs
        exact hpairs.2.2 last (List.mem_of_getLast? hsome) frame (List.mem_singleton_self _)
      · intro hless
        refine ⟨hincreasing, List.pairwise_singleton _ _, fun other hother next hnext => ?_⟩
        rw [List.mem_singleton.mp hnext]
        exact UInt64.lt_of_le_of_lt (le_getLast hincreasing hsome hother) hless
    have hall : (∀ other ∈ frames ++ [frame], other.messageType ≠ helloType) ↔
        frame.messageType ≠ helloType := by
      constructor
      · exact fun hevery => hevery frame (List.mem_append_right _ (List.mem_singleton_self _))
      · intro htype other hother
        cases List.mem_append.mp hother with
        | inl hearlier => exact hothers other hearlier
        | inr hnow => exact List.mem_singleton.mp hnow ▸ htype
    have hgoal : Orderly clientPid ((hello :: frames) ++ [frame]) ↔
        frame.messageType ≠ helloType ∧ last.sequence < frame.sequence := by
      rw [List.cons_append] at horder ⊢
      rw [Orderly, hall, horder]
      simp only [hhello, hpid, true_and]
    rw [hgoal]
    simp only [Session.check, hfirst, hlast, hsome, List.isEmpty_cons, Option.map_some,
      Option.any_some, Bool.false_and, Bool.false_eq_true, ↓reduceIte, Bool.not_false, Bool.true_and,
      decide_eq_true_eq]
    by_cases htype : frame.messageType = helloType
    · simp [htype]
    · by_cases hless : last.sequence < frame.sequence
      · simp [htype, hless]
      · simp [htype, hless]

end Order

section Invariant

variable {frames part : List Frame} {s : Session}

/-- A part of a stream that a session can come to hand on: no callback raised before its last frame. -/
structure Admissible (clientPid : Option UInt32) (raises : List Frame → Bool) (part : List Frame) :
    Prop where
  orderly : Orderly clientPid part
  quiet : ∀ earlier, earlier <+: part → earlier ≠ [] → earlier ≠ part → raises earlier = false

def Stuck (clientPid : Option UInt32) (raises : List Frame → Bool) (part frames : List Frame) : Prop :=
  (∃ frame, part ++ [frame] <+: frames ∧ ¬Orderly clientPid (part ++ [frame])) ∨
    (part ≠ [] ∧ raises part = true)

/-- A session after the frames of a stream. -/
inductive Session.Handed (clientPid : Option UInt32) (raises : List Frame → Bool)
    (frames : List Frame) (s : Session) : Prop
  | going (left : s.left = false) (log : s.log = frames.map Entry.passed)
      (first : s.firstFrame = frames.isEmpty)
      (last : s.lastSequence = frames.getLast?.map Frame.sequence)
      (admissible : Admissible clientPid raises frames)
      (quiet : frames ≠ [] → raises frames = false)
  | ended (left : s.left = true) {part : List Frame} {entry : Entry} (initial : part <+: frames)
      (log : s.log = part.map Entry.passed ++ [entry]) (entry_frame : entry.frame? = none)
      (admissible : Admissible clientPid raises part)
      (stuck : Stuck clientPid raises part frames)

theorem handed_passed (part : List Frame) : handed (part.map Entry.passed) = part := by
  rw [handed, List.filterMap_map]
  exact List.filterMap_some

theorem Session.Handed.frame (h : s.Handed clientPid raises frames) (frame : Frame) :
    (s.frame clientPid raises frame).Handed clientPid raises (frames ++ [frame]) := by
  have hgrows := List.prefix_append frames [frame]
  cases h with
  | ended left initial log entry_frame admissible stuck =>
    rw [Session.frame_of_left left]
    refine .ended left (initial.trans hgrows) log entry_frame admissible ?_
    exact stuck.imp_left fun ⟨next, hnext, hdisorder⟩ => ⟨next, hnext.trans hgrows, hdisorder⟩
  | going left log first last admissible quiet =>
    have hcheck := Session.check_iff frame admissible.orderly first last
    rw [Session.frame, if_neg (Bool.eq_false_iff.mp left)]
    cases hresult : s.check clientPid frame with
    | some error =>
      refine .ended rfl hgrows (congrArg (· ++ [Entry.refused error]) log) rfl admissible (Or.inl ?_)
      refine ⟨frame, List.prefix_rfl, fun horderly => ?_⟩
      rw [hcheck.mpr horderly] at hresult
      cases hresult
    | none =>
      have horderly := hcheck.mp hresult
      have hlog : s.log ++ [Entry.passed frame] = (frames ++ [frame]).map Entry.passed := by
        rw [log, List.map_append, List.map_singleton]
      have hnext : Admissible clientPid raises (frames ++ [frame]) := by
        refine ⟨horderly, fun earlier hearlier hne hproper => ?_⟩
        cases List.prefix_concat_iff.mp hearlier with
        | inl hsame => exact (hproper hsame).elim
        | inr hbefore =>
          by_cases hwhole : earlier = frames
          · exact hwhole ▸ quiet (hwhole ▸ hne)
          · exact admissible.quiet earlier hbefore hne hwhole
      dsimp only
      rw [hlog, handed_passed]
      split
      · next hraises =>
        refine .ended rfl List.prefix_rfl rfl rfl hnext (Or.inr ⟨?_, hraises⟩)
        exact List.append_ne_nil_of_right_ne_nil _ (List.cons_ne_nil _ _)
      · next hraises =>
        refine .going left rfl ?_ ?_ hnext fun _ => Bool.eq_false_iff.mpr hraises
        · simp
        · simp

variable (clientPid raises) in
theorem handed_frames (frames : List Frame) :
    (({} : Session).frames clientPid raises frames).Handed clientPid raises frames := by
  induction frames using List.reverseRecOn with
  | nil =>
    refine .going rfl rfl rfl rfl ⟨trivial, ?_⟩ fun hne => absurd rfl hne
    intro earlier hearlier hne
    exact absurd (List.prefix_nil.mp hearlier) hne
  | append_singleton frames frame ih =>
    rw [Session.frames, List.foldl_append]
    exact ih.frame frame

/-- No admissible part of the stream goes beyond the part that was handed on. -/
theorem Stuck.maximal (h : Stuck clientPid raises part frames) {other : List Frame}
    (hinitial : part <+: frames) (hother : other <+: frames)
    (hadmissible : Admissible clientPid raises other) : other <+: part := by
  cases List.prefix_or_prefix_of_prefix hother hinitial with
  | inl hwithin => exact hwithin
  | inr hbeyond =>
    obtain ⟨rest, rfl⟩ := hbeyond
    cases rest with
    | nil => rw [List.append_nil]
    | cons frame rest =>
      have hnext : part ++ [frame] <+: part ++ frame :: rest := ⟨rest, by simp⟩
      cases h with
      | inl hdisorder =>
        obtain ⟨frame', hframe', hdisorder⟩ := hdisorder
        have hsame : part ++ [frame'] = part ++ [frame] := by
          have hlength : (part ++ [frame']).length = (part ++ [frame]).length := by simp
          have hcompare := List.prefix_of_prefix_length_le hframe' (hnext.trans hother) hlength.le
          exact hcompare.eq_of_length hlength
        rw [hsame] at hdisorder
        exact absurd (hadmissible.orderly.initial hnext) hdisorder
      | inr hraised =>
        have hproper : part ≠ part ++ frame :: rest := by
          intro heq
          have hlength := congrArg List.length heq
          simp at hlength
        have hquiet := hadmissible.quiet part (List.prefix_append _ _) hraised.1 hproper
        rw [hraised.2] at hquiet
        cases hquiet

end Invariant

section Safety

/-- What a log of a session shows: one Hello of the client first, then other frames of the same process
in order, and nothing behind an error. -/
structure SafeLog (clientPid : Option UInt32) (log : List Entry) : Prop where
  hello : ∀ hello frames, handed log = hello :: frames →
    hello.messageType = helloType ∧ ∀ frame ∈ frames, frame.messageType ≠ helloType
  process : ∀ frame ∈ handed log, clientPid = some frame.processId
  increasing : (handed log).Pairwise fun a b => a.sequence < b.sequence
  ended : ∀ before entry after, log = before ++ entry :: after → entry.frame? = none →
    handed after = []
  unknown : clientPid = none → handed log = []

/-- Every part of the stream that the checks let through comes from the client's process. -/
def OneProcess (clientPid : Option UInt32) (raises : List Frame → Bool) (frames : List Frame) : Prop :=
  ∀ part, part <+: frames → Admissible clientPid raises part →
    ∀ frame ∈ part, clientPid = some frame.processId

theorem finishReads_log (s : Session) (ending : Ending) : (s.finishReads ending).log = s.log := by
  unfold Session.finishReads
  split
  · rfl
  · split <;> rfl

theorem close_log (s : Session) (stop : Bool) : (s.close stop).log = s.log := by
  unfold Session.close
  split
  · rfl
  · split <;> rfl

theorem raise_log (s : Session) (error : Raised) :
    (s.raise error).log = s.log ++ [.raised error] := by
  cases error with
  | protocolError error => rfl
  | structError => rfl

/-- The frames a session hands on are the longest part of its stream that can be handed on. -/
theorem readClient_log (client : Client) :
    ∃ part rest, (readClient client).log = part.map Entry.passed ++ rest ∧
      (∀ entry ∈ rest, entry.frame? = none) ∧
      part <+: (drainChunks [] (client.reads.map Read.bytes)).frames ∧
      Admissible client.clientPid client.raises part ∧
      ∀ other, other <+: (drainChunks [] (client.reads.map Read.bytes)).frames →
        Admissible client.clientPid client.raises other → other <+: part := by
  have hreads := congrArg Session.log (Session.reads_forget client.clientPid client.raises (s := {})
    rfl client.reads)
  have hlog : (readClient client).log = (({} : Session).after client.clientPid client.raises
      (drainChunks [] (client.reads.map Read.bytes))).log := by
    rw [readClient, close_log, finishReads_log]
    exact hreads
  rw [hlog]
  generalize drainChunks [] (client.reads.map Read.bytes) = drained
  have hhanded := handed_frames client.clientPid client.raises drained.frames
  unfold Session.after
  generalize ({} : Session).frames client.clientPid client.raises drained.frames = s at hhanded ⊢
  cases hhanded with
  | ended left initial log entry_frame admissible stuck =>
    rw [if_pos left]
    refine ⟨_, _, log, fun entry hmem => ?_, initial, admissible, fun other hother => ?_⟩
    · exact List.mem_singleton.mp hmem ▸ entry_frame
    · exact stuck.maximal initial hother
  | going left log first last admissible quiet =>
    rw [if_neg (Bool.eq_false_iff.mp left)]
    cases drained.raised with
    | none =>
      refine ⟨_, [], ?_, nofun, List.prefix_rfl, admissible, fun other hother _ => hother⟩
      rw [List.append_nil]
      exact log
    | some error =>
      refine ⟨_, [.raised error], ?_, fun entry hmem => ?_, List.prefix_rfl, admissible,
        fun other hother _ => hother⟩
      · dsimp only
        rw [raise_log, log]
      · exact List.mem_singleton.mp hmem ▸ rfl

theorem handed_of_none {log : List Entry} (h : ∀ entry ∈ log, entry.frame? = none) :
    handed log = [] := List.filterMap_eq_nil_iff.mpr h

/-- A session is safe exactly where its checks let one process through. -/
theorem session_safe_iff (client : Client) :
    SafeLog client.clientPid (readClient client).log ↔
      OneProcess client.clientPid client.raises
        (drainChunks [] (client.reads.map Read.bytes)).frames := by
  obtain ⟨part, rest, hlog, hrest, hinitial, hadmissible, hmaximal⟩ := readClient_log client
  have hhanded : handed (readClient client).log = part := by
    have hnone := handed_of_none hrest
    have hpassed := handed_passed part
    unfold handed at hnone hpassed ⊢
    rw [hlog, List.filterMap_append, hpassed, hnone, List.append_nil]
  constructor
  · intro hsafe other hother hallowed frame hmem
    have hwithin := hmaximal other hother hallowed
    exact hsafe.process frame (hhanded ▸ hwithin.subset hmem)
  · intro hone
    have hprocess := hone part hinitial hadmissible
    refine ⟨?_, ?_, ?_, ?_, ?_⟩
    · intro hello frames hsplit
      rw [hhanded] at hsplit
      have horderly := hadmissible.orderly
      rw [hsplit] at horderly
      exact ⟨horderly.1, horderly.2.2.1⟩
    · rwa [hhanded]
    · rw [hhanded]
      have horderly := hadmissible.orderly
      cases part with
      | nil => exact List.Pairwise.nil
      | cons hello frames => exact horderly.2.2.2
    · intro before entry after hsplit hentry
      rw [hlog] at hsplit
      apply handed_of_none
      obtain ⟨more, hbefore, hafter⟩ | ⟨more, hbefore, hafter⟩ :=
        List.append_eq_append_iff.mp hsplit
      · exact fun other hother =>
          hrest other (hafter ▸ List.mem_append_right _ (List.mem_cons_of_mem _ hother))
      · cases more with
        | nil =>
          intro other hother
          have hmem : other ∈ [] ++ rest := hafter ▸ List.mem_cons_of_mem _ hother
          exact hrest other hmem
        | cons first more =>
          obtain ⟨rfl, -⟩ := List.cons.inj hafter
          have hmem : entry ∈ part.map Entry.passed :=
            hbefore ▸ List.mem_append_right _ List.mem_cons_self
          obtain ⟨frame, -, rfl⟩ := List.mem_map.mp hmem
          cases hentry
    · intro hunknown
      rw [hhanded]
      apply List.eq_nil_iff_forall_not_mem.mpr
      intro frame hmem
      have hknown := hprocess frame hmem
      rw [hunknown] at hknown
      cases hknown

def plainFrame (messageType sequence processId : UInt8) : List UInt8 :=
  magic ++ [1, 0, messageType, 0, 0xEA, 0x01, 0, 0, 0, 0, 0, 0, sequence] ++ List.replicate 15 0 ++
    [processId] ++ List.replicate 457 0

theorem plainFrame_length (messageType sequence processId : UInt8) :
    (plainFrame messageType sequence processId).length = 490 := by
  simp only [plainFrame, magic, List.length_append, List.length_replicate, List.length_cons,
    List.length_nil]

theorem plainFrames_length (a b c a' b' c' : UInt8) :
    (plainFrame a b c ++ plainFrame a' b' c').length = 980 := by
  rw [List.length_append, plainFrame_length, plainFrame_length]

/-- A Hello of process 1, then a frame that names process 2. -/
def foreignClient : Client where
  clientPid := some 1
  reads := [{
    bytes := plainFrame 1 1 1 ++ plainFrame 2 2 2
    nonempty := List.ne_nil_of_length_pos (by rw [plainFrames_length]; decide)
    size_le := by rw [plainFrames_length]; decide }]
  ending := .closed
  stop := false
  raises := fun _ => false

theorem foreignClient_unsafe :
    ¬SafeLog foreignClient.clientPid (readClient foreignClient).log := by
  intro hsafe
  have hframes : (handed (readClient foreignClient).log).map Frame.processId = [1, 2] := by
    decide +kernel
  have hmem : (2 : UInt32) ∈ (handed (readClient foreignClient).log).map Frame.processId := by
    rw [hframes]
    decide
  obtain ⟨frame, hframe, hpid⟩ := List.mem_map.mp hmem
  have hclient := hsafe.process frame hframe
  rw [hpid] at hclient
  revert hclient
  decide

end Safety

end FfbInterceptor.Viewer
