import FfbInterceptor.Telemetry.Delivery

/-! When a loss is disclosed on a connection. The worker puts its drop check off while the
queue is not empty, so younger events may pass; a check that is not put off settles every
loss the counter had seen. -/
namespace FfbInterceptor.Telemetry
open Library.Runs
variable {ε : Type}

/-- A written notice numbered above the event, with a `Dropped` that counts all losses below. -/
def Sink.Discloses (s : Sink ε) (c : List (PipeEntry ε)) (e : Sequenced ε) : Prop :=
  ∃ q d, .frame (.dropNotice q d) .ok ∈ c ∧ e.sequence < q ∧
    d = min UINT32_MAX (s.unconfirmedBelow q)

/-- No event frame overtakes the notice of an older loss. -/
def Sink.NoticeFirst (s : Sink ε) : Prop :=
  ∀ c ∈ s.connections, ∀ before f after, c = before ++ .frame (.event f) .ok :: after →
    ∀ e ∈ s.lost, e.sequence < f.sequence → s.Discloses before e

/-- No event frame follows a drop check that was not put off, unless every event lost when
that check read the counter is disclosed before it. -/
def Sink.NoticeAfterCheck (s : Sink ε) : Prop :=
  ∀ c ∈ s.connections, ∀ before f r after, c = before ++ .frame (.event f) r :: after →
    ∀ drops, .check drops ∈ before → ∀ e ∈ s.lost.take drops, s.Discloses before e

def Told (c : List (PipeEntry ε)) (e : Sequenced ε) : Prop :=
  ∃ q d, .frame (.dropNotice q d) .ok ∈ c ∧ e.sequence < q

def Settled (lost : List (Sequenced ε)) (c : List (PipeEntry ε)) : Prop :=
  ∀ before f r after, c = before ++ .frame (.event f) r :: after →
    ∀ drops, .check drops ∈ before → ∀ e ∈ lost.take drops, Told before e

/-- `reported` covers all checks of the open connection and is itself disclosed on it. -/
def Reported (reported : Nat) (s : Sink ε) : Prop :=
  (∀ d, .check d ∈ s.pipe → d ≤ reported) ∧ reported ≤ s.lost.length ∧
    ∀ e ∈ s.lost.take reported, Told s.pipe e

def Sink.Owes (s : Sink ε) : Prop :=
  match s.worker with
  | .flushing reported | .collecting reported _ _ | .sending reported _ => Reported reported s
  | .checkingDrops reported drops =>
    Reported reported s ∧ reported ≤ drops ∧ drops ≤ s.lost.length
  | .sendingNotice drops q =>
    (∀ d, .check d ∈ s.pipe → d ≤ drops) ∧ drops ≤ s.lost.length ∧
      ∀ e ∈ s.lost.take drops, e.sequence < q
  | _ => True

structure Sink.Disclosing (s : Sink ε) : Prop where
  settled : ∀ c ∈ s.connections, Settled s.lost c
  checks : ∀ c ∈ s.connections, ∀ d, .check d ∈ c → d ≤ s.lost.length
  owes : s.Owes

section Entries
variable {lost : List (Sequenced ε)} {c : List (PipeEntry ε)}

theorem Told.append {e : Sequenced ε} (h : Told c e) (x : PipeEntry ε) : Told (c ++ [x]) e := by
  obtain ⟨q, d, hm, hq⟩ := h
  exact ⟨q, d, List.mem_append_left _ hm, hq⟩

theorem Settled.append (h : Settled lost c) {x : PipeEntry ε}
    (hx : (∃ f r, x = .frame (.event f) r) →
      ∀ d, .check d ∈ c → ∀ e ∈ lost.take d, Told c e) : Settled lost (c ++ [x]) := by
  intro before f r after hsplit drops hd e he
  rcases List.eq_nil_or_concat after with rfl | ⟨after', y, rfl⟩
  · obtain ⟨rfl, hxf⟩ := List.append_inj' hsplit rfl
    exact hx ⟨f, r, by simpa using hxf⟩ drops hd e he
  · have hs : c ++ [x] = (before ++ .frame (.event f) r :: after') ++ [y] := by simpa using hsplit
    obtain ⟨rfl, -⟩ := List.append_inj' hs rfl
    exact h before f r after' rfl drops hd e he

theorem Settled.grow (h : Settled lost c) (hc : ∀ d, .check d ∈ c → d ≤ lost.length)
    (more : List (Sequenced ε)) : Settled (lost ++ more) c := by
  intro before f r after hsplit drops hd e he
  have hm : PipeEntry.check drops ∈ c := by
    rw [hsplit]
    exact List.mem_append_left _ hd
  rw [List.take_append_of_le_length (hc drops hm)] at he
  exact h before f r after hsplit drops hd e he

end Entries

section Steps
variable {s t : Sink ε} {n : Nat}

theorem Reported.next {reported : Nat} (h : Reported reported s) (hp : t.pipe = s.pipe)
    (hl : s.lost <+: t.lost) : Reported reported t := by
  obtain ⟨hc, hr, ht⟩ := h
  obtain ⟨more, hm⟩ := hl
  unfold Reported
  rw [hp, ← hm, List.take_append_of_le_length hr]
  exact ⟨hc, by rw [List.length_append]; omega, ht⟩

theorem Sink.Disclosing.pipe (h : s.Disclosing) :
    Settled s.lost s.pipe ∧ ∀ d, .check d ∈ s.pipe → d ≤ s.lost.length :=
  ⟨h.settled s.pipe (by simp [Sink.connections]), h.checks s.pipe (by simp [Sink.connections])⟩

theorem Sink.Disclosing.next (h : s.Disclosing) (hl : s.lost <+: t.lost)
    (hc : ∀ c ∈ t.connections, c ∈ s.connections ∨ c = [] ∨
      (Settled t.lost c ∧ ∀ d, .check d ∈ c → d ≤ t.lost.length))
    (ho : t.Owes) : t.Disclosing := by
  obtain ⟨more, hm⟩ := hl
  refine ⟨fun c hct => ?_, fun c hct => ?_, ho⟩
  · rcases hc c hct with hs | rfl | hs
    · rw [← hm]
      exact (h.settled c hs).grow (h.checks c hs) more
    · intro before f r after hsplit
      simp at hsplit
    · exact hs.1
  · rcases hc c hct with hs | rfl | hs
    · intro d hd
      have hle := h.checks c hs d hd
      rw [← hm, List.length_append]
      omega
    · simp
    · exact hs.2

theorem Sink.Disclosing.enqueue (h : s.Disclosing) (e : Sequenced ε) :
    (s.enqueue e).Disclosing := by
  have hw : (s.enqueue e).worker = s.worker := by unfold Sink.enqueue; split <;> rfl
  have hp : (s.enqueue e).pipe = s.pipe := by unfold Sink.enqueue; split <;> rfl
  have hc : (s.enqueue e).closed = s.closed := by unfold Sink.enqueue; split <;> rfl
  have hl : s.lost <+: (s.enqueue e).lost := by
    unfold Sink.enqueue
    split
    · exact List.prefix_append _ _
    · exact List.prefix_rfl
  refine h.next hl (fun c hm => Or.inl (by simpa [Sink.connections, hp, hc] using hm)) ?_
  have ho := h.owes
  unfold Sink.Owes at ho ⊢
  rw [hw]
  split at ho
  case h_4 reported drops =>
    exact ⟨ho.1.next hp hl, ho.2.1, ho.2.2.trans hl.length_le⟩
  case h_5 drops q =>
    obtain ⟨h1, h2, h3⟩ := ho
    obtain ⟨more, hm⟩ := hl
    rw [hp, ← hm, List.take_append_of_le_length h2]
    exact ⟨h1, by rw [List.length_append]; omega, h3⟩
  all_goals first
    | exact ho.next hp hl
    | trivial

theorem settled_frame (h : s.Disclosing) {f : Frame ε} {r : IoResult}
    (hf : (∃ e, f = .event e) → ∃ reported, Reported reported s) :
    Settled s.lost (s.pipe ++ [.frame f r]) ∧
      ∀ d, .check d ∈ s.pipe ++ [.frame f r] → d ≤ s.lost.length := by
  refine ⟨h.pipe.1.append ?_, fun d hd => h.pipe.2 d (by simpa using hd)⟩
  rintro ⟨e, r', hx⟩ d hd e' he'
  simp only [PipeEntry.frame.injEq] at hx
  obtain ⟨reported, hc, -, ht⟩ := hf ⟨e, hx.1⟩
  exact ht e' ((List.take_sublist_take_left (hc d hd)).subset he')

theorem settled_check (h : s.Disclosing) {d : Nat} (hd : d ≤ s.lost.length) :
    Settled s.lost (s.pipe ++ [.check d]) ∧
      ∀ d', .check d' ∈ s.pipe ++ [.check d] → d' ≤ s.lost.length := by
  refine ⟨h.pipe.1.append (by simp), fun d' hm => ?_⟩
  rcases List.mem_append.mp hm with hm | hm
  · exact h.pipe.2 d' hm
  · obtain rfl : d' = d := by simpa using hm
    exact hd

theorem connections_same (hp : t.pipe = s.pipe) (hc : t.closed = s.closed) :
    ∀ c ∈ t.connections, c ∈ s.connections ∨ c = [] ∨
      (Settled t.lost c ∧ ∀ d, .check d ∈ c → d ≤ t.lost.length) :=
  fun c hm => Or.inl (by simpa [Sink.connections, hp, hc] using hm)

theorem connections_entry {x : PipeEntry ε} (hp : t.pipe = s.pipe ++ [x])
    (hc : t.closed = s.closed)
    (hx : Settled t.lost (s.pipe ++ [x]) ∧ ∀ d, .check d ∈ s.pipe ++ [x] → d ≤ t.lost.length) :
    ∀ c ∈ t.connections, c ∈ s.connections ∨ c = [] ∨
      (Settled t.lost c ∧ ∀ d, .check d ∈ c → d ≤ t.lost.length) := by
  intro c hm
  simp only [Sink.connections, hp, hc, List.mem_append, List.mem_singleton] at hm ⊢
  rcases hm with hm | rfl
  · exact Or.inl (Or.inl hm)
  · exact Or.inr (Or.inr hx)

theorem connections_closed {x : PipeEntry ε} (hp : t.pipe = [])
    (hc : t.closed = s.closed ++ [s.pipe ++ [x]])
    (hx : Settled t.lost (s.pipe ++ [x]) ∧ ∀ d, .check d ∈ s.pipe ++ [x] → d ≤ t.lost.length) :
    ∀ c ∈ t.connections, c ∈ s.connections ∨ c = [] ∨
      (Settled t.lost c ∧ ∀ d, .check d ∈ c → d ≤ t.lost.length) := by
  intro c hm
  simp only [Sink.connections, hp, hc, List.mem_append, List.mem_singleton] at hm ⊢
  rcases hm with (hm | rfl) | rfl
  · exact Or.inl (Or.inl hm)
  · exact Or.inr (Or.inr hx)
  · exact Or.inr (Or.inl rfl)

theorem Ledger.lost_le {held : List (Node ε)} (h : Ledger n held s) :
    ∀ e ∈ s.lost, e.sequence ≤ n := fun e he =>
  (h.emitted_range e (h.events.mem_iff.mpr
    (List.mem_append_left _ (List.mem_append_right _ he)))).2

/-- Every step of the worker keeps what is disclosed disclosed. -/
theorem Sink.Disclosing.runStep (h : s.Disclosing) (hf : s.Formed) (hv : s.Valid n) (r : IoResult)
    (hn : (if s.drawsSequence then n+1 else n) < 2 ^ 64) : (s.runStep n r).Disclosing := by
  have ho := h.owes
  have hled := hv.ledger
  cases hw : s.worker <;> simp only [Sink.Owes, hw] at ho <;> simp only [Sink.runStep, hw]
  case notCreated => exact h
  case connecting =>
    cases r with
    | ok => exact h.next List.prefix_rfl (connections_same rfl rfl) trivial
    | failed b => exact h.next List.prefix_rfl (connections_same rfl rfl) trivial
  case droppingPending => exact h.next List.prefix_rfl (connections_same rfl rfl) trivial
  case recycling list =>
    cases list with
    | nil => exact h.next List.prefix_rfl (connections_same rfl rfl) trivial
    | cons x list => exact h.next (List.prefix_append _ _) (connections_same rfl rfl) trivial
  case sendingHello =>
    have hpipe := hf.pipe
    simp only [Sink.PipeAtPoint, hw] at hpipe
    have hx := settled_frame h (f := .hello) (r := r) (by simp)
    cases r with
    | ok =>
      refine h.next List.prefix_rfl (connections_entry rfl rfl hx) ⟨?_, Nat.zero_le _, by simp⟩
      simp [Sink.write, hpipe]
    | failed b => exact h.next List.prefix_rfl (connections_closed rfl rfl hx) trivial
  case flushing reported => exact h.next List.prefix_rfl (connections_same rfl rfl) ho
  case collecting reported batch list =>
    cases list with
    | nil => exact h.next List.prefix_rfl (connections_same rfl rfl) ho
    | cons x list =>
      exact h.next (List.prefix_append _ _) (connections_same rfl rfl)
        (ho.next rfl (List.prefix_append _ _))
  case sending reported batch =>
    cases batch with
    | nil =>
      refine h.next List.prefix_rfl (connections_same rfl rfl) ⟨ho, ?_, ?_⟩
      · rw [hled.counter]
        exact ho.2.1
      · exact hled.counter.le
    | cons x batch =>
      have hx := settled_frame h (f := .event x.event) (r := r) fun _ => ⟨reported, ho⟩
      cases r with
      | ok =>
        refine h.next List.prefix_rfl (connections_entry rfl rfl hx) ⟨?_, ho.2.1, ?_⟩
        · exact fun d hd => ho.1 d (by simpa [Sink.write, Sink.push] using hd)
        · exact fun e he => (ho.2.2 e he).append _
      | failed b =>
        refine h.next (List.prefix_append _ _) (connections_entry rfl rfl ⟨?_, fun d hd => ?_⟩)
          trivial
        · exact hx.1.grow hx.2 _
        · exact (hx.2 d hd).trans (by simp [Sink.drop, Sink.write, Sink.push])
  case discarding unsent =>
    cases unsent with
    | nil =>
      refine h.next List.prefix_rfl (fun c hm => ?_) trivial
      simp only [Sink.close, Sink.connections, List.mem_append, List.mem_singleton] at hm ⊢
      tauto
    | cons x unsent => exact h.next (List.prefix_append _ _) (connections_same rfl rfl) trivial
  case checkingDrops reported drops =>
    obtain ⟨hrep, hle, hlen⟩ := ho
    have hx := settled_check h hlen
    by_cases hd : drops = reported
    · subst hd
      simp only [if_true]
      refine h.next List.prefix_rfl (connections_entry rfl rfl hx) ⟨?_, hlen, ?_⟩
      · intro d hm
        rcases List.mem_append.mp hm with hm | hm
        · exact hrep.1 d hm
        · obtain rfl : d = drops := by simpa using hm
          exact le_rfl
      · exact fun e he => (hrep.2.2 e he).append _
    · simp only [hd, if_false]
      split
      · next hempty =>
        simp only [Sink.drawsSequence, hw, hd, hempty, ne_eq, not_false_iff, decide_true, Bool.and_true,
          if_true] at hn
        simp only [increment64_of_lt hn]
        refine h.next List.prefix_rfl (connections_entry rfl rfl hx) ⟨?_, hlen, ?_⟩
        · intro d hm
          rcases List.mem_append.mp hm with hm | hm
          · exact (hrep.1 d hm).trans hle
          · obtain rfl : d = drops := by simpa using hm
            exact le_rfl
        · exact fun e he => Nat.lt_succ_of_le (hled.lost_le e (List.mem_of_mem_take he))
      · exact h.next List.prefix_rfl (connections_same rfl rfl) hrep
  case sendingNotice drops q =>
    obtain ⟨hc, hlen, hq⟩ := ho
    have hx := settled_frame h (f := .dropNotice q (min drops UINT32_MAX)) (r := r) (by simp)
    cases r with
    | ok =>
      refine h.next List.prefix_rfl (connections_entry rfl rfl hx) ⟨?_, hlen, ?_⟩
      · exact fun d hd => hc d (by simpa [Sink.write] using hd)
      · exact fun e he => ⟨q, min drops UINT32_MAX, by simp [Sink.write], hq e he⟩
    | failed b => exact h.next List.prefix_rfl (connections_closed rfl rfl hx) trivial

end Steps

theorem State.step_disclosing {t : State ε} (hf : t.Formed) (hv : t.Valid)
    (h : ∀ k, (t.sinks k).Disclosing) (a : Action ε) (hdrawn : (t.step a).drawn < 2 ^ 64) :
    ∀ k, ((t.step a).sinks k).Disclosing := by
  have hset : ∀ {j : Fin kSinkCount} {s : Sink ε}, s.Disclosing →
      ∀ k, (Function.update t.sinks j s k).Disclosing := fun hs =>
    (Function.forall_update_iff t.sinks fun _ s => s.Disclosing).mpr ⟨hs, fun k _ => h k⟩
  cases a with
  | createThread j =>
    refine hset ?_
    unfold Sink.createThread
    split
    · exact (h j).next List.prefix_rfl (connections_same rfl rfl) trivial
    · exact h j
  | setRunning j =>
    refine hset ?_
    unfold Sink.setRunning
    split
    · exact h j
    · exact (h j).next List.prefix_rfl (connections_same rfl rfl) (h j).owes
  | emit event =>
    intro k
    rw [State.step, sinks_emit]
    split
    · exact (h k).enqueue _
    · exact h k
  | run j r =>
    simp only [State.step, ← hv.sequence] at hdrawn
    exact hset ((h j).runStep (hf.sink j) (hv.sink j) r hdrawn)

section Runs
variable [Inhabited ε]

theorem State.after_disclosing {actions : List (Action ε)}
    (hdrawn : (State.after actions).drawn < 2 ^ 64) (k : Fin kSinkCount) :
    ((State.after actions).sinks k).Disclosing := by
  have hinit : ∀ k, ((State.initial : State ε).sinks k).Disclosing := fun k =>
    ⟨by simp [State.initial, Sink.initial, Sink.connections, Settled],
      by simp [State.initial, Sink.initial, Sink.connections], trivial⟩
  exact (run_invariant_below
    (P := fun t : State ε => t.Formed ∧ t.Valid ∧ ∀ k, (t.sinks k).Disclosing) drawn_le_step
    (fun t a hnext ht => ⟨ht.1.step a, ht.2.1.step a hnext, t.step_disclosing ht.1 ht.2.1 ht.2.2 a hnext⟩)
    ⟨State.initial_formed, State.initial_valid, hinit⟩ actions hdrawn).2.2 k

/-- Over every interleaving, a drop check that is not put off discloses every loss it knew of
before the next event frame of its connection. -/
theorem notice_after_check (actions : List (Action ε))
    (hdrawn : (State.after actions).drawn < 2 ^ 64) (k : Fin kSinkCount) :
    ((State.after actions).sinks k).NoticeAfterCheck := by
  intro c hc before f r after hsplit drops hd e he
  have hv := (State.after_valid hdrawn).sink k
  obtain ⟨q, d, hm, hq⟩ :=
    (State.after_disclosing hdrawn k).settled c hc before f r after hsplit drops hd e he
  refine ⟨q, d, hm, hq, ?_⟩
  rw [min_comm]
  refine hv.ledger.notices_exact (q, d) (hv.ledger.notices_sent q d .ok ?_)
  refine List.mem_filterMap.mpr ⟨.frame (.dropNotice q d) .ok, ?_, rfl⟩
  refine List.mem_flatten.mpr ⟨c, hc, ?_⟩
  rw [hsplit]
  exact List.mem_append_left _ hm

theorem notice_after_check_lossyRun :
    ((State.after lossyRun).sinks viewerSink).NoticeAfterCheck ∧
    ((State.after lossyRun).sinks viewerSink).pipe = [.frame .hello .ok, .check 1,
      .frame (.dropNotice 2 1) .ok, .frame (.event ⟨3, ()⟩) .ok, .check 1] :=
  ⟨notice_after_check lossyRun (drawn_lt (by decide)) viewerSink, by decide +kernel⟩

/-- One event is lost to a failed send, the worker reconnects, and the next event goes out
with its first batch, before any drop check of the new connection. -/
def overtakingRun : List (Action Unit) :=
  let run := Action.run viewerSink
  [.createThread viewerSink, .setRunning viewerSink, run .ok, run .ok, .emit (), run .ok, run .ok,
    run (.failed 0), run .ok, run .ok, run .ok, .emit (), run .ok, run .ok, run .ok]

theorem event_overtakes_notice :
    ¬ ∀ (actions : List (Action Unit)) (k : Fin kSinkCount),
      ((State.after actions).sinks k).NoticeFirst := by
  intro h
  have hp : ((State.after overtakingRun).sinks viewerSink).pipe =
      [.frame .hello .ok, .frame (.event ⟨2, ()⟩) .ok] := by decide +kernel
  have hl : ((State.after overtakingRun).sinks viewerSink).lost = [⟨1, ()⟩] := by decide +kernel
  obtain ⟨q, d, hm, -⟩ := h overtakingRun viewerSink _ (by simp [Sink.connections, hp])
    [.frame .hello .ok] ⟨2, ()⟩ [] rfl ⟨1, ()⟩ (by simp [hl]) (by decide)
  simp at hm

end Runs

end FfbInterceptor.Telemetry
