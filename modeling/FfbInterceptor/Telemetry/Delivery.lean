import FfbInterceptor.Telemetry.Worker

/-! What the two sinks deliver over any interleaving: every event has exactly one fate, and
the frames of a connection are in order, as long as the 64-bit counter has not wrapped. -/
namespace FfbInterceptor.Telemetry
open Library.Runs
variable {ε : Type}

def writtenFrame : PipeEntry ε → Option (Frame ε)
  | .frame f .ok => some f
  | _ => none

/-- The frames completely written on a connection, in order. -/
def written (c : List (PipeEntry ε)) : List (Frame ε) := c.filterMap writtenFrame

def attemptedEvent : Frame ε × IoResult → Option (Sequenced ε)
  | (.event e, _) => some e
  | _ => none

/-- The events the sink has called `send_frame` for, over all its connections. -/
def Sink.attemptedEvents (s : Sink ε) : List (Sequenced ε) := s.attempts.filterMap attemptedEvent

section Connection

theorem written_greeted {c : List (PipeEntry ε)} (h : Greeted c) :
    ∃ rest, written c = .hello :: rest ∧ .hello ∉ rest := by
  obtain ⟨rest, rfl, hr⟩ := h
  refine ⟨written rest, by simp [written, writtenFrame], fun hm => ?_⟩
  obtain ⟨x, hx, hf⟩ := List.mem_filterMap.mp hm
  cases x with
  | check d => simp [writtenFrame] at hf
  | frame f r =>
    cases r with
    | failed b => simp [writtenFrame] at hf
    | ok =>
      obtain rfl : f = .hello := by simpa [writtenFrame] using hf
      exact (hr _ _ hx).1 rfl

theorem written_broken {c : List (PipeEntry ε)} (h : Broken c) :
    written c = [] ∨ ∃ rest, written c = .hello :: rest ∧ .hello ∉ rest := by
  rcases h with ⟨b, rfl⟩ | ⟨opened, f, b, ho, -, rfl⟩
  · exact Or.inl (by simp [written, writtenFrame])
  · have hw : written (opened ++ [.frame f (.failed b)]) = written opened := by
      simp [written, writtenFrame]
    rw [hw]
    exact Or.inr (written_greeted ho)

/-- A connection has no frame yet, or only sent ones behind its Hello, or was given up. -/
theorem Sink.Formed.shape {s : Sink ε} (h : s.Formed) :
    ∀ c ∈ s.connections, c = [] ∨ Greeted c ∨ Broken c := by
  intro c hc
  rcases List.mem_append.mp hc with hc | hc
  · exact Or.inr (Or.inr (h.closed c hc))
  · rw [List.mem_singleton.mp hc]
    have hp := h.pipe
    unfold Sink.PipeAtPoint at hp
    split at hp
    all_goals first
      | exact Or.inr (Or.inl hp)
      | exact Or.inr (Or.inr hp)
      | exact Or.inl hp

theorem Sink.Formed.hello_first {s : Sink ε} (h : s.Formed) :
    ∀ c ∈ s.connections, written c = [] ∨ ∃ rest, written c = .hello :: rest ∧ .hello ∉ rest := by
  intro c hc
  rcases h.shape c hc with rfl | hc | hc
  · exact Or.inl rfl
  · exact Or.inr (written_greeted hc)
  · exact written_broken hc

theorem written_attempted (c : List (PipeEntry ε)) :
    ((written c).filterMap Frame.number?).Sublist
      ((c.filterMap PipeEntry.attempt?).filterMap fun a => a.1.number?) := by
  induction c with
  | nil => exact List.Sublist.refl _
  | cons x c ih =>
    cases x with
    | check d => exact ih
    | frame f r =>
      cases r with
      | ok =>
        simp only [written, List.filterMap_cons, writtenFrame, PipeEntry.attempt?]
        cases f.number? with
        | none => exact ih
        | some q => exact ih.cons_cons q
      | failed b =>
        simp only [written, List.filterMap_cons, writtenFrame, PipeEntry.attempt?]
        cases f.number? with
        | none => exact ih
        | some q => exact ih.cons q

theorem written_numbers (s : Sink ε) {c : List (PipeEntry ε)} (hc : c ∈ s.connections) :
    ((written c).filterMap Frame.number?).Sublist s.numbers := by
  have hsub : (c.filterMap PipeEntry.attempt?).Sublist s.attempts :=
    (List.sublist_flatten_of_mem hc).filterMap _
  exact (written_attempted c).trans (hsub.filterMap _)

theorem numbers_eq_sequences {fs : List (Frame ε)} (h : .hello ∉ fs) :
    fs.filterMap Frame.number? = fs.map Frame.sequence := by
  induction fs with
  | nil => rfl
  | cons f fs ih =>
    simp only [List.mem_cons, not_or] at h
    cases f with
    | hello => exact absurd rfl h.1
    | event e => simp [Frame.number?, Frame.sequence, ih h.2]
    | dropNotice q d => simp [Frame.number?, Frame.sequence, ih h.2]

theorem Sink.Valid.increasing {n : Nat} {s : Sink ε} (h : s.Valid n) (hformed : s.Formed) :
    ∀ c ∈ s.connections, ((written c).map Frame.sequence).Pairwise (· < ·) := by
  intro c hc
  have hsub := written_numbers s hc
  rcases hformed.hello_first c hc with hw | ⟨rest, hw, hr⟩
  · rw [hw]
    exact List.Pairwise.nil
  · rw [hw] at hsub ⊢
    simp only [List.filterMap_cons, Frame.number?, numbers_eq_sequences hr] at hsub
    refine List.Pairwise.cons ?_ (h.ledger.numbers_order.sublist hsub)
    intro q hq
    exact (h.ledger.numbers_range q (hsub.subset hq)).1

end Connection

section Events

theorem attemptedEvents_numbers (as : List (Frame ε × IoResult)) :
    ((as.filterMap attemptedEvent).map Sequenced.sequence).Sublist
      (as.filterMap fun a => a.1.number?) := by
  induction as with
  | nil => exact List.Sublist.refl _
  | cons a as ih =>
    obtain ⟨f, r⟩ := a
    cases f with
    | hello => exact ih
    | event e => exact ih.cons_cons e.sequence
    | dropNotice q d =>
      simp only [List.filterMap_cons, attemptedEvent, Frame.number?]
      exact ih.cons q

theorem confirmed_attempted (as : List (Frame ε × IoResult)) :
    (as.filterMap confirmedEvent).Sublist (as.filterMap attemptedEvent) := by
  induction as with
  | nil => exact List.Sublist.refl _
  | cons a as ih =>
    obtain ⟨f, r⟩ := a
    cases f with
    | hello => exact ih
    | dropNotice q d => exact ih
    | event e =>
      cases r with
      | ok => exact ih.cons_cons e
      | failed b =>
        simp only [List.filterMap_cons, attemptedEvent, confirmedEvent]
        exact ih.cons e

theorem Sink.Valid.attempted_increasing {n : Nat} {s : Sink ε} (h : s.Valid n) :
    (s.attemptedEvents.map Sequenced.sequence).Pairwise (· < ·) :=
  h.ledger.numbers_order.sublist (attemptedEvents_numbers s.attempts)

theorem Sink.Valid.confirmed_sublist {n : Nat} {s : Sink ε} (h : s.Valid n) :
    s.confirmed.Sublist s.emitted := by
  have hsub : s.confirmed.Subperm s.emitted := by
    refine List.Sublist.subperm ?_ |>.trans h.ledger.events.symm.subperm
    exact List.sublist_append_of_sublist_left (List.sublist_append_left _ _)
  have hc : s.confirmed.Pairwise fun a b => a.sequence < b.sequence :=
    (List.pairwise_map.mp h.attempted_increasing).sublist (confirmed_attempted s.attempts)
  have he : s.emitted.Pairwise fun a b => a.sequence < b.sequence :=
    List.pairwise_map.mp h.ledger.emitted_order
  have : Std.Antisymm fun a b : Sequenced ε => a.sequence < b.sequence :=
    ⟨fun a b hab hba => absurd hab (lt_asymm hba)⟩
  exact List.sublist_of_subperm_of_pairwise hsub hc he

end Events

section Late
variable {t : State ε} {k : Fin kSinkCount}

/-- Emits pass by a sink that does not run; the numbers go on in the 64-bit word. -/
theorem emits_aside (hidle : (t.sinks k).running = false) (hany : t.anyRunning = true)
    (hsequence : t.sequence < 2 ^ 64) (event : ε) (n : Nat) :
    let t' := run State.step t (List.replicate n (.emit event))
    t'.sinks k = t.sinks k ∧ t'.sequence = (t.sequence + n) % 2 ^ 64 := by
  induction n generalizing t with
  | zero => exact ⟨rfl, (Nat.mod_eq_of_lt hsequence).symm⟩
  | succ n ih =>
    have hsame : (t.step (.emit event)).sinks k = t.sinks k := by
      simp only [State.step, sinks_emit, hidle, Bool.false_eq_true, if_false]
    have hnumber : (t.step (.emit event)).sequence = increment64 t.sequence := by
      simp only [State.step, sequence_emit, hany, if_true]
    obtain ⟨hsinks, hnext⟩ := ih (t := t.step (.emit event)) (by rw [hsame, hidle])
      ((anyRunning_emit event).trans hany) (by rw [hnumber]; exact Nat.mod_lt _ (by decide))
    rw [List.replicate_succ, run_cons]
    refine ⟨hsinks.trans hsame, hnext.trans ?_⟩
    rw [hnumber, increment64, Nat.mod_add_mod]
    congr 1
    omega

/-- Emits to a sink whose worker does not move: each is queued or counted as dropped. -/
theorem emits_unread (hrunning : (t.sinks k).running = true) (hdropped : (t.sinks k).dropped < 2 ^ 64)
    (event : ε) (n : Nat) :
    let s := (run State.step t (List.replicate n (.emit event))).sinks k
    s.worker = (t.sinks k).worker ∧ s.attempts = (t.sinks k).attempts ∧
      s.emitted.length = (t.sinks k).emitted.length + n ∧ s.dropped < 2 ^ 64 := by
  induction n generalizing t with
  | zero => exact ⟨rfl, rfl, rfl, hdropped⟩
  | succ n ih =>
    have hstep := step_emit_sinks hrunning event
    obtain ⟨hworker, -, -⟩ := enqueue_worker (t.sinks k) ⟨increment64 t.sequence, event⟩
    obtain ⟨hattempts, hemitted, -⟩ := history_enqueue (t.sinks k) ⟨increment64 t.sequence, event⟩
    have hnext : ((t.step (.emit event)).sinks k).dropped < 2 ^ 64 := by
      rw [hstep, Sink.enqueue]
      split
      · exact Nat.mod_lt _ (by decide)
      · exact hdropped
    have hrest := ih (t := t.step (.emit event)) (by rw [hstep, running_enqueue, hrunning]) hnext
    simp only [hstep, hworker, hattempts, hemitted, List.length_append, List.length_singleton] at hrest
    rw [List.replicate_succ, run_cons]
    obtain ⟨hw, ha, he, hd⟩ := hrest
    exact ⟨hw, ha, he.trans (by omega), hd⟩

def greeting (k : Fin kSinkCount) : List (Action ε) :=
  [.createThread k, .setRunning k, .run k .ok, .run k .ok]

theorem run_send {s : Sink ε} (hs : t.sinks k = s) (hworker : s.worker = .flushing 0)
    (hrunning : s.running = true) (hpending : s.pending = []) (hnonempty : s.free ≠ []) (event : ε) :
    ((run State.step t [.emit event, .run k .ok, .run k .ok, .run k .ok]).sinks k).pipe =
      s.pipe ++ [.frame (.event ⟨increment64 t.sequence, event⟩) .ok] := by
  obtain ⟨node, free, hfree⟩ := List.exists_cons_of_ne_nil hnonempty
  have hsort : ∀ x : Node ε, sortBatch [x] = [x] := fun _ => rfl
  have hrun : (t.sinks k).running = true := by rw [hs, hrunning]
  simp only [run, List.foldl_cons, List.foldl_nil, step_run_sinks, step_emit_sinks hrun event, hs,
    Sink.enqueue, hfree, hpending, Sink.runStep, hworker]
  simp [hsort, Sink.write, Sink.push, kQueueCapacity]

section Greeting
variable [Inhabited ε]

theorem run_greeting (h : t.sinks k = Sink.initial) :
    let t' := run State.step t (greeting k)
    t'.sinks k = { (Sink.initial : Sink ε) with
      running := true
      worker := .flushing 0
      pipe := [.frame .hello .ok] } ∧ t'.sequence = t.sequence := by
  have hworker : (Sink.initial : Sink ε).worker = .notCreated := rfl
  have hpipe : (Sink.initial : Sink ε).pipe = [] := rfl
  simp [run, greeting, State.step, State.setSink, h, Sink.createThread, hworker, Sink.setRunning,
    Sink.runStep, Sink.write, hpipe, Sink.drawsSequence]

theorem free_initial_ne : (Sink.initial : Sink ε).free ≠ [] := by
  intro hnil
  have hlength := congrArg List.length hnil
  simp [Sink.initial, kQueueCapacity] at hlength

/-- The plug-in's sink runs alone for `n` events; then the viewer's connects and sends one more. -/
def lateViewer (event : ε) (n : Nat) : List (Action ε) :=
  [.createThread simHubSink, .setRunning simHubSink] ++ List.replicate n (.emit event) ++
    greeting viewerSink ++
    [.emit event, .run viewerSink .ok, .run viewerSink .ok, .run viewerSink .ok]

theorem connection_lateViewer (event : ε) (n : Nat) :
    ((State.after (lateViewer event n)).sinks viewerSink).pipe =
      [.frame .hello .ok, .frame (.event ⟨increment64 (n % 2 ^ 64), event⟩) .ok] := by
  have hstarted : ∀ t : State ε, t = run State.step State.initial
      [.createThread simHubSink, .setRunning simHubSink] →
      t.sinks viewerSink = Sink.initial ∧ t.anyRunning = true ∧ t.sequence = 0 := by
    rintro t rfl
    exact ⟨rfl, rfl, rfl⟩
  obtain ⟨hviewer, hany, hzero⟩ := hstarted _ rfl
  obtain ⟨hidle, hsequence⟩ := emits_aside (k := viewerSink) (by rw [hviewer]; rfl) hany
    (by rw [hzero]; decide) event n
  rw [hviewer] at hidle
  obtain ⟨hgreeted, hnumber⟩ := run_greeting hidle
  have hsend := run_send hgreeted rfl rfl rfl (by simp only; exact free_initial_ne) event
  rw [hnumber, hsequence, hzero, Nat.zero_add] at hsend
  rw [State.after, lateViewer, run_append, run_append, run_append]
  exact hsend

end Greeting

end Late

/-- Exact accounts: every node has one owner, every event emitted to the sink one fate, and a notice
counts the events below its number that were not confirmed. -/
structure Sink.Accounted (s : Sink ε) : Prop where
  nodes : ∀ i : Fin kQueueCapacity,
    (s.free.map Node.index).count i + (s.pending.map Node.index).count i +
      (s.worker.held.map Node.index).count i = 1
  events : s.emitted.length =
    s.confirmed.length + s.dropped + s.pending.length + s.worker.held.length
  notices : ∀ m ∈ s.notices, m.2 = min UINT32_MAX (s.unconfirmedBelow m.1)
  sent : ∀ q d r, (.dropNotice q d, r) ∈ s.attempts → (q, d) ∈ s.notices

/-- The Hello comes first, numbers increase, no event is tried twice, and each sink confirms events in
the common order. -/
structure State.Ordered (t : State ε) : Prop where
  increasing : ∀ k, ∀ c ∈ (t.sinks k).connections, ((written c).map Frame.sequence).Pairwise (· < ·)
  hello : ∀ k, ∀ c ∈ (t.sinks k).connections,
    written c = [] ∨ ∃ rest, written c = .hello :: rest ∧ .hello ∉ rest
  once : ∀ k, ((t.sinks k).attemptedEvents.map Sequenced.sequence).Nodup
  emits : (t.emits.map Sequenced.sequence).Pairwise (· < ·)
  confirmed : ∀ k, (t.sinks k).confirmed.Sublist t.emits

/-- An event is lost to a failed send and told on the next connection; then one is sent, one waits in
the worker's batch and one in the queue. -/
def lossyRun : List (Action Unit) :=
  [.createThread viewerSink, .setRunning viewerSink, .run viewerSink .ok, .run viewerSink .ok,
    .emit (), .run viewerSink .ok, .run viewerSink .ok, .run viewerSink (.failed 3)] ++
  List.replicate 8 (.run viewerSink .ok) ++
  [.emit (), .run viewerSink .ok, .run viewerSink .ok, .run viewerSink .ok, .emit (),
    .run viewerSink .ok, .run viewerSink .ok, .run viewerSink .ok, .emit ()]

section Runs
variable [Inhabited ε]

/-- Exact loss accounting of one sink over every interleaving. -/
theorem loss_accounting (actions : List (Action ε))
    (hdrawn : (State.after actions).drawn < 2 ^ 64) (k : Fin kSinkCount) :
    ((State.after actions).sinks k).Accounted := by
  have h : ((State.after actions).sinks k).Valid (State.after actions).sequence :=
    (State.after_valid hdrawn).sink k
  refine ⟨fun i => ?_, ?_, fun m hm => ?_, h.ledger.notices_sent⟩
  · have hc := h.ledger.nodes.count_eq i
    rw [List.count_eq_one_of_mem (List.nodup_finRange _) (List.mem_finRange i)] at hc
    simpa only [List.map_append, List.count_append] using hc
  · have hl := h.ledger.events.length_eq
    simp only [List.length_append, List.length_map] at hl
    rw [hl, h.ledger.counter]
    omega
  · rw [min_comm]
    exact h.ledger.notices_exact m hm

theorem loss_accounting_lossyRun : ((State.after lossyRun).sinks viewerSink).Accounted ∧
    ((State.after lossyRun).sinks viewerSink).notices = [(2, 1)] :=
  ⟨loss_accounting lossyRun (drawn_lt (by decide)) viewerSink, by decide +kernel⟩

def unread (n : Nat) : List (Action Unit) :=
  [.createThread viewerSink, .setRunning viewerSink] ++ List.replicate n (.emit ())

theorem unread_accounted {n : Nat} (h : ((State.after (unread n)).sinks viewerSink).Accounted) :
    n < 2 ^ 64 + 1024 := by
  have hstarted : ∀ s : Sink Unit, s = (run State.step State.initial
      [.createThread viewerSink, .setRunning viewerSink]).sinks viewerSink →
      s.emitted = [] ∧ s.attempts = [] ∧ s.worker.held = [] := by
    rintro s rfl
    exact ⟨rfl, rfl, rfl⟩
  obtain ⟨hnothing, hnone, hheld⟩ := hstarted _ rfl
  obtain ⟨hworker, hattempts, hemitted, hdropped⟩ := emits_unread (k := viewerSink)
    (t := run State.step State.initial [.createThread viewerSink, .setRunning viewerSink])
    rfl (by decide) () n
  rw [← run_append] at hworker hattempts hemitted hdropped
  have hevents := h.events
  have hnodes := ((State.after_formed (unread n)).sink viewerSink).books.node_count
  rw [Sink.confirmed] at hevents
  simp only [State.after, unread, hworker, hattempts, hemitted, hnothing, hnone, hheld,
    List.filterMap_nil, List.length_nil, kQueueCapacity] at hevents hnodes
  omega

/-- With 2^64 events lost the 64-bit counter is behind the losses. -/
theorem dropped_wraps : ¬ ∀ (actions : List (Action Unit)) (k : Fin kSinkCount),
    ((State.after actions).sinks k).Accounted := by
  intro h
  exact lt_irrefl _ (unread_accounted (h (unread (2 ^ 64 + 1024)) viewerSink))

/-- Order of delivery over every interleaving of emits with both workers. -/
theorem connection_order (actions : List (Action ε))
    (hdrawn : (State.after actions).drawn < 2 ^ 64) : (State.after actions).Ordered where
  increasing k := ((State.after_valid hdrawn).sink k).increasing ((State.after_formed actions).sink k)
  hello k := ((State.after_formed actions).sink k).hello_first
  once k := ((State.after_valid hdrawn).sink k).attempted_increasing.imp fun hab => hab.ne
  emits := (State.after_valid hdrawn).emits_order
  confirmed k := ((State.after_valid hdrawn).sink k).confirmed_sublist.trans
    ((State.after_formed actions).emitted k)

theorem connection_order_lossyRun : (State.after lossyRun).Ordered ∧
    written ((State.after lossyRun).sinks viewerSink).pipe =
      [.hello, .dropNotice 2 1, .event ⟨3, ()⟩] :=
  ⟨connection_order lossyRun (drawn_lt (by decide)), by decide +kernel⟩

theorem late_ordered {n : Nat} (h : (State.after (lateViewer () n)).Ordered) :
    0 < increment64 (n % 2 ^ 64) := by
  have hincreasing := h.increasing viewerSink _
    (List.mem_append_right _ (List.mem_singleton_self _))
  rw [connection_lateViewer] at hincreasing
  simpa [written, writtenFrame, Frame.sequence] using hincreasing

/-- The event of number 2^64 goes out behind its Hello with Sequence 0. -/
theorem sequence_wraps : ¬ ∀ actions : List (Action Unit), (State.after actions).Ordered := by
  intro h
  have hpositive := late_ordered (h (lateViewer () (2 ^ 64 - 1)))
  exact absurd hpositive (by decide)

end Runs

end FfbInterceptor.Telemetry
