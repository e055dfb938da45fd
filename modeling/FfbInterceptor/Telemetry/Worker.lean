import FfbInterceptor.Telemetry.Ledger

/-! The program of a sink worker keeps the ledger, whatever its pipe does. What it relies on
from one point to the next is stated per program point. -/
namespace FfbInterceptor.Telemetry
open Library.Runs
variable {ε : Type}

/-- An open connection: its only Hello, then sends that all succeeded. -/
def Greeted (c : List (PipeEntry ε)) : Prop :=
  ∃ rest, c = .frame .hello .ok :: rest ∧ ∀ f r, .frame f r ∈ rest → f ≠ .hello ∧ r = .ok

def Broken (c : List (PipeEntry ε)) : Prop :=
  (∃ b, c = [.frame .hello (.failed b)]) ∨
  ∃ opened f b, Greeted opened ∧ f ≠ .hello ∧ c = opened ++ [.frame f (.failed b)]

/-- The pending list cannot be refilled behind a counter that was read before. -/
def Sink.AtPoint (s : Sink ε) : Prop :=
  match s.worker with
  | .sending _ batch => (batch.map Node.sequence).Pairwise (· < ·)
  | .checkingDrops _ drops => s.pending = [] → drops = s.dropped
  | .sendingNotice drops q =>
    0 < q ∧ (∀ p ∈ s.numbers, p < q) ∧ (q, min drops UINT32_MAX) ∈ s.notices
  | _ => True

def Sink.PipeAtPoint (s : Sink ε) : Prop :=
  match s.worker with
  | .flushing _ | .collecting _ _ _ | .sending _ _ | .checkingDrops _ _ | .sendingNotice _ _ =>
    Greeted s.pipe
  | .discarding _ => Broken s.pipe
  | _ => s.pipe = []

/-- What holds of a sink whatever the numbers are. -/
structure Sink.Formed (s : Sink ε) : Prop where
  books : Books s.worker.held s
  closed : ∀ c ∈ s.closed, Broken c
  pipe : s.PipeAtPoint

structure Sink.Valid (n : Nat) (s : Sink ε) : Prop where
  ledger : Ledger n s.worker.held s
  point : s.AtPoint

theorem Greeted.check {c : List (PipeEntry ε)} (h : Greeted c) (d : Nat) :
    Greeted (c ++ [.check d]) := by
  obtain ⟨rest, rfl, hr⟩ := h
  refine ⟨rest ++ [.check d], rfl, fun f r hm => hr f r ?_⟩
  simpa using hm

theorem Greeted.sent {c : List (PipeEntry ε)} (h : Greeted c) {f : Frame ε} (hf : f ≠ .hello) :
    Greeted (c ++ [.frame f .ok]) := by
  obtain ⟨rest, rfl, hr⟩ := h
  refine ⟨rest ++ [.frame f .ok], rfl, fun g r hm => ?_⟩
  rcases List.mem_append.mp hm with hm | hm
  · exact hr g r hm
  · obtain ⟨rfl, rfl⟩ : g = f ∧ r = .ok := by simpa using hm
    exact ⟨hf, rfl⟩

section Steps
variable {n : Nat} {s : Sink ε} {held : List (Node ε)}

theorem Books.at (h : Books held s) {w : Worker ε} (hw : w.held = held) :
    Books w.held { s with worker := w } := by
  rw [hw]
  exact h.congr rfl rfl rfl rfl rfl

theorem Books.close (h : Books held s) : Books held s.close :=
  h.congr rfl rfl rfl rfl (attempts_close s)

theorem Books.check (h : Books held s) (d : Nat) :
    Books held { s with pipe := s.pipe ++ [.check d] } :=
  h.congr rfl rfl rfl rfl (attempts_check s d)

theorem Ledger.at (h : Ledger n held s) {w : Worker ε} (hw : w.held = held) :
    Ledger n w.held { s with worker := w } := by
  rw [hw]
  exact h.congr rfl rfl rfl rfl rfl rfl rfl

theorem Ledger.close (h : Ledger n held s) : Ledger n held s.close :=
  h.congr rfl rfl rfl rfl rfl rfl (attempts_close s)

theorem Ledger.check (h : Ledger n held s) (d : Nat) :
    Ledger n held { s with pipe := s.pipe ++ [.check d] } :=
  h.congr rfl rfl rfl rfl rfl rfl (attempts_check s d)

theorem Ledger.held_nodup (h : Ledger n held s) : (held.map Node.sequence).Nodup := by
  have hn := h.fates_nodup
  simp only [List.map_append, List.map_map] at hn
  exact (List.nodup_append.mp (List.nodup_append.mp hn).2.1).2.1

theorem sortBatch_increasing {batch : List (Node ε)} (h : (batch.map Node.sequence).Nodup) :
    ((sortBatch batch).map Node.sequence).Pairwise (· < ·) := by
  have hp : (sortBatch batch).Perm batch := List.perm_insertionSort _ _
  have hle : (sortBatch batch).Pairwise fun a b => a.sequence ≤ b.sequence := by
    have : Std.Total fun a b : Node ε => a.event.sequence ≤ b.event.sequence :=
      ⟨fun a b => le_total _ _⟩
    have : IsTrans (Node ε) fun a b => a.event.sequence ≤ b.event.sequence :=
      ⟨fun a b c => le_trans⟩
    exact List.pairwise_insertionSort _ batch
  have hne : (sortBatch batch).Pairwise fun a b => a.sequence ≠ b.sequence :=
    List.pairwise_map.mp ((hp.map Node.sequence).nodup_iff.mpr h)
  exact List.pairwise_map.mpr ((hle.and hne).imp fun hab => lt_of_le_of_ne hab.1 hab.2)

theorem Books.pending_of_full (h : Books [] s) (hf : s.free = []) : s.pending ≠ [] := by
  intro hp
  have hc := h.node_count
  simp [hf, hp, kQueueCapacity] at hc

theorem enqueue_worker (s : Sink ε) (e : Sequenced ε) :
    (s.enqueue e).worker = s.worker ∧ (s.enqueue e).closed = s.closed ∧
      (s.enqueue e).pipe = s.pipe := by
  unfold Sink.enqueue
  split <;> exact ⟨rfl, rfl, rfl⟩

theorem Sink.Formed.enqueue (h : s.Formed) (e : Sequenced ε) : (s.enqueue e).Formed := by
  obtain ⟨hw, hc, hp⟩ := enqueue_worker s e
  refine ⟨?_, by rw [hc]; exact h.closed, ?_⟩
  · rw [hw]
    exact h.books.enqueue e
  · have hpp := h.pipe
    unfold Sink.PipeAtPoint at hpp ⊢
    rw [hw, hp]
    exact hpp

theorem broken_close (hc : ∀ c ∈ s.closed, Broken c) (hp : Broken s.pipe) :
    ∀ c ∈ s.close.closed, Broken c := by
  intro c hm
  rcases List.mem_append.mp hm with hm | hm
  · exact hc c hm
  · rw [List.mem_singleton.mp hm]
    exact hp

/-- Every step of the worker keeps the books and leaves connections of the known shapes. -/
theorem Sink.Formed.runStep (h : s.Formed) (n : Nat) (r : IoResult) : (s.runStep n r).Formed := by
  obtain ⟨hbooks, hclosed, hpipe⟩ := h
  cases hw : s.worker <;> rw [hw] at hbooks <;>
    simp only [Sink.PipeAtPoint, hw] at hpipe <;>
    simp only [Sink.runStep, hw, Worker.held] at hbooks ⊢
  case notCreated =>
    exact ⟨by rw [hw]; exact hbooks, hclosed, by simpa [Sink.PipeAtPoint, hw] using hpipe⟩
  case connecting =>
    cases r with
    | ok => exact ⟨hbooks.at rfl, hclosed, hpipe⟩
    | failed b => exact ⟨hbooks.at rfl, hclosed, hpipe⟩
  case droppingPending => exact ⟨hbooks.flush.at rfl, hclosed, hpipe⟩
  case recycling list =>
    cases list with
    | nil => exact ⟨hbooks.at rfl, hclosed, hpipe⟩
    | cons x list => exact ⟨hbooks.drop.at rfl, hclosed, hpipe⟩
  case sendingHello =>
    have hp : (s.write .hello r).pipe = [.frame .hello r] := by simp [Sink.write, hpipe]
    have hsent := hbooks.write (f := .hello) r rfl
    cases r with
    | ok => exact ⟨hsent.at rfl, hclosed, ⟨[], hp, by simp⟩⟩
    | failed b => exact ⟨hsent.close.at rfl, broken_close hclosed (Or.inl ⟨b, hp⟩), rfl⟩
  case flushing reported =>
    exact ⟨hbooks.flush.at (List.take_append_drop kQueueCapacity s.pending), hclosed, hpipe⟩
  case collecting reported batch list =>
    cases list with
    | nil =>
      rw [List.append_nil] at hbooks
      have hp : (sortBatch batch).Perm batch := List.perm_insertionSort _ _
      exact ⟨(hbooks.reorder hp.symm).at rfl, hclosed, hpipe⟩
    | cons x list => exact ⟨(hbooks.reorder List.perm_middle).drop.at rfl, hclosed, hpipe⟩
  case sending reported batch =>
    cases batch with
    | nil => exact ⟨hbooks.at rfl, hclosed, hpipe⟩
    | cons x batch =>
      cases r with
      | ok => exact ⟨hbooks.send_ok.at rfl, hclosed, hpipe.sent (by simp)⟩
      | failed b =>
        exact ⟨(hbooks.send_failed b).at rfl, hclosed, Or.inr ⟨s.pipe, _, b, hpipe, by simp, rfl⟩⟩
  case discarding unsent =>
    cases unsent with
    | nil => exact ⟨hbooks.close.at rfl, broken_close hclosed hpipe, rfl⟩
    | cons x unsent => exact ⟨hbooks.drop.at rfl, hclosed, hpipe⟩
  case checkingDrops reported drops =>
    split
    · exact ⟨(hbooks.check _).at rfl, hclosed, hpipe.check _⟩
    · split
      · exact ⟨(hbooks.check drops).congr rfl rfl rfl rfl rfl, hclosed, hpipe.check _⟩
      · exact ⟨hbooks.at rfl, hclosed, hpipe⟩
  case sendingNotice drops q =>
    have hsent := hbooks.write (f := .dropNotice q (min drops UINT32_MAX)) r rfl
    cases r with
    | ok => exact ⟨hsent.at rfl, hclosed, hpipe.sent (by simp)⟩
    | failed b =>
      exact ⟨hsent.close.at rfl,
        broken_close hclosed (Or.inr ⟨s.pipe, _, b, hpipe, by simp, rfl⟩), rfl⟩

theorem Sink.Valid.enqueue (h : s.Valid n) (hn : n + 1 < 2 ^ 64) (e : ε) :
    (s.enqueue ⟨n+1, e⟩).Valid (n+1) := by
  obtain ⟨hw, -, -⟩ := enqueue_worker s ⟨n+1, e⟩
  obtain ⟨ha, -, hno⟩ := history_enqueue s ⟨n+1, e⟩
  refine ⟨?_, ?_⟩
  · rw [hw]
    exact h.ledger.enqueue hn e
  · have hpt := h.point
    cases hcase : s.worker <;> simp only [Sink.AtPoint, hw, hcase] at hpt ⊢
    case sending reported batch => exact hpt
    case checkingDrops reported drops =>
      intro hnil
      unfold Sink.enqueue at hnil
      split at hnil
      · next hf =>
        have hled := h.ledger
        rw [hcase] at hled
        exact absurd hnil (hled.pending_of_full hf)
      · simp at hnil
    case sendingNotice drops q =>
      have hq : (s.enqueue ⟨n+1, e⟩).numbers = s.numbers := by simp only [Sink.numbers, ha]
      rw [hq, hno]
      exact hpt

theorem Sink.Valid.mono (h : s.Valid n) {m : Nat} (hnm : n ≤ m) : s.Valid m :=
  ⟨h.ledger.mono hnm, h.point⟩

/-- Every step of the worker keeps the ledger and leads to a point whose promise holds. -/
theorem Sink.Valid.runStep (h : s.Valid n) (r : IoResult)
    (hn : (if s.drawsSequence then n+1 else n) < 2 ^ 64) :
    (s.runStep n r).Valid (if s.drawsSequence then n+1 else n) := by
  obtain ⟨hled, hpt⟩ := h
  have hlow : n < 2 ^ 64 := by split at hn <;> omega
  cases hw : s.worker <;> rw [hw] at hled <;>
    simp only [Sink.AtPoint, hw] at hpt <;>
    simp only [Sink.runStep, Sink.drawsSequence, hw, Worker.held, Bool.false_eq_true,
      if_false] at hled ⊢
  case notCreated => exact ⟨by rw [hw]; exact hled, by simp [Sink.AtPoint, hw]⟩
  case connecting =>
    cases r with
    | ok => exact ⟨hled.at rfl, trivial⟩
    | failed b => exact ⟨hled.at rfl, trivial⟩
  case droppingPending => exact ⟨hled.flush.at rfl, trivial⟩
  case recycling list =>
    cases list with
    | nil => exact ⟨hled.at rfl, trivial⟩
    | cons x list => exact ⟨(hled.drop hlow).at rfl, trivial⟩
  case sendingHello =>
    cases r with
    | ok => exact ⟨(hled.write_hello _).at rfl, trivial⟩
    | failed b => exact ⟨(hled.write_hello _).close.at rfl, trivial⟩
  case flushing reported =>
    exact ⟨hled.flush.at (List.take_append_drop kQueueCapacity s.pending), trivial⟩
  case collecting reported batch list =>
    cases list with
    | nil =>
      rw [List.append_nil] at hled
      have hp : (sortBatch batch).Perm batch := List.perm_insertionSort _ _
      exact ⟨(hled.reorder hp.symm).at rfl, sortBatch_increasing hled.held_nodup⟩
    | cons x list => exact ⟨((hled.reorder List.perm_middle).drop hlow).at rfl, trivial⟩
  case sending reported batch =>
    cases batch with
    | nil => exact ⟨hled.at rfl, fun _ => rfl⟩
    | cons x batch =>
      simp only [List.map_cons, List.pairwise_cons, List.mem_map, forall_exists_index, and_imp,
        forall_apply_eq_imp_iff₂] at hpt
      cases r with
      | ok => exact ⟨(hled.send_ok hpt.1).at rfl, hpt.2⟩
      | failed b => exact ⟨(hled.send_failed hpt.1 hlow b).at rfl, trivial⟩
  case discarding unsent =>
    cases unsent with
    | nil => exact ⟨hled.close.at rfl, trivial⟩
    | cons x unsent => exact ⟨(hled.drop hlow).at rfl, trivial⟩
  case checkingDrops reported drops =>
    by_cases hd : drops = reported
    · simp only [hd, if_true, ne_eq, not_true, decide_false, Bool.false_and, Bool.false_eq_true,
        if_false]
      exact ⟨(hled.check _).at rfl, trivial⟩
    · by_cases hp : s.pending = []
      · have he : s.pending.isEmpty = true := by simp [hp]
        simp only [Sink.drawsSequence, hw, hd, he, ne_eq, not_false_iff, decide_true, Bool.and_true,
          if_true] at hn
        simp only [hd, he, if_false, if_true, ne_eq, not_false_iff, decide_true, Bool.and_true,
          increment64_of_lt hn]
        obtain rfl := hpt hp
        refine ⟨((hled.issue hp).check s.dropped).at rfl,
          ⟨Nat.succ_pos n, fun p hm => ?_, List.mem_append_right _ (by simp)⟩⟩
        have hq : p ∈ s.numbers := by
          unfold Sink.numbers
          rw [← attempts_check s s.dropped]
          exact hm
        exact Nat.lt_succ_of_le (hled.numbers_range p hq).2.1
      · have he : s.pending.isEmpty = false := by simpa using hp
        simp only [hd, he, if_false, Bool.false_eq_true, Bool.and_false]
        exact ⟨hled.at rfl, trivial⟩
  case sendingNotice drops q =>
    obtain ⟨h0, hold, hmem⟩ := hpt
    obtain ⟨hqn, hnew⟩ := hled.notices_range _ hmem
    have hsent := hled.write_notice h0 hqn hold hnew hmem r
    cases r with
    | ok => exact ⟨hsent.at rfl, trivial⟩
    | failed b => exact ⟨hsent.close.at rfl, trivial⟩

end Steps

theorem emitted_runStep (s : Sink ε) (n : Nat) (r : IoResult) :
    (s.runStep n r).emitted = s.emitted := by
  unfold Sink.runStep
  split <;> (try split) <;> (try split) <;> rfl

/-- Both sinks are well formed and take their events from the common emit order. -/
structure State.Formed (t : State ε) : Prop where
  sink : ∀ k, (t.sinks k).Formed
  emitted : ∀ k, (t.sinks k).emitted.Sublist t.emits

theorem State.Formed.setSink {t : State ε} (h : t.Formed) {k : Fin kSinkCount} {s : Sink ε}
    (hs : s.Formed) (he : s.emitted = (t.sinks k).emitted) : (t.setSink k s).Formed where
  sink := (Function.forall_update_iff t.sinks fun _ s => s.Formed).mpr ⟨hs, fun j _ => h.sink j⟩
  emitted := (Function.forall_update_iff t.sinks fun _ s => s.emitted.Sublist t.emits).mpr
    ⟨he ▸ h.emitted k, fun j _ => h.emitted j⟩

theorem State.Formed.step {t : State ε} (h : t.Formed) (a : Action ε) : (t.step a).Formed := by
  cases a with
  | createThread k =>
    have hk := h.sink k
    simp only [State.step, Sink.createThread]
    split
    · next hw =>
      obtain ⟨hbooks, hclosed, hpipe⟩ := hk
      simp only [Sink.PipeAtPoint, hw] at hbooks hpipe
      exact h.setSink ⟨hbooks.at rfl, hclosed, hpipe⟩ rfl
    · exact h.setSink hk rfl
  | setRunning k =>
    have hk := h.sink k
    simp only [State.step, Sink.setRunning]
    split
    · exact h.setSink hk rfl
    · exact h.setSink ⟨hk.books.congr rfl rfl rfl rfl rfl, hk.closed, hk.pipe⟩ rfl
  | emit event =>
    refine ⟨fun k => ?_, fun k => ?_⟩
    · rw [State.step, sinks_emit]
      split
      · exact (h.sink k).enqueue _
      · exact h.sink k
    · simp only [State.step, State.emit]
      split
      · change (if (t.sinks k).running then _ else _ : Sink ε).emitted.Sublist _
        split
        · rw [(history_enqueue (t.sinks k) _).2.1]
          exact (h.emitted k).append (List.Sublist.refl _)
        · exact (h.emitted k).trans (List.sublist_append_left _ _)
      · exact h.emitted k
  | run k r =>
    have hset := h.setSink ((h.sink k).runStep t.sequence r) (emitted_runStep _ _ _)
    exact ⟨hset.sink, hset.emitted⟩

/-- The shared counter, the numbers of the common emit order, and both sinks in good standing. -/
structure State.Valid (t : State ε) : Prop where
  sequence : t.sequence = t.drawn
  sink : ∀ k, (t.sinks k).Valid t.sequence
  emits_order : (t.emits.map Sequenced.sequence).Pairwise (· < ·)
  emits_range : ∀ e ∈ t.emits, e.sequence ≤ t.sequence

theorem State.Valid.setSink {t : State ε} (h : t.Valid) {k : Fin kSinkCount} {s : Sink ε} {m : Nat}
    (hm : t.sequence ≤ m) (hs : s.Valid m) :
    State.Valid { t.setSink k s with sequence := m, drawn := m } where
  sequence := rfl
  sink := (Function.forall_update_iff t.sinks fun _ s => s.Valid m).mpr
    ⟨hs, fun j _ => (h.sink j).mono hm⟩
  emits_order := h.emits_order
  emits_range e he' := (h.emits_range e he').trans hm

theorem State.Valid.undrawn {t : State ε} (h : t.Valid) {k : Fin kSinkCount} {s : Sink ε}
    (hs : s.Valid t.sequence) : (t.setSink k s).Valid where
  sequence := h.sequence
  sink := (h.setSink le_rfl hs).sink
  emits_order := h.emits_order
  emits_range := h.emits_range

theorem drawn_step (t : State ε) (a : Action ε) :
    t.drawn ≤ (t.step a).drawn ∧ (t.step a).drawn ≤ t.drawn + 1 := by
  cases a with
  | createThread k => exact ⟨le_rfl, Nat.le_succ _⟩
  | setRunning k => exact ⟨le_rfl, Nat.le_succ _⟩
  | emit event =>
    simp only [State.step, State.emit]
    split
    · exact ⟨Nat.le_succ _, le_rfl⟩
    · exact ⟨le_rfl, Nat.le_succ _⟩
  | run k r =>
    simp only [State.step]
    split
    · exact ⟨Nat.le_succ _, le_rfl⟩
    · exact ⟨le_rfl, Nat.le_succ _⟩

theorem drawn_le_step (t : State ε) (a : Action ε) : t.drawn ≤ (t.step a).drawn := (drawn_step t a).1

theorem sequence_step {t : State ε} (h : t.sequence = t.drawn) (a : Action ε)
    (hdrawn : (t.step a).drawn < 2 ^ 64) : (t.step a).sequence = (t.step a).drawn := by
  cases a with
  | createThread k => exact h
  | setRunning k => exact h
  | emit event =>
    simp only [State.step, State.emit] at hdrawn ⊢
    split at hdrawn
    · next hany => simp only [hany, if_true, h, increment64_of_lt hdrawn]
    · next hany => simp only [hany, Bool.false_eq_true, if_false, h]
  | run k r =>
    simp only [State.step] at hdrawn ⊢
    split at hdrawn
    · next hdraws => simp only [hdraws, if_true, h, increment64_of_lt hdrawn]
    · next hdraws => simp only [hdraws, Bool.false_eq_true, if_false, h]

theorem drawn_run (t : State ε) (actions : List (Action ε)) :
    (run State.step t actions).drawn ≤ t.drawn + actions.length := by
  induction actions generalizing t with
  | nil => exact le_rfl
  | cons a actions ih =>
    have hrest := ih (t.step a)
    have hstep := (drawn_step t a).2
    rw [run_cons, List.length_cons]
    omega

theorem State.Valid.emit {t : State ε} (h : t.Valid) (event : ε)
    (hdrawn : (t.emit event).drawn < 2 ^ 64) : (t.emit event).Valid := by
  cases hany : t.anyRunning with
  | false => simpa only [State.emit, hany, Bool.false_eq_true, if_false] using h
  | true =>
    have hnext : t.sequence + 1 < 2 ^ 64 := by
      simpa only [State.emit, hany, if_true, ← h.sequence] using hdrawn
    have hsink : ∀ k, ((t.emit event).sinks k).Valid (t.sequence + 1) := by
      intro k
      rw [sinks_emit, increment64_of_lt hnext]
      split
      · exact (h.sink k).enqueue hnext event
      · exact (h.sink k).mono (Nat.le_succ _)
    simp only [State.emit, hany, if_true, increment64_of_lt hnext] at hsink ⊢
    refine ⟨congrArg (· + 1) h.sequence, hsink, ?_, ?_⟩
    · rw [List.map_append]
      refine List.pairwise_append.mpr ⟨h.emits_order, List.pairwise_singleton _ _, ?_⟩
      intro a ha b hb
      obtain ⟨e, he, rfl⟩ := List.mem_map.mp ha
      rw [List.mem_singleton.mp hb]
      exact Nat.lt_succ_of_le (h.emits_range e he)
    · intro e he
      rcases List.mem_append.mp he with he | he
      · exact (h.emits_range e he).trans (Nat.le_succ _)
      · rw [List.mem_singleton.mp he]

theorem State.Valid.step {t : State ε} (h : t.Valid) (a : Action ε)
    (hdrawn : (t.step a).drawn < 2 ^ 64) : (t.step a).Valid := by
  cases a with
  | createThread k =>
    have hk := h.sink k
    simp only [State.step, Sink.createThread]
    split
    · next hw =>
      have hled := hk.ledger
      rw [hw] at hled
      exact h.undrawn ⟨hled.at rfl, trivial⟩
    · exact h.undrawn hk
  | setRunning k =>
    have hk := h.sink k
    simp only [State.step, Sink.setRunning]
    split
    · exact h.undrawn hk
    · exact h.undrawn ⟨hk.ledger.congr rfl rfl rfl rfl rfl rfl rfl, hk.point⟩
  | emit event => exact h.emit event hdrawn
  | run k r =>
    simp only [State.step, ← h.sequence] at hdrawn ⊢
    have hnext : (if (t.sinks k).drawsSequence then increment64 t.sequence else t.sequence) =
        if (t.sinks k).drawsSequence then t.sequence + 1 else t.sequence := by
      split at hdrawn
      · next hdraw => simp only [hdraw, if_true, increment64_of_lt hdrawn]
      · next hdraw => simp only [hdraw, Bool.false_eq_true, if_false]
    rw [hnext]
    refine h.setSink ?_ ((h.sink k).runStep r hdrawn)
    split
    · exact Nat.le_succ _
    · exact le_rfl

section Reachable
variable [Inhabited ε]

theorem Sink.initial_books : Books [] (Sink.initial : Sink ε) where
  nodes := by
    simp only [Sink.initial, List.append_nil, List.map_map]
    exact (List.Perm.of_eq (by simp [Function.comp_def])).trans (List.reverse_perm _)
  events := List.Perm.refl _

theorem Sink.initial_valid : (Sink.initial : Sink ε).Valid 0 where
  ledger := {
    __ := Sink.initial_books
    counter := rfl
    emitted_order := List.Pairwise.nil
    emitted_range := by simp [Sink.initial]
    pending_order := List.Pairwise.nil
    held_before := by simp [Sink.initial, Worker.held]
    numbers_order := List.Pairwise.nil
    numbers_range := by simp [Sink.initial, Sink.numbers, Sink.attempts, Sink.connections]
    notices_exact := by simp [Sink.initial]
    notices_range := by simp [Sink.initial]
    notices_sent := by simp [Sink.initial, Sink.attempts, Sink.connections] }
  point := trivial

theorem State.initial_formed : (State.initial : State ε).Formed where
  sink _ := ⟨Sink.initial_books, by simp [State.initial, Sink.initial], rfl⟩
  emitted _ := List.Sublist.refl _

theorem State.initial_valid : (State.initial : State ε).Valid where
  sequence := rfl
  sink _ := Sink.initial_valid
  emits_order := List.Pairwise.nil
  emits_range := by simp [State.initial]

theorem State.after_formed (actions : List (Action ε)) : (State.after actions).Formed :=
  run_invariant (fun _ a h => h.step a) State.initial_formed actions

theorem drawn_lt {actions : List (Action ε)} (h : actions.length < 2 ^ 64) :
    (State.after actions).drawn < 2 ^ 64 := by
  have hle := drawn_run State.initial actions
  rw [State.initial, Nat.zero_add] at hle
  exact lt_of_le_of_lt hle h

/-- Every reachable state is in good standing, as long as the counter has not wrapped. -/
theorem State.after_valid {actions : List (Action ε)} (hdrawn : (State.after actions).drawn < 2 ^ 64) :
    (State.after actions).Valid :=
  run_invariant_below drawn_le_step (fun _ a hnext h => h.step a hnext) State.initial_valid actions
    hdrawn

end Reachable

end FfbInterceptor.Telemetry
