import Mathlib.Order.WellFounded
import FfbInterceptor.Library.Unwinding
import FfbInterceptor.Telemetry.Delivery

/-! Two runs of the producer that differ only in the other sink. Both are compared with the run
in which the other sink does nothing: until the counter wraps the numbers differ by a strictly
increasing renaming, and no step of the queue or of the worker looks at more of a number than its
order. -/
namespace FfbInterceptor.Telemetry
open Library.Runs
variable {ε : Type}

section Renumber
variable (f : Nat → Nat)

def Sequenced.renumber (e : Sequenced ε) : Sequenced ε := { e with sequence := f e.sequence }

def Node.renumber (n : Node ε) : Node ε := { n with event := n.event.renumber f }

def Frame.renumber : Frame ε → Frame ε
  | .hello => .hello
  | .event e => .event (e.renumber f)
  | .dropNotice q d => .dropNotice (f q) d

def PipeEntry.renumber : PipeEntry ε → PipeEntry ε
  | .frame g r => .frame (g.renumber f) r
  | .check drops => .check drops

def Worker.renumber : Worker ε → Worker ε
  | .notCreated => .notCreated
  | .connecting => .connecting
  | .droppingPending => .droppingPending
  | .recycling list => .recycling (list.map (Node.renumber f))
  | .sendingHello => .sendingHello
  | .flushing reported => .flushing reported
  | .collecting reported batch list =>
    .collecting reported (batch.map (Node.renumber f)) (list.map (Node.renumber f))
  | .sending reported batch => .sending reported (batch.map (Node.renumber f))
  | .discarding unsent => .discarding (unsent.map (Node.renumber f))
  | .checkingDrops reported drops => .checkingDrops reported drops
  | .sendingNotice drops q => .sendingNotice drops (f q)

/-- The sink with every sequence number `q` in it replaced by `f q`. -/
def Sink.renumber (s : Sink ε) : Sink ε where
  free := s.free.map (Node.renumber f)
  pending := s.pending.map (Node.renumber f)
  running := s.running
  dropped := s.dropped
  worker := s.worker.renumber f
  emitted := s.emitted.map (Sequenced.renumber f)
  lost := s.lost.map (Sequenced.renumber f)
  notices := s.notices.map fun m => (f m.1, m.2)
  closed := s.closed.map fun c => c.map (PipeEntry.renumber f)
  pipe := s.pipe.map (PipeEntry.renumber f)

end Renumber

section Commutes
variable {f : Nat → Nat} (s : Sink ε)

theorem renumber_enqueue (e : Sequenced ε) :
    (s.enqueue e).renumber f = (s.renumber f).enqueue (e.renumber f) := by
  cases hfree : s.free with
  | nil =>
    simp only [Sink.enqueue, hfree, Sink.renumber, List.map_append, List.map_cons, List.map_nil]
  | cons n free =>
    simp only [Sink.enqueue, hfree, Sink.renumber, List.map_append, List.map_cons, List.map_nil,
      Node.renumber]

theorem renumber_createThread : s.createThread.renumber f = (s.renumber f).createThread := by
  cases hw : s.worker <;> simp only [Sink.createThread, Sink.renumber, Worker.renumber, hw]

theorem renumber_setRunning : s.setRunning.renumber f = (s.renumber f).setRunning := by
  cases hw : s.worker <;> simp only [Sink.setRunning, Sink.renumber, Worker.renumber, hw]

theorem drawsSequence_renumber : (s.renumber f).drawsSequence = s.drawsSequence := by
  cases hw : s.worker <;>
    simp only [Sink.drawsSequence, Sink.renumber, Worker.renumber, hw, List.isEmpty_map]

theorem renumber_sortBatch (hf : StrictMono f) (batch : List (Node ε)) :
    (sortBatch batch).map (Node.renumber f) = sortBatch (batch.map (Node.renumber f)) := by
  apply List.map_insertionSort
  intro a _ b _
  exact hf.le_iff_le.symm

/-- A step of the worker commutes with the renaming; a number it draws is renamed like the
others. -/
theorem renumber_runStep (hf : StrictMono f) {n m : Nat} (r : IoResult)
    (hdraw : s.drawsSequence = true → f (increment64 n) = increment64 m) :
    (s.runStep n r).renumber f = (s.renumber f).runStep m r := by
  cases hw : s.worker with
  | notCreated => simp only [Sink.runStep, Sink.renumber, Worker.renumber, hw]
  | connecting => cases r <;> simp only [Sink.runStep, Sink.renumber, Worker.renumber, hw]
  | droppingPending =>
    simp only [Sink.runStep, Sink.renumber, Worker.renumber, hw, List.map_nil]
  | recycling list =>
    cases list with
    | nil => simp only [Sink.runStep, Sink.renumber, Worker.renumber, hw, List.map_nil]
    | cons x list =>
      simp only [Sink.runStep, Sink.renumber, Worker.renumber, hw, Sink.drop, Sink.push,
        List.map_append, List.map_cons, List.map_nil, Node.renumber]
  | sendingHello =>
    cases r <;>
      simp only [Sink.runStep, Sink.renumber, Worker.renumber, hw, Sink.write, Sink.close,
        List.map_append, List.map_cons, List.map_nil, PipeEntry.renumber, Frame.renumber]
  | flushing reported =>
    simp only [Sink.runStep, Sink.renumber, Worker.renumber, hw, List.map_nil, List.map_take,
      List.map_drop]
  | collecting reported batch list =>
    cases list with
    | nil =>
      simp only [Sink.runStep, Sink.renumber, Worker.renumber, hw, List.map_nil,
        renumber_sortBatch hf]
    | cons x list =>
      simp only [Sink.runStep, Sink.renumber, Worker.renumber, hw, Sink.drop, Sink.push,
        List.map_append, List.map_cons, List.map_nil, Node.renumber]
  | sending reported batch =>
    cases batch with
    | nil => simp only [Sink.runStep, Sink.renumber, Worker.renumber, hw, List.map_nil]
    | cons x batch =>
      cases r <;>
        simp only [Sink.runStep, Sink.renumber, Worker.renumber, hw, Sink.write, Sink.drop,
          Sink.push, List.map_append, List.map_cons, List.map_nil, PipeEntry.renumber,
          Frame.renumber, Node.renumber]
  | discarding unsent =>
    cases unsent with
    | nil =>
      simp only [Sink.runStep, Sink.renumber, Worker.renumber, hw, Sink.close, List.map_append,
        List.map_cons, List.map_nil]
    | cons x unsent =>
      simp only [Sink.runStep, Sink.renumber, Worker.renumber, hw, Sink.drop, Sink.push,
        List.map_append, List.map_cons, List.map_nil, Node.renumber]
  | checkingDrops reported drops =>
    by_cases hsame : drops = reported
    · simp only [Sink.runStep, Sink.renumber, Worker.renumber, hw, hsame, ↓reduceIte,
        List.map_append, List.map_cons, List.map_nil, PipeEntry.renumber]
    · cases hempty : s.pending.isEmpty with
      | false =>
        simp only [Sink.runStep, Sink.renumber, Worker.renumber, hw, hsame, hempty,
          List.isEmpty_map, Bool.false_eq_true, ↓reduceIte]
      | true =>
        have hq : f (increment64 n) = increment64 m := by
          apply hdraw
          simp only [Sink.drawsSequence, hw, hsame, hempty, ne_eq, not_false_eq_true, decide_true,
            Bool.and_self]
        simp only [Sink.runStep, Sink.renumber, Worker.renumber, hw, hsame, hempty,
          List.isEmpty_map, ↓reduceIte, List.map_append, List.map_cons, List.map_nil,
          PipeEntry.renumber, hq]
  | sendingNotice drops q =>
    cases r <;>
      simp only [Sink.runStep, Sink.renumber, Worker.renumber, hw, Sink.write, Sink.close,
        List.map_append, List.map_cons, List.map_nil, PipeEntry.renumber, Frame.renumber]

end Commutes

section Shadow
variable {k : Fin kSinkCount} {alone t : State ε}

/-- Whether sink `k` has a part in an action: every emit, and what its own worker does. -/
def seenBy (k : Fin kSinkCount) : Action ε → Bool
  | .createThread j => j = k
  | .setRunning j => j = k
  | .emit _ => true
  | .run j _ => j = k

/-- Whether `emit` finds a node for the event in this sink. -/
def Sink.accepts (s : Sink ε) : Bool := s.running && !s.free.isEmpty

def State.accepted (k : Fin kSinkCount) (t : State ε) : Action ε → List ε
  | .emit event => if (t.sinks k).accepts then [event] else []
  | _ => []

/-- Sink `k` of `t` is sink `k` of `alone`, where no other sink runs, under a renaming of the
numbers drawn so far. The renaming is free on the numbers to come. -/
structure Shadows (k : Fin kSinkCount) (alone t : State ε) : Prop where
  counted : t.sequence = t.drawn
  others : ∀ j ≠ k, (alone.sinks j).running = false
  renamed : ∃ f : Nat → Nat, StrictMono f ∧ f alone.sequence ≤ t.sequence ∧
    ∀ g : Nat → Nat, StrictMono g → (∀ n ≤ alone.sequence, g n = f n) →
      t.sinks k = (alone.sinks k).renumber g

def extend (f : Nat → Nat) (n m : Nat) : Nat → Nat := fun q => if q ≤ n then f q else m + (q - n)

theorem extend_strictMono {f : Nat → Nat} (hf : StrictMono f) {n m : Nat} (h : f n ≤ m) :
    StrictMono (extend f n m) := by
  intro a b hab
  have hfab := hf hab
  simp only [extend]
  split <;> split
  · exact hfab
  · have hfa : f a ≤ f n := hf.monotone (by omega)
    omega
  · omega
  · omega

theorem Shadows.counts (h : Shadows k alone t) {a : Action ε} (hdrawn : (t.step a).drawn < 2 ^ 64) :
    (t.step a).sequence = (t.step a).drawn ∧ t.sequence ≤ (t.step a).sequence := by
  have hcounted := sequence_step h.counted a hdrawn
  refine ⟨hcounted, ?_⟩
  rw [hcounted, h.counted]
  exact drawn_le_step t a

/-- Both sides draw a number: the new one of `alone` is renamed to the new one of `t`. -/
theorem Shadows.draw (h : Shadows k alone t) {alone' : State ε} {a : Action ε}
    (hdrawn : (t.step a).drawn < 2 ^ 64) (hothers : ∀ j ≠ k, (alone'.sinks j).running = false)
    (hn : alone'.sequence = increment64 alone.sequence) (hm : (t.step a).drawn = t.drawn + 1)
    (hsink : ∀ g : Nat → Nat, StrictMono g → g (increment64 alone.sequence) = increment64 t.sequence →
      t.sinks k = (alone.sinks k).renumber g → (t.step a).sinks k = (alone'.sinks k).renumber g) :
    Shadows k alone' (t.step a) where
  counted := (h.counts hdrawn).1
  others := hothers
  renamed := by
    obtain ⟨f, hf, hle, hg⟩ := h.renamed
    have hnext : (t.step a).sequence = t.sequence + 1 := by rw [(h.counts hdrawn).1, hm, h.counted]
    have hlow : t.sequence + 1 < 2 ^ 64 := by rw [h.counted, ← hm]; exact hdrawn
    have hbehind : alone.sequence ≤ f alone.sequence := hf.le_apply
    have halone : increment64 alone.sequence = alone.sequence + 1 := increment64_of_lt (by omega)
    rw [halone] at hn
    simp only [increment64_of_lt hlow, halone] at hsink
    refine ⟨extend f alone.sequence t.sequence, extend_strictMono hf hle, ?_, ?_⟩
    · simp only [extend, hn, hnext]
      split <;> omega
    · intro g hmono hagree
      apply hsink g hmono
      · have hnew := hagree (alone.sequence + 1) (by omega)
        simp only [extend] at hnew
        split at hnew <;> omega
      · apply hg g hmono
        intro n hle'
        have hold := hagree n (by omega)
        simpa only [extend, hle', ↓reduceIte] using hold

theorem Shadows.keep (h : Shadows k alone t) {alone' : State ε} {a : Action ε}
    (hdrawn : (t.step a).drawn < 2 ^ 64) (hothers : ∀ j ≠ k, (alone'.sinks j).running = false)
    (hn : alone'.sequence = alone.sequence)
    (hsink : ∀ g : Nat → Nat, StrictMono g → t.sinks k = (alone.sinks k).renumber g →
      (t.step a).sinks k = (alone'.sinks k).renumber g) :
    Shadows k alone' (t.step a) where
  counted := (h.counts hdrawn).1
  others := hothers
  renamed := by
    obtain ⟨f, hf, hle, hg⟩ := h.renamed
    refine ⟨f, hf, by rw [hn]; exact hle.trans (h.counts hdrawn).2, ?_⟩
    intro g hmono hagree
    rw [hn] at hagree
    exact hsink g hmono (hg g hmono hagree)

theorem Shadows.running (h : Shadows k alone t) :
    (t.sinks k).running = (alone.sinks k).running := by
  obtain ⟨f, hf, -, hg⟩ := h.renamed
  rw [hg f hf fun _ _ => rfl]
  rfl

theorem Shadows.emit (h : Shadows k alone t) (event : ε)
    (hdrawn : (t.step (.emit event)).drawn < 2 ^ 64) :
    Shadows k (alone.emit event) (t.step (.emit event)) := by
  have hothers : ∀ j ≠ k, ((alone.emit event).sinks j).running = false := by
    intro j hj
    rw [running_emit]
    exact h.others j hj
  cases hk : (alone.sinks k).running with
  | true =>
    have htk : (t.sinks k).running = true := by rw [h.running, hk]
    apply h.draw hdrawn hothers
    · simp only [sequence_emit, anyRunning_of_running hk, ↓reduceIte]
    · simp only [State.step, State.emit, anyRunning_of_running htk, ↓reduceIte]
    · intro g _ hnew hsink
      simp only [State.step, sinks_emit, hk, htk, ↓reduceIte]
      rw [renumber_enqueue, hsink, Sequenced.renumber, hnew]
  | false =>
    have htk : (t.sinks k).running = false := by rw [h.running, hk]
    have hany : alone.anyRunning = false := by
      rw [State.anyRunning, List.any_eq_false]
      intro j _
      by_cases hj : j = k
      · simp [hj, hk]
      · simp [h.others j hj]
    apply h.keep hdrawn hothers
    · simp only [sequence_emit, hany, Bool.false_eq_true, ↓reduceIte]
    · intro g _ hsink
      simp only [State.step, sinks_emit, hk, htk, Bool.false_eq_true, ↓reduceIte]
      exact hsink

/-- What another sink does leaves this one alone. -/
theorem step_hidden {a : Action ε} (ha : seenBy k a = false) : (t.step a).sinks k = t.sinks k := by
  cases a with
  | createThread j => exact setSink_other _ (Ne.symm (of_decide_eq_false ha))
  | setRunning j => exact setSink_other _ (Ne.symm (of_decide_eq_false ha))
  | emit event => exact Bool.noConfusion ha
  | run j r => exact setSink_other _ (Ne.symm (of_decide_eq_false ha))

theorem Shadows.change (h : Shadows k alone t) {a : Action ε} {change : Sink ε → Sink ε}
    (hstep : ∀ t : State ε, t.step a = t.setSink k (change (t.sinks k)))
    (hchange : ∀ (g : Nat → Nat) (s : Sink ε), (change s).renumber g = change (s.renumber g))
    (hdrawn : (t.step a).drawn < 2 ^ 64) : Shadows k (alone.step a) (t.step a) := by
  apply h.keep hdrawn
  · intro j hj
    rw [hstep, setSink_other _ hj]
    exact h.others j hj
  · rw [hstep]
    rfl
  · intro g _ hsink
    simp only [hstep, setSink_self, hchange, hsink]

theorem Shadows.runStep (h : Shadows k alone t) (r : IoResult)
    (hdrawn : (t.step (.run k r)).drawn < 2 ^ 64) :
    Shadows k (alone.step (.run k r)) (t.step (.run k r)) := by
  have hothers : ∀ j ≠ k, ((alone.step (.run k r)).sinks j).running = false := by
    intro j hj
    simp only [State.step, State.setSink, Function.update_of_ne hj]
    exact h.others j hj
  have hdraws : (t.sinks k).drawsSequence = (alone.sinks k).drawsSequence := by
    obtain ⟨f, hf, -, hg⟩ := h.renamed
    rw [hg f hf fun _ _ => rfl, drawsSequence_renumber]
  cases hd : (alone.sinks k).drawsSequence with
  | true =>
    apply h.draw hdrawn hothers
    · simp only [State.step, hd, ↓reduceIte]
    · simp only [State.step, hdraws, hd, ↓reduceIte]
    · intro g hmono hnew hsink
      simp only [State.step, State.setSink, Function.update_self]
      rw [renumber_runStep _ hmono r fun _ => hnew, hsink]
  | false =>
    have hnone : ∀ g : Nat → Nat, (alone.sinks k).drawsSequence = true →
        g (increment64 alone.sequence) = increment64 t.sequence := by
      intro g hdraw
      rw [hd] at hdraw
      exact Bool.noConfusion hdraw
    apply h.keep hdrawn hothers
    · simp only [State.step, hd, Bool.false_eq_true, ↓reduceIte]
    · intro g hmono hsink
      simp only [State.step, State.setSink, Function.update_self]
      rw [renumber_runStep _ hmono r (hnone g), hsink]

theorem Shadows.step (h : Shadows k alone t) {a : Action ε} (ha : seenBy k a = true)
    (hdrawn : (t.step a).drawn < 2 ^ 64) : Shadows k (alone.step a) (t.step a) := by
  cases a with
  | createThread j =>
    cases of_decide_eq_true ha
    exact h.change (fun _ => rfl) (fun _ s => renumber_createThread s) hdrawn
  | setRunning j =>
    cases of_decide_eq_true ha
    exact h.change (fun _ => rfl) (fun _ s => renumber_setRunning s) hdrawn
  | emit event => exact h.emit event hdrawn
  | run j r =>
    cases of_decide_eq_true ha
    exact h.runStep r hdrawn

theorem shadows_unwinding : Unwinding State.step (seenBy k) (fun t => t.drawn < 2 ^ 64)
    (Shadows (ε := ε) k) where
  before := by
    intro t a hdrawn
    exact lt_of_le_of_lt (drawn_le_step t a) hdrawn
  hidden := by
    intro alone t a ha hdrawn h
    apply h.keep hdrawn h.others rfl
    intro g _ hsink
    rw [step_hidden ha, hsink]
  shown ha hdrawn h := h.step ha hdrawn

theorem Shadows.accepted (h : Shadows k alone t) (a : Action ε) :
    alone.accepted k a = t.accepted k a := by
  obtain ⟨f, hf, -, hg⟩ := h.renamed
  have haccepts : (t.sinks k).accepts = (alone.sinks k).accepts := by
    rw [hg f hf fun _ _ => rfl]
    simp only [Sink.accepts, Sink.renumber, List.isEmpty_map]
  cases a <;> simp only [State.accepted, haccepts]

end Shadow

def Node.content (n : Node ε) : Fin kQueueCapacity × ε := (n.index, n.event.event)

/-- Two sinks that differ in sequence numbers only, and not in the order of these. -/
structure Sink.Alike (s s' : Sink ε) : Prop where
  renamed : ∃ (alone : Sink ε) (f f' : Nat → Nat), StrictMono f ∧ StrictMono f' ∧
    s = alone.renumber f ∧ s' = alone.renumber f'
  free : s.free.map Node.content = s'.free.map Node.content
  pending : s.pending.map Node.content = s'.pending.map Node.content
  dropped : s.dropped = s'.dropped
  lost : s.lost.map Sequenced.event = s'.lost.map Sequenced.event
  confirmed : s.confirmed.map Sequenced.event = s'.confirmed.map Sequenced.event

theorem content_renumber (f : Nat → Nat) (nodes : List (Node ε)) :
    (nodes.map (Node.renumber f)).map Node.content = nodes.map Node.content := by
  rw [List.map_map]
  rfl

theorem event_renumber (f : Nat → Nat) (events : List (Sequenced ε)) :
    (events.map (Sequenced.renumber f)).map Sequenced.event = events.map Sequenced.event := by
  rw [List.map_map]
  rfl

theorem confirmed_renumber (f : Nat → Nat) (s : Sink ε) :
    (s.renumber f).confirmed = s.confirmed.map (Sequenced.renumber f) := by
  have hattempt : ∀ p : PipeEntry ε, ((p.renumber f).attempt?.bind confirmedEvent) =
      (p.attempt?.bind confirmedEvent).map (Sequenced.renumber f) := by
    intro p
    cases p with
    | check drops => rfl
    | frame g r => cases g <;> cases r <;> rfl
  have hentries : (s.renumber f).connections.flatten =
      s.connections.flatten.map (PipeEntry.renumber f) := by
    simp only [Sink.connections, Sink.renumber, List.flatten_append, List.map_append,
      List.map_flatten, List.flatten_cons, List.flatten_nil, List.append_nil]
  simp only [Sink.confirmed, Sink.attempts, hentries, List.filterMap_filterMap,
    List.filterMap_map, List.map_filterMap]
  apply List.filterMap_congr
  intro p _
  exact hattempt p

theorem Sink.Alike.of_renumber (alone : Sink ε) {f f' : Nat → Nat} (hf : StrictMono f)
    (hf' : StrictMono f') : (alone.renumber f).Alike (alone.renumber f') where
  renamed := ⟨alone, f, f', hf, hf', rfl, rfl⟩
  free := by simp only [Sink.renumber, content_renumber]
  pending := by simp only [Sink.renumber, content_renumber]
  dropped := rfl
  lost := by simp only [Sink.renumber, event_renumber]
  confirmed := by simp only [confirmed_renumber, event_renumber]

variable [Inhabited ε]

def acceptedBy (k : Fin kSinkCount) (actions : List (Action ε)) : List ε :=
  outputs State.step (State.accepted k) State.initial actions

theorem renumber_unused {f : Nat → Nat} (hf : f 0 = 0) (indices : List (Fin kQueueCapacity)) :
    (indices.map fun i => (⟨i, ⟨0, default⟩⟩ : Node ε)).map (Node.renumber f) =
      indices.map fun i => ⟨i, ⟨0, default⟩⟩ := by
  rw [List.map_map]
  apply List.map_congr_left
  intro i _
  simp only [Function.comp_apply, Node.renumber, Sequenced.renumber, hf]

theorem renumber_initial {f : Nat → Nat} (hf : f 0 = 0) :
    (Sink.initial : Sink ε).renumber f = Sink.initial := by
  have hfree := renumber_unused (ε := ε) hf (List.finRange kQueueCapacity).reverse
  simp only [Sink.initial, Sink.renumber, hfree, List.map_nil, Worker.renumber]

theorem shadows_initial (k : Fin kSinkCount) :
    Shadows k (State.initial : State ε) State.initial where
  counted := rfl
  others _ _ := rfl
  renamed := by
    refine ⟨id, strictMono_id, le_rfl, ?_⟩
    intro g _ hg
    have hzero : g 0 = 0 := hg 0 le_rfl
    exact (renumber_initial hzero).symm

/-- Two runs with the same emits and the same steps of sink `k`, in the same order: whatever
the other sink does in either, sink `k` takes in, drops and confirms the same events and ends
the same but for the numbers, as long as neither run wraps the counter. -/
theorem sink_isolation (k : Fin kSinkCount) {actions actions' : List (Action ε)}
    (same : actions.filter (seenBy k) = actions'.filter (seenBy k))
    (hdrawn : (State.after actions).drawn < 2 ^ 64)
    (hdrawn' : (State.after actions').drawn < 2 ^ 64) :
    acceptedBy k actions = acceptedBy k actions' ∧
      ((State.after actions).sinks k).Alike ((State.after actions').sinks k) := by
  have hinitial := shadows_initial (ε := ε) k
  constructor
  · have hnone : ∀ {t : State ε} {a}, seenBy k a = false → t.accepted k a = [] := by
      intro t a ha
      cases a with
      | emit event => exact Bool.noConfusion ha
      | _ => rfl
    have halone := shadows_unwinding.outputs_alone hnone (fun h _ => h.accepted _) hinitial
    rw [acceptedBy, acceptedBy, ← halone actions hdrawn, ← halone actions' hdrawn', same]
  · obtain ⟨alone, h, h'⟩ := shadows_unwinding.two_runs hinitial same hdrawn hdrawn'
    obtain ⟨f, hf, -, hg⟩ := h.renamed
    obtain ⟨f', hf', -, hg'⟩ := h'.renamed
    rw [State.after, State.after, hg f hf fun _ _ => rfl, hg' f' hf' fun _ _ => rfl]
    exact Sink.Alike.of_renumber _ hf hf'

/-- The viewer with no SimHub sink: the first emit finds no sink and takes no number. -/
def viewerAlone : List (Action Nat) :=
  [.createThread viewerSink, .emit 3, .setRunning viewerSink, .emit 7] ++
    List.replicate 5 (.run viewerSink .ok)

/-- The same with a SimHub sink that takes the first emit and fails to connect. -/
def viewerBeside : List (Action Nat) :=
  [.createThread simHubSink, .setRunning simHubSink, .createThread viewerSink, .emit 3,
    .run simHubSink (.failed 0), .setRunning viewerSink, .emit 7, .run simHubSink .ok,
    .run viewerSink .ok, .run simHubSink .ok] ++ List.replicate 4 (.run viewerSink .ok)

theorem sink_isolation_sample :
    acceptedBy viewerSink viewerAlone = acceptedBy viewerSink viewerBeside ∧
      ((State.after viewerAlone).sinks viewerSink).Alike
        ((State.after viewerBeside).sinks viewerSink) :=
  sink_isolation viewerSink rfl (drawn_lt (by decide)) (drawn_lt (by decide))

section Wrap
variable {t : State Bool} {k : Fin kSinkCount}

theorem run_pair {s : Sink Bool} (hs : t.sinks k = s) (hworker : s.worker = .flushing 0)
    (hrunning : s.running = true) (hpending : s.pending = []) (hfree : 1 < s.free.length) :
    ((run State.step t ([.emit false, .emit true] ++ List.replicate 4 (.run k .ok))).sinks k).connections =
      s.closed ++ [s.pipe ++
        let first : Sequenced Bool := ⟨increment64 t.sequence, false⟩
        let second : Sequenced Bool := ⟨increment64 (increment64 t.sequence), true⟩
        if second.sequence ≤ first.sequence then
          [.frame (.event second) .ok, .frame (.event first) .ok]
        else [.frame (.event first) .ok, .frame (.event second) .ok]] := by
  obtain ⟨node, rest, hcons⟩ := List.exists_cons_of_length_pos (by omega : 0 < s.free.length)
  rw [hcons, List.length_cons] at hfree
  obtain ⟨node', free, hcons'⟩ := List.exists_cons_of_length_pos (by omega : 0 < rest.length)
  rw [hcons'] at hcons
  have hrun : (t.sinks k).running = true := by rw [hs, hrunning]
  have hnumber : (t.step (.emit false)).sequence = increment64 t.sequence := by
    rw [State.step, sequence_emit, if_pos (anyRunning_of_running hrun)]
  have hfirst := step_emit_sinks hrun false
  have hboth : ((t.step (.emit false)).step (.emit true)).sinks k =
      (s.enqueue ⟨increment64 t.sequence, false⟩).enqueue
        ⟨increment64 (increment64 t.sequence), true⟩ := by
    rw [step_emit_sinks (by rw [hfirst, running_enqueue, hrun]), hfirst, hnumber, hs]
  have hsort : ∀ x y : Node Bool, sortBatch [x, y] =
      if x.event.sequence ≤ y.event.sequence then [x, y] else [y, x] := fun _ _ => rfl
  simp only [List.cons_append, List.nil_append, run_cons, List.replicate_succ, List.replicate_zero,
    run_nil, step_run_sinks, hboth]
  by_cases hle : increment64 (increment64 t.sequence) ≤ increment64 t.sequence
  · simp [Sink.enqueue, hcons, hpending, Sink.runStep, hworker, kQueueCapacity, hsort, hle, Sink.write,
      Sink.push, Sink.connections]
  · simp [Sink.enqueue, hcons, hpending, Sink.runStep, hworker, kQueueCapacity, hsort, hle, Sink.write,
      Sink.push, Sink.connections]

/-- After `early`, which leaves the viewer alone, and `n` more emits the viewer's worker connects, and
sends two events in one batch. -/
def latePair (early : List (Action Bool)) (n : Nat) : List (Action Bool) :=
  early ++ (List.replicate n (.emit false) ++ (greeting viewerSink ++
    ([.emit false, .emit true] ++ List.replicate 4 (.run viewerSink .ok))))

theorem confirmed_latePair {early : List (Action Bool)} {m : Nat}
    (hviewer : (State.after early).sinks viewerSink = Sink.initial)
    (hany : (State.after early).anyRunning = true) (hsequence : (State.after early).sequence = m)
    (hm : m < 2 ^ 64) (n : Nat) :
    ((State.after (latePair early n)).sinks viewerSink).confirmed.map Sequenced.event =
      let q := increment64 ((m + n) % 2 ^ 64)
      if increment64 q ≤ q then [true, false] else [false, true] := by
  obtain ⟨hidle, hnext⟩ := emits_aside (k := viewerSink) (by rw [hviewer]; rfl) hany
    (by rw [hsequence]; exact hm) false n
  rw [hviewer] at hidle
  obtain ⟨hgreeted, hnumber⟩ := run_greeting hidle
  have hpair := run_pair hgreeted rfl rfl rfl (by simp [Sink.initial, kQueueCapacity])
  rw [hnumber, hnext, hsequence] at hpair
  rw [State.after, latePair, run_append, run_append, run_append, Sink.confirmed, Sink.attempts]
  simp only [State.after] at hpair
  rw [hpair]
  by_cases hle : increment64 (increment64 ((m + n) % 2 ^ 64)) ≤ increment64 ((m + n) % 2 ^ 64)
  · simp only [hle, if_true]
    rfl
  · simp only [hle, if_false]
    rfl

def quietSimHub : List (Action Bool) := [.createThread simHubSink, .setRunning simHubSink, .emit false]

def tellingSimHub : List (Action Bool) :=
  quietSimHub ++ .run simHubSink (.failed 0) :: List.replicate 9 (.run simHubSink .ok)

theorem run_aside {ε : Type} {t : State ε} {k : Fin kSinkCount} (hidle : (t.sinks k).running = false)
    {actions : List (Action ε)} (h : ∀ a ∈ actions, seenBy k a = false ∨ ∃ event, a = .emit event) :
    (run State.step t actions).sinks k = t.sinks k := by
  induction actions generalizing t with
  | nil => rfl
  | cons a actions ih =>
    have hstep : (t.step a).sinks k = t.sinks k := by
      rcases h a (List.mem_cons_self ..) with hhidden | ⟨event, rfl⟩
      · exact step_hidden hhidden
      · simp only [State.step, sinks_emit, hidle, Bool.false_eq_true, if_false]
    rw [run_cons, ih (by rw [hstep, hidle]) fun b hb => h b (List.mem_cons_of_mem a hb), hstep]

theorem quietSimHub_ready : (State.after quietSimHub).sinks viewerSink = Sink.initial ∧
    (State.after quietSimHub).anyRunning = true ∧ (State.after quietSimHub).sequence = 1 := by
  refine ⟨run_aside rfl ?_, by decide +kernel, by decide +kernel⟩
  simp [quietSimHub, seenBy, viewerSink, simHubSink]

theorem tellingSimHub_ready : (State.after tellingSimHub).sinks viewerSink = Sink.initial ∧
    (State.after tellingSimHub).anyRunning = true ∧ (State.after tellingSimHub).sequence = 2 := by
  refine ⟨run_aside rfl ?_, by decide +kernel, by decide +kernel⟩
  simp [tellingSimHub, quietSimHub, seenBy, viewerSink, simHubSink]

/-- The notice of the other sink moves the second event of a batch over the wrap. -/
theorem wrapped_batch_is_reordered :
    ¬ ∀ (k : Fin kSinkCount) (actions actions' : List (Action Bool)),
      actions.filter (seenBy k) = actions'.filter (seenBy k) →
      acceptedBy k actions = acceptedBy k actions' ∧
        ((State.after actions).sinks k).Alike ((State.after actions').sinks k) := by
  intro h
  have same : (latePair quietSimHub (2 ^ 64 - 4)).filter (seenBy viewerSink) =
      (latePair tellingSimHub (2 ^ 64 - 4)).filter (seenBy viewerSink) := by
    simp only [latePair, List.filter_append]
    rfl
  have hconfirmed := (h viewerSink _ _ same).2.confirmed
  obtain ⟨hviewer, hany, hsequence⟩ := quietSimHub_ready
  obtain ⟨hviewer', hany', hsequence'⟩ := tellingSimHub_ready
  rw [confirmed_latePair hviewer hany hsequence (by decide) (2 ^ 64 - 4),
    confirmed_latePair hviewer' hany' hsequence' (by decide) (2 ^ 64 - 4)] at hconfirmed
  exact absurd hconfirmed (by decide)

end Wrap

end FfbInterceptor.Telemetry
