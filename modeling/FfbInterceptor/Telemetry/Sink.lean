import Mathlib.Algebra.Group.Nat.Defs
import Mathlib.Data.List.Sort
import Mathlib.Data.List.FinRange
import FfbInterceptor.Library.Runs

/-! The bounded telemetry queues and the workers that drain them into the pipes
(`telemetry.cpp`). `emit` holds `m_emit_lock` throughout and is one step; a worker moves
from one access to shared state, or one pipe call, to the next. -/
namespace FfbInterceptor.Telemetry
open Library.Runs
variable {ε : Type}

def kQueueCapacity : Nat := 1024
def kSinkCount : Nat := 2
def UINT32_MAX : Nat := 4294967295

def viewerSink : Fin kSinkCount := ⟨0, by decide⟩
def simHubSink : Fin kSinkCount := ⟨1, by decide⟩

/-- `InterlockedIncrement64` on a counter: the 64-bit word wraps. -/
def increment64 (n : Nat) : Nat := (n + 1) % 2 ^ 64

theorem increment64_of_lt {n : Nat} (h : n + 1 < 2 ^ 64) : increment64 n = n + 1 :=
  Nat.mod_eq_of_lt h

/-- An event with the sequence number `emit` gave it. The payload type is a parameter: the
queues never look into an event. -/
structure Sequenced (ε : Type) where
  sequence : Nat
  event : ε
  deriving DecidableEq

/-- `Telemetry::Node`, with its place in `Sink::nodes`. -/
structure Node (ε : Type) where
  index : Fin kQueueCapacity
  event : Sequenced ε

inductive Frame (ε : Type) where
  | hello
  | event (e : Sequenced ε)
  | dropNotice (sequence dropped : Nat)
  deriving DecidableEq

def Frame.sequence : Frame ε → Nat
  | .hello => 0
  | .event e => e.sequence
  | .dropNotice q _ => q

/-- How a pipe call ends; a send that fails may have put some bytes of the frame on the pipe. -/
inductive IoResult where
  | ok
  | failed (bytes : Nat)
  deriving DecidableEq

/-- The life of one pipe connection: its sends in order and, as a history mark, each drop
check of the worker that was not put off, with the counter it had read. -/
inductive PipeEntry (ε : Type) where
  | frame (f : Frame ε) (r : IoResult)
  | check (drops : Nat)
  deriving DecidableEq

def PipeEntry.attempt? : PipeEntry ε → Option (Frame ε × IoResult)
  | .frame f r => some (f, r)
  | .check _ => none

/-- Where a worker stands in `Telemetry::run`, with the locals that are live there. -/
inductive Worker (ε : Type) where
  | notCreated
  | connecting
  | droppingPending
  | recycling (list : List (Node ε))
  | sendingHello
  | flushing (reportedDrops : Nat)
  | collecting (reportedDrops : Nat) (batch list : List (Node ε))
  | sending (reportedDrops : Nat) (batch : List (Node ε))
  | discarding (unsent : List (Node ε))
  | checkingDrops (reportedDrops drops : Nat)
  | sendingNotice (drops sequence : Nat)

/-- The nodes a worker has taken off the pending list and not yet returned. -/
def Worker.held : Worker ε → List (Node ε)
  | .recycling list => list
  | .collecting _ batch list => batch ++ list
  | .sending _ batch => batch
  | .discarding unsent => unsent
  | _ => []

/-- `Telemetry::Sink`. The last six fields are history: no step reads them. -/
structure Sink (ε : Type) where
  free : List (Node ε)
  pending : List (Node ε)
  running : Bool
  dropped : Nat
  worker : Worker ε
  emitted : List (Sequenced ε)
  lost : List (Sequenced ε)
  notices : List (Nat × Nat)
  closed : List (List (PipeEntry ε))
  pipe : List (PipeEntry ε)

def Sink.connections (s : Sink ε) : List (List (PipeEntry ε)) := s.closed ++ [s.pipe]

def Sink.attempts (s : Sink ε) : List (Frame ε × IoResult) :=
  s.connections.flatten.filterMap PipeEntry.attempt?

def confirmedEvent : Frame ε × IoResult → Option (Sequenced ε)
  | (.event e, .ok) => some e
  | _ => none

/-- The events whose send was confirmed. -/
def Sink.confirmed (s : Sink ε) : List (Sequenced ε) := s.attempts.filterMap confirmedEvent

def Sink.push (n : Node ε) (s : Sink ε) : Sink ε := { s with free := n :: s.free }

/-- One pass of the loops that return an unsent node: count its event, free it. -/
def Sink.drop (n : Node ε) (s : Sink ε) : Sink ε :=
  { s.push n with dropped := increment64 s.dropped, lost := s.lost ++ [n.event] }

def Sink.write (f : Frame ε) (r : IoResult) (s : Sink ε) : Sink ε :=
  { s with pipe := s.pipe ++ [.frame f r] }

def Sink.close (s : Sink ε) : Sink ε := { s with closed := s.closed ++ [s.pipe], pipe := [] }

def Sink.enqueue (e : Sequenced ε) (s : Sink ε) : Sink ε :=
  match s.free with
  | [] =>
    { s with dropped := increment64 s.dropped, lost := s.lost ++ [e], emitted := s.emitted ++ [e] }
  | n :: free =>
    { s with free := free, pending := { n with event := e } :: s.pending,
             emitted := s.emitted ++ [e] }

/-- Order of the batch: `std::sort` by sequence. -/
def sortBatch (batch : List (Node ε)) : List (Node ε) :=
  batch.insertionSort fun left right => left.event.sequence ≤ right.event.sequence

/-- One step of `Telemetry::run`: `sequence` is `m_sequence`, `r` the outcome of the step's
pipe call. The notice of the last branch but one is numbered under `m_emit_lock`. -/
def Sink.runStep (sequence : Nat) (r : IoResult) (s : Sink ε) : Sink ε :=
  match s.worker with
  | .notCreated => s
  | .connecting =>
    match r with
    | .ok => { s with worker := .sendingHello }
    | .failed _ => { s with worker := .droppingPending }
  | .droppingPending => { s with pending := [], worker := .recycling s.pending }
  | .recycling [] => { s with worker := .connecting }
  | .recycling (n :: list) => { s.drop n with worker := .recycling list }
  | .sendingHello =>
    match r with
    | .ok => { s.write .hello r with worker := .flushing 0 }
    | .failed _ => { (s.write .hello r).close with worker := .droppingPending }
  | .flushing reported =>
    { s with pending := [],
             worker := .collecting reported (s.pending.take kQueueCapacity)
               (s.pending.drop kQueueCapacity) }
  | .collecting reported batch [] => { s with worker := .sending reported (sortBatch batch) }
  | .collecting reported batch (n :: list) =>
    { s.drop n with worker := .collecting reported batch list }
  | .sending reported [] => { s with worker := .checkingDrops reported s.dropped }
  | .sending reported (n :: batch) =>
    match r with
    | .ok => { (s.write (.event n.event) r).push n with worker := .sending reported batch }
    | .failed _ => { (s.write (.event n.event) r).drop n with worker := .discarding batch }
  | .discarding [] => { s.close with worker := .connecting }
  | .discarding (n :: unsent) => { s.drop n with worker := .discarding unsent }
  | .checkingDrops reported drops =>
    if drops = reported then
      { s with pipe := s.pipe ++ [.check drops], worker := .flushing reported }
    else if s.pending.isEmpty then
      { s with pipe := s.pipe ++ [.check drops],
               notices := s.notices ++ [(increment64 sequence, min drops UINT32_MAX)],
               worker := .sendingNotice drops (increment64 sequence) }
    else { s with worker := .flushing reported }
  | .sendingNotice drops q =>
    match r with
    | .ok => { s.write (.dropNotice q (min drops UINT32_MAX)) r with worker := .flushing drops }
    | .failed _ =>
      { (s.write (.dropNotice q (min drops UINT32_MAX)) r).close with worker := .connecting }

/-- Whether the next step of the worker takes a number from `m_sequence`. -/
def Sink.drawsSequence (s : Sink ε) : Bool :=
  match s.worker with
  | .checkingDrops reported drops => drops ≠ reported && s.pending.isEmpty
  | _ => false

/-- The sinks with the shared counter. History: the emit order, and how many numbers have been
drawn from the counter. -/
structure State (ε : Type) where
  sequence : Nat
  sinks : Fin kSinkCount → Sink ε
  emits : List (Sequenced ε)
  drawn : Nat

/-- `createThread` and `setRunning` are the two visible effects of `Telemetry::start` on a
sink; either may never happen. -/
inductive Action (ε : Type) where
  | createThread (k : Fin kSinkCount)
  | setRunning (k : Fin kSinkCount)
  | emit (event : ε)
  | run (k : Fin kSinkCount) (r : IoResult)

def State.anyRunning (t : State ε) : Bool :=
  (List.finRange kSinkCount).any fun k => (t.sinks k).running

def State.emit (event : ε) (t : State ε) : State ε :=
  if t.anyRunning then
    let e : Sequenced ε := ⟨increment64 t.sequence, event⟩
    { sequence := increment64 t.sequence
      sinks := fun k => if (t.sinks k).running then (t.sinks k).enqueue e else t.sinks k
      emits := t.emits ++ [e]
      drawn := t.drawn + 1 }
  else t

def Sink.createThread (s : Sink ε) : Sink ε :=
  match s.worker with
  | .notCreated => { s with worker := .connecting }
  | _ => s

def Sink.setRunning (s : Sink ε) : Sink ε :=
  match s.worker with
  | .notCreated => s
  | _ => { s with running := true }

def State.setSink (t : State ε) (k : Fin kSinkCount) (s : Sink ε) : State ε :=
  { t with sinks := Function.update t.sinks k s }

def State.step (t : State ε) : Action ε → State ε
  | .createThread k => t.setSink k (t.sinks k).createThread
  | .setRunning k => t.setSink k (t.sinks k).setRunning
  | .emit event => t.emit event
  | .run k r =>
    { t.setSink k ((t.sinks k).runStep t.sequence r) with
      sequence := if (t.sinks k).drawsSequence then increment64 t.sequence else t.sequence
      drawn := if (t.sinks k).drawsSequence then t.drawn + 1 else t.drawn }

section Steps
variable {t : State ε} {k : Fin kSinkCount}

theorem running_enqueue (s : Sink ε) (e : Sequenced ε) : (s.enqueue e).running = s.running := by
  cases hfree : s.free <;> simp only [Sink.enqueue, hfree]

theorem anyRunning_of_running (h : (t.sinks k).running = true) : t.anyRunning = true :=
  List.any_eq_true.mpr ⟨k, List.mem_finRange k, h⟩

theorem sinks_emit (event : ε) :
    (t.emit event).sinks k =
      if (t.sinks k).running then (t.sinks k).enqueue ⟨increment64 t.sequence, event⟩
      else t.sinks k := by
  cases hany : t.anyRunning with
  | true => simp only [State.emit, hany, ↓reduceIte]
  | false =>
    have hrun : (t.sinks k).running ≠ true := by
      intro hk
      rw [anyRunning_of_running hk] at hany
      exact Bool.noConfusion hany
    simp only [State.emit, hany, hrun, Bool.false_eq_true, ↓reduceIte]

theorem sequence_emit (event : ε) :
    (t.emit event).sequence = if t.anyRunning then increment64 t.sequence else t.sequence := by
  simp only [State.emit]
  split <;> rfl

theorem running_emit (j : Fin kSinkCount) (event : ε) :
    ((t.emit event).sinks j).running = (t.sinks j).running := by
  rw [sinks_emit]
  split
  · exact running_enqueue _ _
  · rfl

theorem running_runStep (s : Sink ε) (n : Nat) (r : IoResult) :
    (s.runStep n r).running = s.running := by
  unfold Sink.runStep
  split <;> (try split) <;> (try split) <;> rfl

@[simp] theorem setSink_self (s : Sink ε) : (t.setSink k s).sinks k = s :=
  Function.update_self ..

theorem setSink_other (s : Sink ε) {j : Fin kSinkCount} (hj : j ≠ k) :
    (t.setSink k s).sinks j = t.sinks j :=
  Function.update_of_ne hj ..

theorem anyRunning_emit (event : ε) : (t.emit event).anyRunning = t.anyRunning := by
  simp only [State.anyRunning, running_emit]

theorem anyRunning_run (k : Fin kSinkCount) (r : IoResult) :
    (t.step (.run k r)).anyRunning = t.anyRunning := by
  have hrunning : ∀ j, ((t.step (.run k r)).sinks j).running = (t.sinks j).running := by
    intro j
    change ((t.setSink k _).sinks j).running = (t.sinks j).running
    by_cases hj : j = k
    · rw [hj, setSink_self, running_runStep]
    · rw [setSink_other _ hj]
  simp only [State.anyRunning, hrunning]

theorem step_run_sinks (r : IoResult) :
    (t.step (.run k r)).sinks k = (t.sinks k).runStep t.sequence r := setSink_self _

theorem step_emit_sinks (h : (t.sinks k).running = true) (event : ε) :
    (t.step (.emit event)).sinks k = (t.sinks k).enqueue ⟨increment64 t.sequence, event⟩ := by
  rw [State.step, sinks_emit, if_pos h]

end Steps

variable [Inhabited ε]

def Sink.initial : Sink ε where
  free := (List.finRange kQueueCapacity).reverse.map fun i => ⟨i, ⟨0, default⟩⟩
  pending := []
  running := false
  dropped := 0
  worker := .notCreated
  emitted := []
  lost := []
  notices := []
  closed := []
  pipe := []

def State.initial : State ε := ⟨0, fun _ => Sink.initial, [], 0⟩

def State.after (actions : List (Action ε)) : State ε := run State.step State.initial actions

end FfbInterceptor.Telemetry
