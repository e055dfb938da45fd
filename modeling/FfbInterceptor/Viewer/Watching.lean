import Mathlib.Algebra.BigOperators.Group.Finset.Basic
import FfbInterceptor.Library.Greatest
import FfbInterceptor.Library.Runs
import FfbInterceptor.Viewer.Store

/-! Runs of the front end: its loss counter and its time base (`main.py`, `model.py`). -/
namespace FfbInterceptor.Viewer
open FfbInterceptor.Library

/-- A frame comes in, a round of a refresh, a click on one of two buttons. -/
inductive Action where
  | enqueue (frame : Frame)
  | take
  | togglePause
  | markEvent

def MainWindow.step (window : MainWindow) : Action → MainWindow
  | .enqueue frame => window.enqueue frame
  | .take => window.take
  | .togglePause => window.togglePause
  | .markEvent => window.markEvent

/-- The front end, and what happened to its frames: how many a full queue refused, which ones the store
kept, which ones a refresh took. -/
structure Watched where
  window : MainWindow := {}
  lost : Nat := 0
  stored : List Frame := []
  received : List Frame := []

namespace Watched

def next? (w : Watched) : Option Frame := w.window.pending.head?

def step (w : Watched) (action : Action) : Watched :=
  let window := w.window.step action
  match action with
  | .enqueue _ =>
    { w with
      window
      lost := if w.window.pending.length < MainWindow.maxPending then w.lost else w.lost + 1 }
  | .take =>
    { w with
      window
      stored := if w.window.store.paused then w.stored else w.stored ++ w.next?.toList
      received := w.received ++ w.next?.toList }
  | .togglePause | .markEvent => { w with window }

end Watched

/-- What happened does not change what happens. -/
theorem window_run (actions : List Action) (w : Watched) :
    (Runs.run Watched.step w actions).window = Runs.run MainWindow.step w.window actions := by
  induction actions generalizing w with
  | nil => rfl
  | cons action actions ih =>
    rw [Runs.run_cons, Runs.run_cons, ih]
    cases action <;> rfl

def sampleFrame (processId qpcFrequency dropped : UInt32) (messageType : UInt16) : Frame where
  messageType := messageType
  flags := 0
  sequence := 0
  qpcTicks := 0
  processId := processId
  qpcFrequency := qpcFrequency
  deviceId := 0
  effectId := 0
  effectGuid := []
  hresult := 0
  diFlags := 0
  duration := 0
  samplePeriod := 0
  gain := 0
  startDelay := 0
  triggerButton := 0
  triggerRepeat := 0
  iterations := 0
  envelopeAttackLevel := 0
  envelopeAttackTime := 0
  envelopeFadeLevel := 0
  envelopeFadeTime := 0
  propertyId := 0
  dropped := dropped
  magnitude := 0
  rampStart := 0
  rampEnd := 0
  periodicMagnitude := 0
  periodicOffset := 0
  periodicPhase := 0
  periodicPeriod := 0
  axes := []
  directions := []
  conditions := []
  typeSpecificSize := 0
  customRedacted := false
  buildVersion := ""
  sessionId := ""
  text := ""
  effectKind := 0
  command := 0

section Losses

def reported (stored : List Frame) (processId : UInt32) : Nat :=
  greatest ((stored.filter (·.processId = processId)).map (·.dropped.toNat))

def producers (stored : List Frame) : Finset UInt32 := (stored.map Frame.processId).toFinset

/-- The frames known to be lost, here and by all producers but one. -/
def Watched.lostElsewhere (w : Watched) (processId : UInt32) : Nat :=
  w.lost + ∑ p ∈ (producers w.stored).erase processId, reported w.stored p

def Watched.losses (w : Watched) : Nat := w.lost + ∑ p ∈ producers w.stored, reported w.stored p

/-- A kept frame that reports more than its producer did before comes in while nothing is known to be
lost here or by another producer. -/
def Watched.KeepsLosses (w : Watched) (action : Action) : Prop :=
  match action with
  | .take => w.window.store.paused = false → ∀ frame ∈ w.next?,
      reported w.stored frame.processId < frame.dropped.toNat →
      w.lost = 0 ∧ ∀ p ∈ producers w.stored, p ≠ frame.processId → reported w.stored p = 0
  | _ => True

variable {w : Watched} {frame : Frame} {stored : List Frame}

theorem reported_append (stored : List Frame) (frame : Frame) (p : UInt32) :
    reported (stored ++ [frame]) p =
      if p = frame.processId then max (reported stored p) frame.dropped.toNat
      else reported stored p := by
  by_cases hp : p = frame.processId
  · rw [if_pos hp, reported, List.filter_append, List.map_append]
    have hkept : List.filter (·.processId = p) [frame] = [frame] := by simp [hp]
    rw [hkept, List.map_singleton, greatest_concat _ (Nat.zero_le _), reported]
  · have hdropped : List.filter (·.processId = p) [frame] = [] := by simp [Ne.symm hp]
    rw [if_neg hp, reported, List.filter_append, hdropped, List.append_nil, reported]

theorem reported_of_notMem {p : UInt32} (h : p ∉ producers stored) : reported stored p = 0 := by
  have hnone : stored.filter (·.processId = p) = [] := by
    apply List.filter_eq_nil_iff.mpr
    intro frame hframe hsame
    apply h
    rw [producers, List.mem_toFinset]
    exact List.mem_map.mpr ⟨frame, hframe, of_decide_eq_true hsame⟩
  rw [reported, hnone]
  rfl

theorem losses_eq (w : Watched) (p : UInt32) : w.losses = w.lostElsewhere p + reported w.stored p := by
  by_cases hp : p ∈ producers w.stored
  · rw [Watched.losses, Watched.lostElsewhere, Nat.add_assoc, Finset.sum_erase_add _ _ hp]
  · rw [Watched.losses, Watched.lostElsewhere, Finset.erase_eq_of_notMem hp, reported_of_notMem hp,
      Nat.add_zero]

theorem lostElsewhere_eq_zero_iff (w : Watched) (p : UInt32) : w.lostElsewhere p = 0 ↔
    w.lost = 0 ∧ ∀ q ∈ producers w.stored, q ≠ p → reported w.stored q = 0 := by
  rw [Watched.lostElsewhere, Nat.add_eq_zero_iff, Finset.sum_eq_zero_iff]
  simp only [Finset.mem_erase, and_imp]
  exact and_congr_right fun _ => ⟨fun h q hq hne => h q hne hq, fun h q hne hq => h q hq hne⟩

theorem producers_append (stored : List Frame) (frame : Frame) :
    producers (stored ++ [frame]) = insert frame.processId (producers stored) := by
  ext p
  simp [producers]

theorem lostElsewhere_append {w' : Watched} (hstored : w'.stored = w.stored ++ [frame])
    (hlost : w'.lost = w.lost) :
    w'.lostElsewhere frame.processId = w.lostElsewhere frame.processId := by
  simp only [Watched.lostElsewhere, hstored, hlost, producers_append, Finset.erase_insert_eq_erase]
  congr 1
  apply Finset.sum_congr rfl
  intro p hp
  rw [reported_append, if_neg (Finset.ne_of_mem_erase hp)]

theorem losses_append {w' : Watched} (hstored : w'.stored = w.stored ++ [frame])
    (hlost : w'.lost = w.lost) : w'.losses = w.lostElsewhere frame.processId +
      max (reported w.stored frame.processId) frame.dropped.toNat := by
  rw [losses_eq w' frame.processId, lostElsewhere_append hstored hlost, hstored, reported_append,
    if_pos rfl]

theorem dropped_add {store : EventStore} (h : store.paused = false) (frame : Frame) :
    (store.add frame).dropped = max store.dropped frame.dropped.toNat := by
  simp only [EventStore.add, h, Bool.false_eq_true, ↓reduceIte]
  split
  · rfl
  · rename_i hzero
    have hnat : frame.dropped.toNat = 0 := by
      rw [not_not.mp hzero]
      rfl
    rw [hnat, Nat.max_zero]

theorem step_cases (w : Watched) (action : Action) :
    (∃ n, (w.step action).losses = w.losses + n ∧
      (w.step action).window.store.dropped = w.window.store.dropped + n ∧
      (w.step action).stored = w.stored ∧ w.KeepsLosses action) ∨
    (action = .take ∧ w.window.store.paused = false ∧ ∃ frame, w.next? = some frame ∧
      (w.step action).window.store.dropped = max w.window.store.dropped frame.dropped.toNat ∧
      (w.step action).stored = w.stored ++ [frame] ∧ (w.step action).lost = w.lost) := by
  cases action with
  | enqueue frame =>
    left
    by_cases hroom : w.window.pending.length < MainWindow.maxPending
    · refine ⟨0, ?_, ?_, rfl, trivial⟩
      · simp [Watched.losses, Watched.step, hroom]
      · simp [Watched.step, MainWindow.step, MainWindow.enqueue, hroom]
    · refine ⟨1, ?_, ?_, rfl, trivial⟩
      · simp only [Watched.losses, Watched.step, hroom, ↓reduceIte]
        omega
      · simp [Watched.step, MainWindow.step, MainWindow.enqueue, hroom]
  | togglePause => exact Or.inl ⟨0, rfl, rfl, rfl, trivial⟩
  | markEvent => exact Or.inl ⟨0, rfl, EventStore.dropped_markLatest _ _, rfl, trivial⟩
  | take =>
    cases hpending : w.window.pending with
    | nil =>
      have hnext : w.next? = none := by rw [Watched.next?, hpending, List.head?_nil]
      refine Or.inl ⟨0, ?_, ?_, ?_, ?_⟩
      · simp [Watched.losses, Watched.step, hnext]
      · simp [Watched.step, MainWindow.step, MainWindow.take, hpending]
      · simp [Watched.step, hnext]
      · intro _ frame hframe
        rw [hnext] at hframe
        cases hframe
    | cons frame pending =>
      have hnext : w.next? = some frame := by rw [Watched.next?, hpending, List.head?_cons]
      have hstore : (w.step .take).window.store = w.window.store.add frame := by
        simp only [Watched.step, MainWindow.step, MainWindow.take, hpending]
      cases hpaused : w.window.store.paused with
      | true =>
        have hsame : w.window.store.add frame = w.window.store := if_pos hpaused
        refine Or.inl ⟨0, ?_, ?_, ?_, ?_⟩
        · simp [Watched.losses, Watched.step, hpaused]
        · rw [hstore, hsame, Nat.add_zero]
        · simp [Watched.step, hpaused]
        · intro hrunning
          rw [hpaused] at hrunning
          cases hrunning
      | false =>
        refine Or.inr ⟨rfl, rfl, frame, hnext, ?_, ?_, rfl⟩
        · rw [hstore, dropped_add hpaused]
        · simp [Watched.step, hpaused, hnext]

/-- The counter is never too large, and not below the largest single report. -/
structure Watched.Counted (w : Watched) : Prop where
  le_losses : w.window.store.dropped ≤ w.losses
  reported_le : ∀ p, reported w.stored p ≤ w.window.store.dropped

theorem counted_step (w : Watched) (action : Action) (h : w.Counted) : (w.step action).Counted := by
  have hle := h.le_losses
  cases step_cases w action with
  | inl hlost =>
    obtain ⟨n, hlosses, hdropped, hstored, -⟩ := hlost
    constructor
    · omega
    · intro p
      have hreported := h.reported_le p
      rw [hstored]
      omega
  | inr hkept =>
    obtain ⟨-, -, frame, -, hdropped, hstored, hlost⟩ := hkept
    constructor
    · have hshare := losses_eq w frame.processId
      rw [hdropped, losses_append hstored hlost]
      omega
    · intro p
      have hreported := h.reported_le p
      rw [hdropped, hstored, reported_append]
      split <;> omega

/-- A step keeps the counter complete exactly where it keeps losses apart. -/
theorem losses_le_step_iff (w : Watched) (action : Action) (h : w.Counted) :
    (w.step action).losses ≤ (w.step action).window.store.dropped ↔
      w.losses ≤ w.window.store.dropped ∧ w.KeepsLosses action := by
  cases step_cases w action with
  | inl hlost =>
    obtain ⟨n, hlosses, hdropped, -, hkeeps⟩ := hlost
    rw [hlosses, hdropped, and_iff_left hkeeps]
    omega
  | inr hkept =>
    obtain ⟨rfl, hpaused, frame, hnext, hdropped, hstored, hlost⟩ := hkept
    have hkeeps : w.KeepsLosses .take ↔
        (reported w.stored frame.processId < frame.dropped.toNat →
          w.lostElsewhere frame.processId = 0) := by
      rw [lostElsewhere_eq_zero_iff]
      simp only [Watched.KeepsLosses, hnext, Option.mem_def, Option.some.injEq, forall_eq',
        hpaused, forall_const]
    have hshare := losses_eq w frame.processId
    have hle := h.le_losses
    have hreported := h.reported_le frame.processId
    rw [hdropped, losses_append hstored hlost, hkeeps]
    omega

end Losses

/-- The counter covers all known losses exactly in the runs that keep losses apart: it adds what the
queue refuses, but merges what producers report by the largest report. -/
theorem dropped_covers_losses_iff (actions : List Action) :
    (Runs.run Watched.step {} actions).losses ≤
        (Runs.run Watched.step {} actions).window.store.dropped ↔
      Runs.Throughout Watched.step Watched.KeepsLosses {} actions := by
  have hcounted : ({} : Watched).Counted := ⟨le_refl 0, fun p => le_refl 0⟩
  have hfinal := @Runs.final_iff_throughout _ _ Watched.step Watched.Counted
    (fun w => w.losses ≤ w.window.store.dropped) Watched.KeepsLosses
    counted_step losses_le_step_iff {} hcounted actions
  exact hfinal.trans (and_iff_right (le_refl 0))

/-- Two producers that have lost five frames each. -/
theorem two_producers_undercounted :
    let actions := [.enqueue (sampleFrame 1 0 5 7), .enqueue (sampleFrame 2 0 5 7), .take, .take]
    let w := Runs.run Watched.step {} actions
    w.window.store.dropped = 5 ∧ w.losses = 10 ∧ ¬ w.losses ≤ w.window.store.dropped := by
  decide +kernel

section TimeBase

def Frame.isTimedHello (frame : Frame) : Bool := frame.messageType = helloType && frame.qpcFrequency ≠ 0

def latestFrequency (received : List Frame) : Nat :=
  match (received.filter Frame.isTimedHello).getLast? with
  | none => 1000000000
  | some hello => hello.qpcFrequency.toNat

/-- A Hello that is taken while the view is paused repeats the frequency. -/
def Watched.KeepsTimeBase (w : Watched) (action : Action) : Prop :=
  match action with
  | .take => w.window.store.paused = true → ∀ frame ∈ w.next?, frame.isTimedHello = true →
      frame.qpcFrequency.toNat = latestFrequency w.received
  | _ => True

/-- The store counts time as the latest Hello says. -/
def Watched.FollowsHello (w : Watched) : Prop :=
  w.window.store.qpcFrequency = latestFrequency w.received

variable {w : Watched} {frame : Frame}

theorem latestFrequency_append (received : List Frame) (frame : Frame) :
    latestFrequency (received ++ [frame]) =
      if frame.isTimedHello then frame.qpcFrequency.toNat else latestFrequency received := by
  rw [latestFrequency, List.filter_append]
  cases htimed : frame.isTimedHello with
  | true =>
    have hkept : List.filter Frame.isTimedHello [frame] = [frame] := by simp [htimed]
    rw [hkept, List.getLast?_concat, if_pos rfl]
  | false =>
    have hnone : List.filter Frame.isTimedHello [frame] = [] := by simp [htimed]
    rw [hnone, List.append_nil, if_neg Bool.false_ne_true, latestFrequency]

theorem qpcFrequency_add {store : EventStore} (h : store.paused = false) (frame : Frame) :
    (store.add frame).qpcFrequency =
      if frame.isTimedHello then frame.qpcFrequency.toNat else store.qpcFrequency := by
  simp only [EventStore.add, h, Bool.false_eq_true, ↓reduceIte, Frame.isTimedHello,
    Bool.and_eq_true, decide_eq_true_eq]

/-- A step keeps to the Hellos exactly where it keeps the time base. -/
theorem followsHello_step_iff (w : Watched) (action : Action) (h : w.FollowsHello) :
    (w.step action).FollowsHello ↔ w.KeepsTimeBase action := by
  cases action with
  | enqueue frame =>
    have hstore : (w.step (.enqueue frame)).window.store.qpcFrequency =
        w.window.store.qpcFrequency := by
      simp only [Watched.step, MainWindow.step, MainWindow.enqueue]
      split <;> rfl
    exact iff_of_true (hstore.trans h) trivial
  | togglePause => exact iff_of_true h trivial
  | markEvent => exact iff_of_true ((EventStore.qpcFrequency_markLatest _ _).trans h) trivial
  | take =>
    cases hpending : w.window.pending with
    | nil =>
      have hnext : w.next? = none := by rw [Watched.next?, hpending, List.head?_nil]
      refine iff_of_true ?_ ?_
      · simpa [Watched.FollowsHello, Watched.step, MainWindow.step, MainWindow.take, hpending,
          hnext] using h
      · intro _ frame hframe
        rw [hnext] at hframe
        cases hframe
    | cons frame pending =>
      have hnext : w.next? = some frame := by rw [Watched.next?, hpending, List.head?_cons]
      have hstore : (w.step .take).window.store = w.window.store.add frame := by
        simp only [Watched.step, MainWindow.step, MainWindow.take, hpending]
      have hreceived : (w.step .take).received = w.received ++ [frame] := by
        simp only [Watched.step, hnext, Option.toList_some]
      simp only [Watched.FollowsHello, Watched.KeepsTimeBase, hstore, hreceived,
        latestFrequency_append, hnext, Option.mem_def, Option.some.injEq, forall_eq']
      rw [Watched.FollowsHello] at h
      cases hpaused : w.window.store.paused with
      | true =>
        have hsame : w.window.store.add frame = w.window.store := if_pos hpaused
        rw [hsame, h]
        cases htimed : frame.isTimedHello with
        | true => simp [eq_comm]
        | false => simp
      | false =>
        rw [qpcFrequency_add hpaused, h]
        simp

end TimeBase

/-- The time base follows the Hellos all the time exactly in the runs that take no Hello with another
frequency while the view is paused. -/
theorem time_base_follows_iff (actions : List Action) :
    (∀ before, before <+: actions → (Runs.run Watched.step {} before).FollowsHello) ↔
      Runs.Throughout Watched.step Watched.KeepsTimeBase {} actions := by
  have hstart : ({} : Watched).FollowsHello := rfl
  exact Runs.always_iff_throughout followsHello_step_iff hstart actions

/-- A Hello of 10 MHz that comes in while the view is paused. -/
theorem paused_hello_forgotten :
    let actions := [.togglePause, .enqueue (sampleFrame 1 10000000 0 helloType), .take, .togglePause]
    let w := Runs.run Watched.step {} actions
    w.window.store.paused = false ∧ latestFrequency w.received = 10000000 ∧
      w.window.store.qpcFrequency = 1000000000 ∧ ¬ w.FollowsHello := by
  refine ⟨by decide +kernel, by decide +kernel, by decide +kernel, fun h => ?_⟩
  have hfrequency : (1000000000 : Nat) = 10000000 := h
  cases hfrequency

end FfbInterceptor.Viewer
