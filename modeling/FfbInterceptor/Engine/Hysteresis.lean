import Mathlib.Tactic.Linarith
import FfbInterceptor.Library.Holding
import FfbInterceptor.Engine.Sources

/-! The detector of a source that stays reliable keeps counters and a trimmed history; what it shows is
a function of the trace of its ticks. -/
namespace FfbInterceptor.Engine
open FfbInterceptor.Library FfbInterceptor.Protocol Holding

abbrev Trace := List (Sample ℚ ℚ)

section Reference
variable (settings : NormalizedSettings)

def NormalizedSettings.isAtLimit (level : ℚ) : Bool := settings.entryThresholdPercent / 100 ≤ level

def NormalizedSettings.isBelowExit (level : ℚ) : Bool := level < settings.exitThresholdPercent / 100

/-- The part of the window before the newest tick that was spent at the limit since the last reset. -/
def limitFraction (resetAt : ℚ) : Trace → ℚ
  | [] => 0
  | now :: past =>
    occupied settings.isAtLimit (max (now.time - settings.ratioWindowMilliseconds) resetAt) (now :: past) /
      settings.ratioWindowMilliseconds

/-- What the trace says of the detector: whether it is clipping, and when it was last reset. -/
structure Reference where
  clipping : Bool := false
  resetAt : ℚ := 0
  deriving DecidableEq, Repr

def Reference.tick (before : Reference) (trace : Trace) (now : Sample ℚ ℚ) : Reference :=
  if before.clipping then
    if settings.isBelowExit now.level ∧
        settings.exitHoldMilliseconds ≤ lasting settings.isBelowExit trace then
      { clipping := false, resetAt := now.time }
    else before
  else
    { before with
      clipping := settings.continuousLimitMilliseconds ≤ lasting settings.isAtLimit trace ∨
        settings.ratioTriggerPercent / 100 ≤ limitFraction settings before.resetAt trace }

/-- The first tick is a reset. -/
def reference : Trace → Reference
  | [] => {}
  | [first] => Reference.tick settings { resetAt := first.time } [first] first
  | now :: past => (reference past).tick settings (now :: past) now

def Reference.change (before after : Reference) : Option DetectorTransitionKind :=
  match before.clipping, after.clipping with
  | false, true => some .clippingStarted
  | true, false => some .clippingEnded
  | _, _ => none

/-- Ticks from some time on that is not negative, none too far from the one before. -/
structure Spaced (trace : Trace) : Prop where
  increasing : Increasing trace
  close : trace.IsChain fun next last =>
    next.time - last.time ≤ max 250 (settings.ratioWindowMilliseconds : ℚ)
  nonneg : ∀ sample ∈ trace, 0 ≤ sample.time

end Reference

structure SourceState.SameDetector (s s' : SourceState) : Prop where
  isClipping : s'.isClipping = s.isClipping
  clipRatio : s'.clipRatio = s.clipRatio
  sampling : s'.sampling = s.sampling

namespace SourceState
variable {s s' s'' : SourceState}

theorem SameDetector.refl (s : SourceState) : s.SameDetector s := ⟨rfl, rfl, rfl⟩

theorem SameDetector.trans (h : s.SameDetector s') (h' : s'.SameDetector s'') : s.SameDetector s'' :=
  ⟨h'.isClipping.trans h.isClipping, h'.clipRatio.trans h.clipRatio, h'.sampling.trans h.sampling⟩

end SourceState

theorem overlooks_sameDetector : SourceState.Overlooks SourceState.SameDetector where
  refl := .refl
  trans := .trans
  deviceDrop _ := ⟨rfl, rfl, rfl⟩
  effectDrop _ := ⟨rfl, rfl, rfl⟩
  objects _ _ _ _ := ⟨rfl, rfl, rfl⟩

/-- Only the notice of new drops reaches the detector. -/
theorem sameDetector_apply (s : SourceState) (frame : ProtocolFrame) (now : ℚ)
    (h : frame.messageType = .dropNotice → frame.dropped.toNat ≤ s.droppedFrames) :
    s.SameDetector (s.apply frame now) := by
  apply overlooks_sameDetector.apply frame now s
  intro hnotice
  simp only [SourceState.applyDropNotice, if_neg (Nat.not_lt.mpr (h hnotice))]
  exact ⟨rfl, rfl, rfl⟩

/-- A new source whose detector has seen the ticks of a trace, whatever happened to the rest of it in
between. -/
inductive Observes (settings : NormalizedSettings) : Trace → SourceState → Prop
  | fresh {s : SourceState} (hclipping : s.isClipping = false) (hratio : s.clipRatio = 0)
      (hsampling : s.sampling = {}) : Observes settings [] s
  | tick {past : Trace} {s s' : SourceState} (now : ℚ) (before : Observes settings past s)
      (hsame : s.SameDetector s') :
      Observes settings (⟨now, s'.levels.combinedCommandLevel⟩ :: past) (s'.detect now settings).2

section History

theorem clippedMilliseconds_nil (cutoff : ℚ) : clippedMilliseconds cutoff [] = 0 := rfl

theorem clippedMilliseconds_cons (cutoff : ℚ) (interval : ClipInterval) (history : List ClipInterval) :
    clippedMilliseconds cutoff (interval :: history) =
      (if interval.clipped then max 0 (interval.finish - max interval.start cutoff) else 0) +
        clippedMilliseconds cutoff history := List.sum_cons

theorem clippedMilliseconds_concat (cutoff : ℚ) (history : List ClipInterval) (interval : ClipInterval) :
    clippedMilliseconds cutoff (history ++ [interval]) =
      (if interval.clipped then max 0 (interval.finish - max interval.start cutoff) else 0) +
        clippedMilliseconds cutoff history := by
  induction history with
  | nil => rfl
  | cons first history ih =>
    rw [List.cons_append, clippedMilliseconds_cons, ih, clippedMilliseconds_cons, add_left_comm]

/-- What the trimming drops does not count now, and will not later. -/
theorem clippedMilliseconds_dropWhile {cutoff later : ℚ} (hle : cutoff ≤ later)
    (history : List ClipInterval) :
    clippedMilliseconds later (history.dropWhile fun interval => interval.finish ≤ cutoff) =
      clippedMilliseconds later history := by
  induction history with
  | nil => rfl
  | cons first history ih =>
    rw [List.dropWhile_cons]
    split
    · next hfinish =>
      have hnothing : max 0 (first.finish - max first.start later) = 0 := by
        have hend : first.finish ≤ cutoff := of_decide_eq_true hfinish
        rw [max_eq_left]
        linarith [le_max_right first.start later]
      rw [ih, clippedMilliseconds_cons, hnothing, ite_self, zero_add]
    · rfl

end History

section Detector
variable {settings : NormalizedSettings} {resetAt : ℚ} {now last : Sample ℚ ℚ} {past : Trace}

theorem not_isAtLimit_of_isBelowExit {level : ℚ} (h : settings.isBelowExit level = true) :
    settings.isAtLimit level = false := by
  have hexit : level < settings.exitThresholdPercent / 100 := of_decide_eq_true h
  have hrange := settings.exit_range.2
  rw [NormalizedSettings.isAtLimit, decide_eq_false_iff_not, not_le]
  linarith

/-- What the sampling state has to do with the ticks so far and the last reset. -/
structure Sampling.Recalls (settings : NormalizedSettings) (resetAt : ℚ) (now : Sample ℚ ℚ)
    (past : Trace) (sampling : Sampling) : Prop where
  time : sampling.lastTickMilliseconds = now.time
  atLimit : sampling.lastAtLimit = settings.isAtLimit now.level
  belowExit : sampling.lastBelowExit = settings.isBelowExit now.level
  /-- A reset clears the counter of a level that is not at the limit. -/
  limit : settings.isAtLimit now.level = true →
    sampling.continuousLimitMilliseconds = lasting settings.isAtLimit (now :: past)
  exit : sampling.continuousBelowExitMilliseconds = lasting settings.isBelowExit (now :: past)
  /-- What is left of the history serves this and every later window. -/
  history : ∀ cutoff, now.time - settings.ratioWindowMilliseconds ≤ cutoff →
    clippedMilliseconds cutoff sampling.history =
      occupied settings.isAtLimit (max cutoff resetAt) (now :: past)
  reset : resetAt ≤ now.time

theorem advance_of_close {sampling : Sampling} {now : ℚ} (hnonneg : 0 ≤ sampling.lastTickMilliseconds)
    (hlater : sampling.lastTickMilliseconds < now)
    (hclose : now - sampling.lastTickMilliseconds ≤ max 250 (settings.ratioWindowMilliseconds : ℚ))
    (atLimit belowExit : Bool) :
    sampling.advance now settings atLimit belowExit =
      { history := sampling.history ++ [⟨sampling.lastTickMilliseconds, now, sampling.lastAtLimit⟩]
        lastTickMilliseconds := now
        lastAtLimit := atLimit
        lastBelowExit := belowExit
        continuousLimitMilliseconds :=
          if sampling.lastAtLimit then
            sampling.continuousLimitMilliseconds + (now - sampling.lastTickMilliseconds) else 0
        continuousBelowExitMilliseconds :=
          if sampling.lastBelowExit then
            sampling.continuousBelowExitMilliseconds + (now - sampling.lastTickMilliseconds) else 0 } := by
  have hnogap : ¬ (sampling.lastTickMilliseconds < 0 ∨ now < sampling.lastTickMilliseconds ∨
      max 250 (settings.ratioWindowMilliseconds : ℚ) < now - sampling.lastTickMilliseconds) := by
    rintro (hfirst | hback | hgap)
    · exact absurd hnonneg (not_le.mpr hfirst)
    · exact absurd hlater hback.not_gt
    · exact absurd hclose (not_le.mpr hgap)
  have helapse : 0 < now - sampling.lastTickMilliseconds := sub_pos.mpr hlater
  rw [Sampling.advance, if_neg hnogap]
  simp only [Sampling.elapse, if_pos helapse]
  cases sampling.lastAtLimit <;> cases sampling.lastBelowExit <;> cases atLimit <;> cases belowExit <;> rfl

theorem Sampling.Recalls.advance {sampling : Sampling} (h : sampling.Recalls settings resetAt last past)
    (hnonneg : 0 ≤ last.time) (hlater : last.time < now.time)
    (hclose : now.time - last.time ≤ max 250 (settings.ratioWindowMilliseconds : ℚ)) :
    let advanced := sampling.advance now.time settings (settings.isAtLimit now.level)
      (settings.isBelowExit now.level)
    advanced.Recalls settings resetAt now (last :: past) ∧
      advanced.continuousLimitMilliseconds = lasting settings.isAtLimit (now :: last :: past) := by
  intro advanced
  have hadvanced : advanced = _ := advance_of_close (h.time ▸ hnonneg) (h.time ▸ hlater)
    (h.time ▸ hclose) (settings.isAtLimit now.level) (settings.isBelowExit now.level)
  have hlimit : advanced.continuousLimitMilliseconds =
      lasting settings.isAtLimit (now :: last :: past) := by
    rw [hadvanced, lasting_cons, h.atLimit, h.time]
    simp only
    split
    · next hheld => rw [h.limit hheld, add_comm]
    · rfl
  refine ⟨⟨?_, ?_, ?_, fun _ => hlimit, ?_, ?_, h.reset.trans hlater.le⟩, hlimit⟩
  · rw [hadvanced]
  · rw [hadvanced]
  · rw [hadvanced]
  · rw [hadvanced, lasting_cons, h.belowExit, h.time, h.exit]
    simp only
    split
    · rw [add_comm]
    · rfl
  · intro cutoff hcutoff
    have hwindow : last.time - settings.ratioWindowMilliseconds ≤ cutoff := by linarith
    rw [hadvanced, occupied_cons]
    simp only
    rw [clippedMilliseconds_concat, h.history cutoff hwindow, h.atLimit, h.time, max_comm cutoff resetAt,
      ← max_assoc, max_eq_left h.reset]

theorem recalls_first :
    let advanced := ({} : Sampling).advance now.time settings (settings.isAtLimit now.level)
      (settings.isBelowExit now.level)
    advanced.Recalls settings now.time now [] ∧
      advanced.continuousLimitMilliseconds = lasting settings.isAtLimit [now] := by
  intro advanced
  have hadvanced : advanced =
      { lastTickMilliseconds := now.time
        lastAtLimit := settings.isAtLimit now.level
        lastBelowExit := settings.isBelowExit now.level } := if_pos (.inl neg_one_lt_zero)
  rw [hadvanced]
  exact ⟨⟨rfl, rfl, rfl, fun _ => rfl, rfl, fun _ _ => rfl, le_refl _⟩, rfl⟩

theorem window_pos (settings : NormalizedSettings) : (0 : ℚ) < settings.ratioWindowMilliseconds := by
  have hwindow := settings.window_range.1
  exact_mod_cast (by omega : 0 < settings.ratioWindowMilliseconds)

theorem limitFraction_range (hincreasing : Increasing (now :: past)) :
    0 ≤ limitFraction settings resetAt (now :: past) ∧
      limitFraction settings resetAt (now :: past) ≤ 1 := by
  have hwindow := window_pos settings
  have hnonneg := occupied_nonneg settings.isAtLimit
    (max (now.time - settings.ratioWindowMilliseconds) resetAt) (now :: past)
  have hle : occupied settings.isAtLimit (max (now.time - settings.ratioWindowMilliseconds) resetAt)
      (now :: past) ≤ _ := occupied_le hincreasing
  refine ⟨div_nonneg hnonneg hwindow.le, (div_le_one hwindow).mpr (hle.trans (max_le hwindow.le ?_))⟩
  linarith [le_max_left (now.time - settings.ratioWindowMilliseconds) resetAt]

theorem clamp01_of_range {value : ℚ} (h : 0 ≤ value ∧ value ≤ 1) : clamp01 value = value := by
  rw [clamp01, min_eq_right h.2, max_eq_right h.1]

/-- The ratio of a tick is the fraction that the trace gives. -/
theorem Sampling.Recalls.ratio {sampling : Sampling} (h : sampling.Recalls settings resetAt now past)
    (hincreasing : Increasing (now :: past)) :
    (calculateRatio now.time settings.ratioWindowMilliseconds sampling.history).1 =
      limitFraction settings resetAt (now :: past) := by
  have hclipped := (clippedMilliseconds_dropWhile (le_refl _) sampling.history).trans
    (h.history (now.time - settings.ratioWindowMilliseconds) (le_refl _))
  rw [calculateRatio]
  simp only [hclipped]
  exact clamp01_of_range (limitFraction_range hincreasing)

theorem Sampling.Recalls.trim {sampling : Sampling} (h : sampling.Recalls settings resetAt now past) :
    { sampling with history := (calculateRatio now.time settings.ratioWindowMilliseconds
        sampling.history).2 : Sampling }.Recalls settings resetAt now past :=
  ⟨h.time, h.atLimit, h.belowExit, h.limit, h.exit,
    fun cutoff hcutoff => (clippedMilliseconds_dropWhile hcutoff sampling.history).trans
      (h.history cutoff hcutoff), h.reset⟩

theorem Sampling.Recalls.finish {sampling : Sampling} (h : sampling.Recalls settings resetAt now past)
    (hincreasing : Increasing (now :: past)) (hbelow : settings.isBelowExit now.level = true) :
    { sampling with history := [], continuousLimitMilliseconds := 0 : Sampling }.Recalls settings now.time
      now past := by
  refine ⟨h.time, h.atLimit, h.belowExit, ?_, h.exit, ?_, le_refl _⟩
  · intro hlimit
    rw [not_isAtLimit_of_isBelowExit hbelow] at hlimit
    cases hlimit
  · intro cutoff _
    rw [clippedMilliseconds_nil, occupied_of_le hincreasing (le_max_right _ _)]

theorem limitFraction_reset (hincreasing : Increasing (now :: past)) :
    limitFraction settings now.time (now :: past) = 0 := by
  rw [limitFraction, occupied_of_le hincreasing (le_max_right _ _), zero_div]

/-- What a tick shows and keeps, when its counters and its history are those of the trace. -/
structure SourceState.Shows (settings : NormalizedSettings) (expected : Reference) (now : Sample ℚ ℚ)
    (past : Trace) (s : SourceState) : Prop where
  clipping : s.isClipping = expected.clipping
  ratio : s.clipRatio = limitFraction settings expected.resetAt (now :: past)
  recalls : s.sampling.Recalls settings expected.resetAt now past

theorem shows_detect {s : SourceState} (hlevel : s.levels.combinedCommandLevel = now.level)
    (hincreasing : Increasing (now :: past))
    (hrecalls : (s.sampling.advance now.time settings (settings.isAtLimit now.level)
      (settings.isBelowExit now.level)).Recalls settings resetAt now past)
    (hlimit : (s.sampling.advance now.time settings (settings.isAtLimit now.level)
      (settings.isBelowExit now.level)).continuousLimitMilliseconds =
        lasting settings.isAtLimit (now :: past)) :
    let before : Reference := ⟨s.isClipping, resetAt⟩
    let after := before.tick settings (now :: past) now
    (s.detect now.time settings).2.Shows settings after now past ∧
      (s.detect now.time settings).1 = before.change after := by
  intro before after
  generalize hsampling : s.sampling.advance now.time settings (settings.isAtLimit now.level)
    (settings.isBelowExit now.level) = sampling at hrecalls hlimit
  have hratio := hrecalls.ratio hincreasing
  have hdetect : s.detect now.time settings =
      let ratio := calculateRatio now.time settings.ratioWindowMilliseconds sampling.history
      let sampled := { s with
        atLimit := settings.isAtLimit now.level
        clipRatio := limitFraction settings resetAt (now :: past)
        sampling := { sampling with history := ratio.2 } }
      if !s.isClipping && (settings.continuousLimitMilliseconds ≤ lasting settings.isAtLimit (now :: past) ||
          settings.ratioTriggerPercent / 100 ≤ limitFraction settings resetAt (now :: past)) then
        (some .clippingStarted, { sampled with isClipping := true })
      else if s.isClipping && settings.isBelowExit now.level &&
          settings.exitHoldMilliseconds ≤ lasting settings.isBelowExit (now :: past) then
        (some .clippingEnded,
          { sampled with
            isClipping := false
            clipRatio := 0
            sampling := { sampling with history := [], continuousLimitMilliseconds := 0 } })
      else (none, sampled) := by
    rw [← hratio, ← hlimit, ← hrecalls.exit, ← hsampling, ← hlevel]
    rfl
  have hkept := hrecalls.trim
  rw [hdetect]
  cases hclipping : s.isClipping with
  | false =>
    have hbefore : before.clipping = false := hclipping
    by_cases hstart : settings.continuousLimitMilliseconds ≤ lasting settings.isAtLimit (now :: past) ∨
        settings.ratioTriggerPercent / 100 ≤ limitFraction settings resetAt (now :: past)
    · have hafter : after = { before with clipping := true } := by
        simp only [after, Reference.tick, hbefore, Bool.false_eq_true, if_false]
        rw [decide_eq_true hstart]
      have hflag : (!false && (decide (settings.continuousLimitMilliseconds ≤
          lasting settings.isAtLimit (now :: past)) || decide (settings.ratioTriggerPercent / 100 ≤
          limitFraction settings resetAt (now :: past)))) = true := by simpa using hstart
      simp only [hflag, if_true, hafter]
      exact ⟨⟨rfl, rfl, hkept⟩, by rw [Reference.change, hbefore]⟩
    · have hafter : after = before := by
        simp only [after, Reference.tick, hbefore, Bool.false_eq_true, if_false]
        rw [decide_eq_false hstart, ← hbefore]
      have hflag : (!false && (decide (settings.continuousLimitMilliseconds ≤
          lasting settings.isAtLimit (now :: past)) || decide (settings.ratioTriggerPercent / 100 ≤
          limitFraction settings resetAt (now :: past)))) = false := by simpa using hstart
      simp only [hflag, Bool.false_and, Bool.false_eq_true, if_false, hafter]
      exact ⟨⟨hbefore.symm, rfl, hkept⟩, by rw [Reference.change, hbefore]⟩
  | true =>
    have hbefore : before.clipping = true := hclipping
    simp only [Bool.not_true, Bool.false_and, Bool.false_eq_true, if_false, Bool.true_and]
    by_cases hend : settings.isBelowExit now.level ∧
        settings.exitHoldMilliseconds ≤ lasting settings.isBelowExit (now :: past)
    · have hafter : after = { clipping := false, resetAt := now.time } := by
        simp only [after, Reference.tick, hbefore, if_true]
        exact if_pos hend
      simp only [hend.1, hend.2, decide_true, Bool.and_self, if_true, hafter]
      exact ⟨⟨rfl, (limitFraction_reset hincreasing).symm, hrecalls.finish hincreasing hend.1⟩,
        by rw [Reference.change, hbefore]⟩
    · have hafter : after = before := by
        simp only [after, Reference.tick, hbefore, if_true]
        exact if_neg hend
      have hflag : (settings.isBelowExit now.level && decide (settings.exitHoldMilliseconds ≤
          lasting settings.isBelowExit (now :: past))) = false := by simpa using hend
      simp only [hflag, Bool.false_eq_true, if_false, hafter]
      exact ⟨⟨hbefore.symm, rfl, hkept⟩, by rw [Reference.change, hbefore]⟩

end Detector

section Runs
variable {settings : NormalizedSettings} {trace past : Trace} {now : Sample ℚ ℚ} {s s' : SourceState}

theorem Spaced.tail (h : Spaced settings (now :: past)) : Spaced settings past :=
  ⟨h.increasing.tail, List.IsChain.tail h.close, fun sample hmem =>
    h.nonneg sample (List.mem_cons_of_mem _ hmem)⟩

/-- After the ticks of a trace the detector shows what the trace says. -/
def Agrees (settings : NormalizedSettings) (s : SourceState) : Trace → Prop
  | [] => s.isClipping = false ∧ s.clipRatio = 0 ∧ s.sampling = {}
  | now :: past => s.Shows settings (reference settings (now :: past)) now past

theorem Agrees.same (h : Agrees settings s trace) (hsame : s.SameDetector s') :
    Agrees settings s' trace := by
  cases trace with
  | nil => exact ⟨hsame.isClipping.trans h.1, hsame.clipRatio.trans h.2.1, hsame.sampling.trans h.2.2⟩
  | cons now past =>
    exact ⟨hsame.isClipping.trans h.clipping, hsame.clipRatio.trans h.ratio, hsame.sampling ▸ h.recalls⟩

/-- One tick keeps the agreement and reports the change. -/
theorem Agrees.detect (h : Agrees settings s past) (hlevel : s.levels.combinedCommandLevel = now.level)
    (hspaced : Spaced settings (now :: past)) :
    Agrees settings (s.detect now.time settings).2 (now :: past) ∧
      (s.detect now.time settings).1 =
        (reference settings past).change (reference settings (now :: past)) := by
  have hnow := hspaced.nonneg now List.mem_cons_self
  cases past with
  | nil =>
    obtain ⟨hrecalls, hlimit⟩ := @recalls_first settings now
    rw [← h.2.2] at hrecalls hlimit
    have hshows := shows_detect hlevel hspaced.increasing hrecalls hlimit
    rw [h.1] at hshows
    exact hshows
  | cons last past =>
    have hlater := hspaced.increasing.lt
    have hclose := (List.isChain_cons_cons.mp hspaced.close).1
    have hlast := hspaced.nonneg last (List.mem_cons_of_mem _ List.mem_cons_self)
    obtain ⟨hrecalls, hlimit⟩ := h.recalls.advance hlast hlater hclose
    have hshows := shows_detect hlevel hspaced.increasing hrecalls hlimit
    rw [h.clipping] at hshows
    exact hshows

theorem Observes.agrees (h : Observes settings trace s) (hspaced : Spaced settings trace) :
    Agrees settings s trace := by
  induction h with
  | fresh hclipping hratio hsampling => exact ⟨hclipping, hratio, hsampling⟩
  | tick now before hsame ih => exact (((ih hspaced.tail).same hsame).detect rfl hspaced).1

theorem sameDetector_evaluateEffects (sine : Sine) (s : SourceState) (now : ℚ) :
    s.SameDetector (s.evaluateEffects sine now) := ⟨rfl, rfl, rfl⟩

theorem tick_of_reliable (sine : Sine) (settings : NormalizedSettings) {s : SourceState} {now : ℚ}
    (h : (s.evaluateEffects sine now).estimateReliable = true) :
    s.tick now settings sine = (s.evaluateEffects sine now).detect now settings := if_pos h

/-- What the detector shows after the ticks of any trace is what the trace says, a further tick
reports what it changes, and the tick of a reliable source is such a tick. -/
theorem detector_follows_reference (h : Observes settings trace s) (hspaced : Spaced settings trace) :
    s.clipRatio = limitFraction settings (reference settings trace).resetAt trace ∧
    0 ≤ s.clipRatio ∧ s.clipRatio ≤ 1 ∧
    s.isClipping = (reference settings trace).clipping ∧
    (∀ s' now, s.SameDetector s' →
      Spaced settings (⟨now, s'.levels.combinedCommandLevel⟩ :: trace) →
      (s'.detect now settings).1 = (reference settings trace).change
        (reference settings (⟨now, s'.levels.combinedCommandLevel⟩ :: trace))) ∧
    ∀ sine now, (s.evaluateEffects sine now).estimateReliable = true →
      s.SameDetector (s.evaluateEffects sine now) ∧
        s.tick now settings sine = (s.evaluateEffects sine now).detect now settings := by
  have hagrees := h.agrees hspaced
  have hshown : s.clipRatio = limitFraction settings (reference settings trace).resetAt trace ∧
      s.isClipping = (reference settings trace).clipping := by
    cases trace with
    | nil => exact ⟨hagrees.2.1, hagrees.1⟩
    | cons now past => exact ⟨hagrees.ratio, hagrees.clipping⟩
  have hrange : 0 ≤ s.clipRatio ∧ s.clipRatio ≤ 1 := by
    rw [hshown.1]
    cases trace with
    | nil => exact ⟨le_refl 0, zero_le_one⟩
    | cons now past => exact limitFraction_range hspaced.increasing
  refine ⟨hshown.1, hrange.1, hrange.2, hshown.2, ?_, ?_⟩
  · intro s' now hsame hnext
    exact ((hagrees.same hsame).detect rfl hnext).2
  · intro sine now hreliable
    exact ⟨sameDetector_evaluateEffects sine s now, tick_of_reliable sine settings hreliable⟩

def fullForce : SourceState :=
  { identity := ⟨⟨1, ""⟩, "", "", 64⟩, levels := { combinedCommandLevel := 1 } }

/-- It clips after the continuous limit, here the default one. -/
theorem fullForce_clips :
    let settings := DetectorSettings.defaults.cloneNormalized
    let first := (fullForce.detect 0 settings).2
    ({ first with levels := fullForce.levels }.detect 100 settings).2.isClipping = true := by
  intro settings first
  have hfirst : Observes settings [⟨0, 1⟩] first := .tick 0 (.fresh rfl rfl rfl) (.refl fullForce)
  have hsame : first.SameDetector { first with levels := fullForce.levels } := ⟨rfl, rfl, rfl⟩
  have hobserves : Observes settings [⟨100, 1⟩, ⟨0, 1⟩]
      ({ first with levels := fullForce.levels }.detect 100 settings).2 := .tick 100 hfirst hsame
  have hspaced : Spaced settings [⟨100, 1⟩, ⟨0, 1⟩] := by
    refine ⟨?_, ?_, ?_⟩
    · simp [Increasing]
    · simp only [List.isChain_cons_cons, List.isChain_singleton, and_true]
      exact le_max_of_le_left (by norm_num)
    · simp
  exact (detector_follows_reference hobserves hspaced).2.2.2.1.trans (by decide +kernel)

end Runs

end FfbInterceptor.Engine
