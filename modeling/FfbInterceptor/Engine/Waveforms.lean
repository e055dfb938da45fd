import Mathlib.Algebra.Order.Floor.Ring
import Mathlib.Tactic.FieldSimp
import FfbInterceptor.Engine.Gains

/-! What an effect plays once it has begun: when it produces, at which point of an iteration, and
within which bounds. -/
namespace FfbInterceptor.Engine
open FfbInterceptor.Library FfbInterceptor.Protocol

section Divisions

/-- A quotient that is only there when the divisor is not zero. -/
def divide? (dividend divisor : ℚ) : Option ℚ := if divisor = 0 then none else some (dividend / divisor)

def remainder? (dividend divisor : ℚ) : Option ℚ :=
  if divisor = 0 then none else some (remainder dividend divisor)

theorem divide?_of_pos {divisor : ℚ} (h : 0 < divisor) (dividend : ℚ) :
    divide? dividend divisor = some (dividend / divisor) := if_neg h.ne'

theorem remainder?_of_pos {divisor : ℚ} (h : 0 < divisor) (dividend : ℚ) :
    remainder? dividend divisor = some (remainder dividend divisor) := if_neg h.ne'

namespace EffectState
variable (effect : EffectState)

/-! The evaluation of `RawLevelAt` again, with every division by a computed value checked. -/

def iterationElapsedMilliseconds? (now : ℚ) : Option ℚ :=
  let elapsed := max 0 (now - effect.activeFromMilliseconds)
  if effect.durationMicroseconds = 0xFFFFFFFF ∨ effect.durationMicroseconds = 0 then some elapsed
  else if effect.durationMilliseconds ≤ 0 then some 0
  else remainder? elapsed effect.durationMilliseconds

def envelopeAmplitudeAt? (elapsed sustainAmplitude : ℚ) : Option ℚ :=
  let attack : ℚ := effect.envelopeAttackMicroseconds.toNat / 1000
  let fade : ℚ := effect.envelopeFadeMicroseconds.toNat / 1000
  let attackStart := clamp01 (effect.envelopeAttackLevel.toNat / 10000)
  let fadeStart := max 0 (effect.durationMilliseconds - fade)
  let fadeEnd := clamp01 (effect.envelopeFadeLevel.toNat / 10000)
  if !effect.hasEnvelope then some sustainAmplitude
  else if 0 < attack ∧ elapsed < attack then
    (divide? elapsed attack).map fun progress =>
      attackStart + (sustainAmplitude - attackStart) * clamp01 progress
  else if effect.durationMicroseconds ≠ 0xFFFFFFFF ∧ effect.envelopeFadeMicroseconds ≠ 0 ∧
      fadeStart ≤ elapsed then
    (if fade ≤ 0 then some 1 else (divide? (elapsed - fadeStart) fade).map clamp01).map fun progress =>
      sustainAmplitude + (fadeEnd - sustainAmplitude) * progress
  else some sustainAmplitude

def applyEnvelopeToSigned? (sustain elapsed : ℚ) : Option ℚ :=
  (effect.envelopeAmplitudeAt? elapsed |sustain|).map fun amplitude =>
    (if sustain < 0 then -1 else 1) * amplitude

def rampProgress? (elapsed : ℚ) : Option ℚ :=
  if effect.durationMicroseconds = 0xFFFFFFFF ∨ effect.durationMicroseconds = 0 then some 0
  else (divide? elapsed effect.durationMilliseconds).map clamp01

def commandAt? (sine : Sine) (elapsed : ℚ) : Option ℚ :=
  match effect.kind with
  | .constant => effect.applyEnvelopeToSigned? (effect.magnitude.toInt / 10000) elapsed
  | .ramp => do
    let progress ← effect.rampProgress? elapsed
    effect.applyEnvelopeToSigned?
      ((effect.rampStart.toInt + (effect.rampEnd.toInt - effect.rampStart.toInt) * progress) / 10000)
      elapsed
  | kind => do
    let quotient ← divide? (elapsed * 1000) effect.periodicPeriodMicroseconds.toNat
    let cycles := quotient + effect.periodicPhase.toInt / 36000
    let amplitude ← effect.envelopeAmplitudeAt? elapsed |(effect.periodicMagnitude.toInt / 10000 : ℚ)|
    return effect.periodicOffset.toInt / 10000 + (if effect.periodicMagnitude < 0 then -1 else 1) *
      amplitude * waveformAt sine kind (cycles - ⌊cycles⌋)

def rawLevelAt? (sine : Sine) (now : ℚ) : Option ℚ :=
  if effect.isSupported then do
    let elapsed ← effect.iterationElapsedMilliseconds? now
    let command ← effect.commandAt? sine elapsed
    return clamp01 |command|
  else some 0

variable {effect}

theorem durationMilliseconds_pos (h : effect.durationMicroseconds ≠ 0) : 0 < effect.durationMilliseconds := by
  have hpos : 0 < effect.durationMicroseconds.toNat :=
    Nat.pos_of_ne_zero fun hzero => h (UInt32.toNat_inj.mp hzero)
  exact div_pos (by exact_mod_cast hpos) (by norm_num)

theorem iterationElapsedMilliseconds?_eq (now : ℚ) :
    effect.iterationElapsedMilliseconds? now = some (effect.iterationElapsedMilliseconds now) := by
  unfold iterationElapsedMilliseconds? iterationElapsedMilliseconds
  split
  · rfl
  · next hfinite =>
    have hpos := durationMilliseconds_pos fun h => hfinite (.inr h)
    rw [if_neg hpos.not_ge, if_neg hpos.not_ge, remainder?_of_pos hpos]

theorem envelopeAmplitudeAt?_eq (elapsed sustain : ℚ) :
    effect.envelopeAmplitudeAt? elapsed sustain = some (effect.envelopeAmplitudeAt elapsed sustain) := by
  unfold envelopeAmplitudeAt? envelopeAmplitudeAt
  simp only
  split
  · rfl
  · split
    · next hattack => rw [divide?_of_pos hattack.1, Option.map_some]
    · split
      · split
        · rfl
        · next hfade => rw [divide?_of_pos (not_le.mp hfade), Option.map_some, Option.map_some]
      · rfl

theorem applyEnvelopeToSigned?_eq (sustain elapsed : ℚ) :
    effect.applyEnvelopeToSigned? sustain elapsed = some (effect.applyEnvelopeToSigned sustain elapsed) := by
  rw [applyEnvelopeToSigned?, envelopeAmplitudeAt?_eq, Option.map_some, applyEnvelopeToSigned]

theorem rampProgress?_eq (elapsed : ℚ) :
    effect.rampProgress? elapsed = some (effect.rampProgress elapsed) := by
  unfold rampProgress? rampProgress
  split
  · rfl
  · next hfinite =>
    rw [divide?_of_pos (durationMilliseconds_pos fun h => hfinite (.inr h)), Option.map_some]

/-- A supported effect that is neither constant nor a ramp has a period. -/
theorem commandAt?_eq (h : effect.isSupported = true) (sine : Sine) (elapsed : ℚ) :
    effect.commandAt? sine elapsed = some (effect.commandAt sine elapsed) := by
  unfold commandAt? commandAt
  cases hkind : effect.kind with
  | constant => exact applyEnvelopeToSigned?_eq _ elapsed
  | ramp =>
    simp only [rampProgress?_eq, Option.bind_eq_bind, Option.bind_some]
    exact applyEnvelopeToSigned?_eq _ elapsed
  | square | sine | triangle | sawtoothUp | sawtoothDown =>
    have hperiod : (0 : ℚ) < effect.periodicPeriodMicroseconds.toNat := by
      simp only [isSupported, hkind, isPeriodic] at h
      have hpositive : 0 < effect.periodicPeriodMicroseconds := by simpa using h
      exact_mod_cast UInt32.lt_iff_toNat_lt.mp hpositive
    simp only [divide?_of_pos hperiod, envelopeAmplitudeAt?_eq, Option.bind_eq_bind, Option.bind_some]
    rfl
  | unknown | spring | damper | inertia | friction | custom => simp [isSupported, hkind, isPeriodic] at h

theorem rawLevelAt?_eq (sine : Sine) (now : ℚ) :
    effect.rawLevelAt? sine now = some (effect.rawLevelAt sine now) := by
  unfold rawLevelAt? rawLevelAt
  split
  · next hsupported =>
    simp only [iterationElapsedMilliseconds?_eq, commandAt?_eq hsupported, Option.bind_eq_bind,
      Option.bind_some]
    rfl
  · rfl

theorem rawLevelAt_range (sine : Sine) (now : ℚ) :
    0 ≤ effect.rawLevelAt sine now ∧ effect.rawLevelAt sine now ≤ 1 := by
  unfold rawLevelAt
  split
  · exact ⟨clamp01_nonneg _, max_le zero_le_one (min_le_left _ _)⟩
  · exact ⟨le_refl 0, zero_le_one⟩

end EffectState

end Divisions

section Envelopes

theorem between_of_progress {low high start finish progress : ℚ} (hstart : low ≤ start ∧ start ≤ high)
    (hfinish : low ≤ finish ∧ finish ≤ high) (hprogress : 0 ≤ progress ∧ progress ≤ 1) :
    low ≤ start + (finish - start) * progress ∧ start + (finish - start) * progress ≤ high := by
  have hmix : start + (finish - start) * progress = (1 - progress) * start + progress * finish := by ring
  have hrest : 0 ≤ 1 - progress := sub_nonneg.mpr hprogress.2
  rw [hmix]
  constructor
  · nlinarith only [mul_le_mul_of_nonneg_left hstart.1 hrest,
      mul_le_mul_of_nonneg_left hfinish.1 hprogress.1]
  · nlinarith only [mul_le_mul_of_nonneg_left hstart.2 hrest,
      mul_le_mul_of_nonneg_left hfinish.2 hprogress.1]

theorem clamp01_range (value : ℚ) : 0 ≤ clamp01 value ∧ clamp01 value ≤ 1 :=
  ⟨clamp01_nonneg value, max_le zero_le_one (min_le_left _ _)⟩

theorem envelopeAmplitudeAt_range (effect : EffectState) (elapsed sustain : ℚ) :
    let attackLevel := clamp01 (effect.envelopeAttackLevel.toNat / 10000)
    let fadeLevel := clamp01 (effect.envelopeFadeLevel.toNat / 10000)
    min (min attackLevel fadeLevel) sustain ≤ effect.envelopeAmplitudeAt elapsed sustain ∧
      effect.envelopeAmplitudeAt elapsed sustain ≤ max (max attackLevel fadeLevel) sustain := by
  intro attackLevel fadeLevel
  have hattack : min (min attackLevel fadeLevel) sustain ≤ attackLevel ∧
      attackLevel ≤ max (max attackLevel fadeLevel) sustain :=
    ⟨(min_le_left _ _).trans (min_le_left _ _), (le_max_left _ _).trans (le_max_left _ _)⟩
  have hfade : min (min attackLevel fadeLevel) sustain ≤ fadeLevel ∧
      fadeLevel ≤ max (max attackLevel fadeLevel) sustain :=
    ⟨(min_le_left _ _).trans (min_le_right _ _), (le_max_right _ _).trans (le_max_left _ _)⟩
  have hsustain : min (min attackLevel fadeLevel) sustain ≤ sustain ∧
      sustain ≤ max (max attackLevel fadeLevel) sustain := ⟨min_le_right _ _, le_max_right _ _⟩
  unfold EffectState.envelopeAmplitudeAt
  simp only
  split
  · exact hsustain
  · split
    · exact between_of_progress hattack hsustain (clamp01_range _)
    · split
      · refine between_of_progress hsustain hfade ?_
        split
        · exact ⟨zero_le_one, le_refl 1⟩
        · exact clamp01_range _
      · exact hsustain

end Envelopes

section Playback
variable {effect : EffectState}

namespace EffectState

/-- The effect after it has been asked at the times of a list whether it is producing. -/
def queried (effect : EffectState) (times : List ℚ) : EffectState :=
  times.foldl (fun effect time => (effect.isProducing time).2) effect

theorem queried_eq (times : List ℚ) : ∃ active, effect.queried times = { effect with active := active } := by
  induction times generalizing effect with
  | nil => exact ⟨effect.active, rfl⟩
  | cons first times ih =>
    obtain ⟨active, hrest⟩ := @ih (effect.isProducing first).2
    rw [queried, List.foldl_cons, ← queried, hrest]
    cases hlive : effect.live first with
    | true => exact ⟨active, by rw [isProducing_snd_of_live hlive]⟩
    | false =>
      refine ⟨active, ?_⟩
      unfold isProducing expireIfFinished
      split
      · rfl
      · split <;> rfl

theorem live_isProducing {first time : ℚ} (hle : first ≤ time) :
    (effect.isProducing first).2.live time = effect.live time := by
  cases hlive : effect.live first with
  | true => rw [isProducing_snd_of_live hlive]
  | false =>
    rw [over_of_le hlive hle]
    exact over_of_le (isProducing_snd_of_over hlive).1 hle

theorem live_queried {times : List ℚ} {time : ℚ} (hearlier : ∀ earlier ∈ times, earlier ≤ time) :
    (effect.queried times).live time = effect.live time := by
  induction times generalizing effect with
  | nil => rfl
  | cons first times ih =>
    rw [queried, List.foldl_cons, ← queried, ih fun t ht => hearlier t (List.mem_cons_of_mem _ ht),
      live_isProducing (hearlier first List.mem_cons_self)]

/-- When an effect that begins at a time starts to produce. -/
def producesFrom (effect : EffectState) (start : ℚ) : ℚ := start + effect.startDelayMicroseconds.toNat / 1000

theorem live_begin (hfinite : effect.durationMicroseconds ≠ 0xFFFFFFFF) (start : ℚ) (iterations : UInt32)
    (time : ℚ) : (effect.begin start iterations).live time = true ↔
      (iterations ≠ 0xFFFFFFFF → time < effect.producesFrom start +
        effect.durationMilliseconds * max 1 (iterations.toNat : ℚ)) := by
  have hcount : ((if iterations = 0 then 1 else iterations : UInt32).toNat : ℚ) =
      max 1 (iterations.toNat : ℚ) := by
    split
    · next hzero =>
      rw [hzero]
      rfl
    · next hpositive =>
      have hone : 1 ≤ iterations.toNat :=
        Nat.one_le_iff_ne_zero.mpr fun hzero => hpositive (UInt32.toNat_inj.mp hzero)
      rw [max_eq_right (by exact_mod_cast hone)]
  have hinfinite : (if iterations = 0 then 1 else iterations : UInt32) = 0xFFFFFFFF ↔
      iterations = 0xFFFFFFFF := by
    split
    · next hzero =>
      rw [hzero]
      decide
    · rfl
  simp only [live, begin, refreshSchedule, hfinite, hinfinite, false_or, Bool.true_and]
  by_cases hend : iterations = 0xFFFFFFFF
  · simp [hend, reached]
  · simp only [hend, if_false, reached, Bool.not_eq_true', decide_eq_false_iff_not, not_le, ne_eq,
      not_false_eq_true, forall_const, hcount, producesFrom, durationMilliseconds]

theorem commandAt_begin (sine : Sine) (start start' : ℚ) (iterations iterations' : UInt32) (active : Bool)
    (elapsed : ℚ) :
    ({ effect.begin start iterations with active := active } : EffectState).commandAt sine elapsed =
      (effect.begin start' iterations').commandAt sine elapsed := rfl

theorem remainder_range {dividend divisor : ℚ} (h : 0 < divisor) :
    0 ≤ remainder dividend divisor ∧ remainder dividend divisor < divisor := by
  have hfloor := Int.floor_le (dividend / divisor)
  have hnext := Int.lt_floor_add_one (dividend / divisor)
  rw [le_div_iff₀ h] at hfloor
  rw [div_lt_iff₀ h] at hnext
  unfold remainder
  constructor
  · linarith
  · linarith

theorem remainder_of_range {dividend divisor : ℚ} (h : 0 ≤ dividend ∧ dividend < divisor) :
    remainder dividend divisor = dividend := by
  have hpos : 0 < divisor := h.1.trans_lt h.2
  have hzero : ⌊dividend / divisor⌋ = 0 :=
    Int.floor_eq_zero_iff.mpr ⟨div_nonneg h.1 hpos.le, (div_lt_one hpos).mpr h.2⟩
  rw [remainder, hzero, Int.cast_zero, mul_zero, sub_zero]

theorem remainder_zero (dividend : ℚ) : remainder dividend 0 = dividend := by
  rw [remainder, zero_mul, sub_zero]

/-- A repeated effect is where its iteration is. -/
theorem iterationElapsed_begin (hfinite : effect.durationMicroseconds ≠ 0xFFFFFFFF) {start time : ℚ}
    (hstarted : effect.producesFrom start ≤ time) (iterations : UInt32) (active : Bool) :
    ({ effect.begin start iterations with active := active } :
        EffectState).iterationElapsedMilliseconds time =
      remainder (time - effect.producesFrom start) effect.durationMilliseconds := by
  have helapsed : max 0 (time - effect.producesFrom start) = time - effect.producesFrom start :=
    max_eq_right (sub_nonneg.mpr hstarted)
  simp only [iterationElapsedMilliseconds, begin, refreshSchedule, hfinite, false_or]
  by_cases hzero : effect.durationMicroseconds = 0
  · have hinstant : effect.durationMilliseconds = 0 := by simp [durationMilliseconds, hzero]
    rw [if_pos hzero, ← producesFrom, helapsed, hinstant, remainder_zero]
  · have hpos := durationMilliseconds_pos hzero
    rw [if_neg hzero, if_neg (by exact hpos.not_ge), ← producesFrom, helapsed]
    rfl

theorem remainder_remainder {dividend divisor : ℚ} (h : 0 ≤ divisor) :
    remainder (remainder dividend divisor) divisor = remainder dividend divisor := by
  cases h.eq_or_lt with
  | inl hzero => rw [← hzero, remainder_zero]
  | inr hpos => exact remainder_of_range (remainder_range hpos)

theorem remainder_nonneg {dividend divisor : ℚ} (hdividend : 0 ≤ dividend) (hdivisor : 0 ≤ divisor) :
    0 ≤ remainder dividend divisor := by
  cases hdivisor.eq_or_lt with
  | inl hzero => rwa [← hzero, remainder_zero]
  | inr hpos => exact (remainder_range hpos).1

theorem durationMilliseconds_nonneg : 0 ≤ effect.durationMilliseconds :=
  div_nonneg (Nat.cast_nonneg _) (by norm_num)

theorem rawLevelAt_begin (sine : Sine) (hfinite : effect.durationMicroseconds ≠ 0xFFFFFFFF)
    {start time : ℚ} (hstarted : effect.producesFrom start ≤ time) (iterations : UInt32) (active : Bool) :
    ({ effect.begin start iterations with active := active } : EffectState).rawLevelAt sine time =
      (effect.begin start 1).rawLevelAt sine (effect.producesFrom start +
        remainder (time - effect.producesFrom start) effect.durationMilliseconds) := by
  have hpoint := remainder_nonneg (sub_nonneg.mpr hstarted) (@durationMilliseconds_nonneg effect)
  have hlater : effect.producesFrom start ≤ effect.producesFrom start +
      remainder (time - effect.producesFrom start) effect.durationMilliseconds :=
    le_add_of_nonneg_right hpoint
  have hsingle := iterationElapsed_begin hfinite hlater 1 true
  rw [add_sub_cancel_left, remainder_remainder durationMilliseconds_nonneg] at hsingle
  have hrepeated := iterationElapsed_begin hfinite hstarted iterations active
  have hactive : ({ effect.begin start 1 with active := true } : EffectState) = effect.begin start 1 := rfl
  rw [hactive] at hsingle
  rw [rawLevelAt, rawLevelAt, hrepeated, hsingle, commandAt_begin sine start start iterations 1]
  rfl

/-- An effect that began and has only been asked at earlier times produces exactly within its
iterations, and there its level is the one of a single iteration. -/
theorem queried_begin (sine : Sine) (hfinite : effect.durationMicroseconds ≠ 0xFFFFFFFF) (start : ℚ)
    (iterations : UInt32) {times : List ℚ} {time : ℚ} (hearlier : ∀ earlier ∈ times, earlier ≤ time) :
    ((((effect.begin start iterations).queried times).isProducing time).1 = true ↔
      effect.producesFrom start ≤ time ∧ (iterations ≠ 0xFFFFFFFF →
        time < effect.producesFrom start +
          effect.durationMilliseconds * max 1 (iterations.toNat : ℚ))) ∧
    (effect.producesFrom start ≤ time →
      ((effect.begin start iterations).queried times).rawLevelAt sine time =
        (effect.begin start 1).rawLevelAt sine (effect.producesFrom start +
          remainder (time - effect.producesFrom start) effect.durationMilliseconds)) := by
  obtain ⟨active, hqueried⟩ := @queried_eq (effect.begin start iterations) times
  constructor
  · have hfrom : ((effect.begin start iterations).queried times).activeFromMilliseconds =
        effect.producesFrom start := by
      rw [hqueried]
      rfl
    rw [isProducing_fst, live_queried hearlier, hfrom, Bool.and_eq_true, live_begin hfinite,
      decide_eq_true_iff, and_comm]
  · intro hstarted
    rw [hqueried]
    exact rawLevelAt_begin sine hfinite hstarted iterations active

end EffectState

variable {s : SourceState} {device : DeviceState} {key : EffectKey}

def SourceState.ticks (s : SourceState) (settings : NormalizedSettings) (sine : Sine) (times : List ℚ) :
    SourceState :=
  times.foldl (fun s time => (s.tick time settings sine).2) s

/-- To an effect of a device that is not paused a tick is a question. -/
theorem ticks_queried (settings : NormalizedSettings) (sine : Sine) (hfiled : FiledEffects s.effects)
    (hdevice : s.devices.find? key.deviceId = some device) (hpaused : device.paused = false)
    (heffect : s.effects.find? key = some effect) (times : List ℚ) :
    (s.ticks settings sine times).effects.find? key = some (effect.queried times) := by
  induction times generalizing s effect with
  | nil => exact heffect
  | cons first times ih =>
    have hslot := slot_tick first settings hfiled sine key
    have htracked : s.devices.contains key.deviceId = true := by
      rw [Dictionary.contains, hdevice, Option.isSome_some]
    have hrunning : (s.slot key).device.paused = false := by
      simp only [SourceState.slot, SourceState.deviceOf, hdevice, Option.getD_some, hpaused]
    have hlooked : (s.tick first settings sine).2.effects.find? key = some (effect.isProducing first).2 := by
      rw [if_pos htracked, Slot.look, if_neg (Bool.eq_false_iff.mp hrunning)] at hslot
      have hfind := congrArg Slot.effect hslot
      simp only [SourceState.slot, heffect, Option.map_some] at hfind
      exact hfind
    refine ih (filed_tick first settings hfiled sine) ?_ hlooked
    rw [(tables_tick first settings s sine).2.1]
    exact hdevice

end Playback

/-- The levels of an effect are defined and within full scale; once begun it produces exactly during
its iterations, whenever a tick asked before, and repeats the level of one; its envelope stays between
the levels it joins. -/
theorem playback_and_waveforms (sine : Sine) (effect : EffectState) :
    (∀ now, effect.rawLevelAt? sine now = some (effect.rawLevelAt sine now) ∧
      0 ≤ effect.rawLevelAt sine now ∧ effect.rawLevelAt sine now ≤ 1) ∧
    (effect.durationMicroseconds ≠ 0xFFFFFFFF → ∀ start iterations times time,
      (∀ earlier ∈ times, earlier ≤ time) →
      ((((effect.begin start iterations).queried times).isProducing time).1 = true ↔
        effect.producesFrom start ≤ time ∧ (iterations ≠ 0xFFFFFFFF →
          time < effect.producesFrom start +
            effect.durationMilliseconds * max 1 (iterations.toNat : ℚ))) ∧
      (effect.producesFrom start ≤ time →
        ((effect.begin start iterations).queried times).rawLevelAt sine time =
          (effect.begin start 1).rawLevelAt sine (effect.producesFrom start +
            remainder (time - effect.producesFrom start) effect.durationMilliseconds))) ∧
    (∀ (s : SourceState) key device settings times, FiledEffects s.effects →
      s.devices.find? key.deviceId = some device → device.paused = false →
      s.effects.find? key = some effect →
      (s.ticks settings sine times).effects.find? key = some (effect.queried times)) ∧
    ∀ elapsed sustain,
      let attackLevel := clamp01 (effect.envelopeAttackLevel.toNat / 10000)
      let fadeLevel := clamp01 (effect.envelopeFadeLevel.toNat / 10000)
      min (min attackLevel fadeLevel) sustain ≤ effect.envelopeAmplitudeAt elapsed sustain ∧
        effect.envelopeAmplitudeAt elapsed sustain ≤ max (max attackLevel fadeLevel) sustain := by
  refine ⟨fun now => ⟨EffectState.rawLevelAt?_eq sine now, EffectState.rawLevelAt_range sine now⟩, ?_, ?_, ?_⟩
  · intro hfinite start iterations times time hearlier
    exact EffectState.queried_begin sine hfinite start iterations hearlier
  · intro s key device settings times hfiled hdevice hpaused heffect
    exact ticks_queried settings sine hfiled hdevice hpaused heffect times
  · exact envelopeAmplitudeAt_range effect

end FfbInterceptor.Engine
