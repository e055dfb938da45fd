import Mathlib.Tactic.Positivity
import FfbInterceptor.Library.Greatest
import FfbInterceptor.Library.WeightedMean
import FfbInterceptor.Viewer.Store

/-! The peak and the root mean square of a channel (`model.py`). -/
namespace FfbInterceptor.Viewer
open FfbInterceptor.Library

abbrev ChannelSample := Frame × Int

def channelSamples (events : List Frame) (channel : Channel) (conditionAxis : Int) :
    List ChannelSample :=
  events.filterMap fun event =>
    (commandChannelValue event channel conditionAxis).map fun value => (event, value)

def pairwise {α : Type} (values : List α) : List (α × α) := values.zip values.tail

def tickDelta (previous current : Frame) : Int :=
  max 0 (current.qpcTicks.toNat - previous.qpcTicks.toNat)

/-- The root is the second number of the pair that is returned; its square is kept instead. -/
structure PeakRms where
  peak : ℚ
  rmsSquared : ℚ
  deriving DecidableEq

structure RmsSums where
  weighted : ℚ := 0
  total : Int := 0

def RmsSums.add (scale : ℚ) (sums : RmsSums) (pair : ChannelSample × ChannelSample) : RmsSums :=
  let delta := tickDelta pair.1.1 pair.2.1
  { weighted := sums.weighted + (pair.1.2 / scale) ^ 2 * delta
    total := sums.total + delta }

def largestSample (samples : List ChannelSample) : Nat :=
  greatest (samples.map fun sample => sample.2.natAbs)

def samplesPeakRms (samples : List ChannelSample) (scale : ℚ) : PeakRms :=
  match samples.getLast? with
  | none => ⟨0, 0⟩
  | some last =>
    let peak := (largestSample samples : ℚ) / scale
    let sums := (pairwise samples).foldl (RmsSums.add scale) {}
    if sums.total = 0 then ⟨peak, (last.2.natAbs / scale) ^ 2⟩
    else ⟨peak, sums.weighted / sums.total⟩

def EventStore.commandPeakRms (store : EventStore) (seconds : ℚ) (events : Option (List Frame))
    (channel : Channel) (conditionAxis : Int) : PeakRms :=
  samplesPeakRms (channelSamples (events.getD (store.window seconds)) channel conditionAxis)
    (commandChannelScale channel)

section Sums

variable {samples : List ChannelSample} {scale : ℚ}

def squares (scale : ℚ) (pairs : List (ChannelSample × ChannelSample)) : Weighted ℚ :=
  pairs.map fun pair => ((tickDelta pair.1.1 pair.2.1 : ℚ), (pair.1.2 / scale) ^ 2)

theorem tickDelta_nonneg (previous current : Frame) : 0 ≤ tickDelta previous current := le_max_left _ _

theorem foldl_sums (pairs : List (ChannelSample × ChannelSample)) (sums : RmsSums) :
    (pairs.foldl (RmsSums.add scale) sums).weighted = sums.weighted + (squares scale pairs).sum ∧
    ((pairs.foldl (RmsSums.add scale) sums).total : ℚ) = sums.total + (squares scale pairs).total := by
  induction pairs generalizing sums with
  | nil => simp [squares, Weighted.sum, Weighted.total]
  | cons pair pairs ih =>
    obtain ⟨hweighted, htotal⟩ := ih (sums.add scale pair)
    rw [List.foldl_cons, hweighted, htotal]
    simp only [RmsSums.add, squares, Weighted.sum, Weighted.total, List.map_cons, List.sum_cons,
      Int.cast_add]
    constructor
    · rw [mul_comm (tickDelta pair.1.1 pair.2.1 : ℚ), add_assoc]
    · rw [add_assoc]

theorem sums_eq (samples : List ChannelSample) (scale : ℚ) :
    ((pairwise samples).foldl (RmsSums.add scale) {}).weighted =
      (squares scale (pairwise samples)).sum ∧
    (((pairwise samples).foldl (RmsSums.add scale) {}).total : ℚ) =
      (squares scale (pairwise samples)).total := by
  obtain ⟨hweighted, htotal⟩ := @foldl_sums scale (pairwise samples) {}
  constructor
  · rw [hweighted, zero_add]
  · rw [htotal, Int.cast_zero, zero_add]

theorem mem_squares {term : ℚ × ℚ} (h : term ∈ squares scale (pairwise samples)) :
    0 ≤ term.1 ∧ ∃ sample ∈ samples, term.2 = (sample.2 / scale) ^ 2 := by
  obtain ⟨pair, hpair, rfl⟩ := List.mem_map.mp h
  refine ⟨Int.cast_nonneg (tickDelta_nonneg _ _), pair.1, ?_, rfl⟩
  exact (List.of_mem_zip hpair).1

end Sums

section Bounds

variable {samples : List ChannelSample} {scale : ℚ} {sample : ChannelSample}

theorem commandChannelScale_pos (channel : Channel) : 0 < commandChannelScale channel := by
  simp only [commandChannelScale]
  split <;> norm_num

structure PeakRms.Bounds (result : PeakRms) (values : List Int) (scale : ℚ) : Prop where
  peak_ge : ∀ value ∈ values, |(value : ℚ)| / scale ≤ result.peak
  peak_attained : values ≠ [] → ∃ value ∈ values, |(value : ℚ)| / scale = result.peak
  peak_empty : values = [] → result.peak = 0
  rms_nonneg : 0 ≤ result.rmsSquared
  rms_le : 0 ≤ result.peak ∧ result.rmsSquared ≤ result.peak ^ 2
  rms_eq : (∀ value ∈ values, ∀ other ∈ values, |value| = |other|) →
    result.rmsSquared = result.peak ^ 2

theorem samplesPeakRms_nil : samplesPeakRms [] scale = ⟨0, 0⟩ := rfl

theorem samplesPeakRms_cases (scale : ℚ) {last : ChannelSample} (hlast : samples.getLast? = some last) :
    (samplesPeakRms samples scale).peak =
        (largestSample samples : ℚ) / scale ∧
      ((samplesPeakRms samples scale).rmsSquared = ((last.2.natAbs : ℚ) / scale) ^ 2 ∨
        0 < (squares scale (pairwise samples)).total ∧
          (samplesPeakRms samples scale).rmsSquared =
            (squares scale (pairwise samples)).sum / (squares scale (pairwise samples)).total) := by
  obtain ⟨hweighted, htotal⟩ := sums_eq samples scale
  simp only [samplesPeakRms, hlast]
  split
  · exact ⟨rfl, Or.inl rfl⟩
  · rename_i hne
    refine ⟨rfl, Or.inr ⟨?_, ?_⟩⟩
    · have hnonneg := Weighted.total_nonneg fun term hterm =>
        (@mem_squares samples scale term hterm).1
      refine lt_of_le_of_ne hnonneg fun hzero => hne ?_
      rw [← htotal] at hzero
      exact_mod_cast hzero.symm
    · rw [hweighted, htotal]

theorem natAbs_div_eq (value : Int) (scale : ℚ) :
    (value.natAbs : ℚ) / scale = |(value : ℚ)| / scale := by
  rw [Nat.cast_natAbs, Int.cast_abs]

theorem abs_le_peak (hscale : 0 < scale) (h : sample ∈ samples) :
    |(sample.2 : ℚ)| / scale ≤
      (largestSample samples : ℚ) / scale := by
  have hle : sample.2.natAbs ≤ largestSample samples := le_greatest (List.mem_map.mpr ⟨sample, h, rfl⟩)
  rw [← natAbs_div_eq]
  exact div_le_div_of_nonneg_right (Nat.cast_le.mpr hle) hscale.le

theorem square_le_peak (hscale : 0 < scale) (h : sample ∈ samples) :
    ((sample.2 : ℚ) / scale) ^ 2 ≤
      ((largestSample samples : ℚ) / scale) ^ 2 := by
  have hle := abs_le_peak hscale h
  rw [← sq_abs, abs_div, abs_of_pos hscale]
  exact pow_le_pow_left₀ (div_nonneg (abs_nonneg _) hscale.le) hle 2

theorem peak_attained (scale : ℚ) (hne : samples ≠ []) : ∃ sample ∈ samples, |(sample.2 : ℚ)| / scale =
    (largestSample samples : ℚ) / scale := by
  have hvalues : samples.map (fun sample => sample.2.natAbs) ≠ [] := fun hnil =>
    hne (List.map_eq_nil_iff.mp hnil)
  obtain ⟨sample, hsample, heq⟩ :=
    List.mem_map.mp (greatest_mem hvalues fun value _ => Nat.zero_le value)
  refine ⟨sample, hsample, ?_⟩
  rw [← natAbs_div_eq, heq, largestSample]

theorem squares_range (hscale : 0 < scale) :
    ∀ term ∈ squares scale (pairwise samples),
      0 ≤ term.1 ∧ 0 ≤ term.2 ∧ term.2 ≤ ((largestSample samples : ℚ) / scale) ^ 2 := by
  intro term hterm
  obtain ⟨hweight, sample, hsample, heq⟩ := mem_squares hterm
  rw [heq]
  exact ⟨hweight, sq_nonneg _, square_le_peak hscale hsample⟩

theorem square_of_const (hscale : 0 < scale) (h : sample ∈ samples)
    (hsame : ∀ value ∈ samples.map Prod.snd, ∀ other ∈ samples.map Prod.snd, |value| = |other|) :
    ((sample.2 : ℚ) / scale) ^ 2 = ((largestSample samples : ℚ) / scale) ^ 2 := by
  obtain ⟨top, htop, hpeak⟩ := peak_attained scale (List.ne_nil_of_mem h)
  have habs : |(sample.2 : ℚ)| = |(top.2 : ℚ)| := by
    rw [← Int.cast_abs, ← Int.cast_abs, hsame _ (List.mem_map_of_mem h) _ (List.mem_map_of_mem htop)]
  rw [← hpeak, ← habs, ← sq_abs, abs_div, abs_of_pos hscale]

theorem samplesPeakRms_bounds (samples : List ChannelSample) (hscale : 0 < scale) :
    (samplesPeakRms samples scale).Bounds (samples.map Prod.snd) scale := by
  cases hlast : samples.getLast? with
  | none =>
    obtain rfl := List.getLast?_eq_none_iff.mp hlast
    constructor <;> simp [samplesPeakRms_nil]
  | some last =>
    have hmem : last ∈ samples := List.mem_of_getLast? hlast
    have hne : samples ≠ [] := List.ne_nil_of_mem hmem
    obtain ⟨hpeak, hrms⟩ := samplesPeakRms_cases scale hlast
    have hlastSquare : ((last.2.natAbs : ℚ) / scale) ^ 2 = ((last.2 : ℚ) / scale) ^ 2 := by
      rw [natAbs_div_eq, ← sq_abs (last.2 / scale : ℚ), abs_div, abs_of_pos hscale]
    constructor
    · intro value hvalue
      obtain ⟨sample, hsample, rfl⟩ := List.mem_map.mp hvalue
      exact hpeak ▸ abs_le_peak hscale hsample
    · intro _
      obtain ⟨sample, hsample, heq⟩ := peak_attained scale hne
      exact ⟨sample.2, List.mem_map_of_mem hsample, hpeak ▸ heq⟩
    · intro hnil
      exact absurd (List.map_eq_nil_iff.mp hnil) hne
    · cases hrms with
      | inl hstill =>
        rw [hstill]
        exact sq_nonneg _
      | inr hmean =>
        rw [hmean.2]
        exact (Weighted.mean_range (squares_range hscale) hmean.1).1
    · rw [hpeak]
      refine ⟨div_nonneg (Nat.cast_nonneg _) hscale.le, ?_⟩
      cases hrms with
      | inl hstill =>
        rw [hstill, hlastSquare]
        exact square_le_peak hscale hmem
      | inr hmean =>
        rw [hmean.2]
        exact (Weighted.mean_range (squares_range hscale) hmean.1).2
    · intro hsame
      rw [hpeak]
      cases hrms with
      | inl hstill =>
        rw [hstill, hlastSquare]
        exact square_of_const hscale hmem hsame
      | inr hmean =>
        rw [hmean.2]
        apply Weighted.mean_of_const _ hmean.1.ne'
        intro term hterm
        obtain ⟨-, sample, hsample, heq⟩ := mem_squares hterm
        rw [heq]
        exact square_of_const hscale hsample hsame

theorem channelSamples_insert {frame : Frame} {channel : Channel} {conditionAxis : Int}
    (h : commandChannelValue frame channel conditionAxis = none) (front back : List Frame) :
    channelSamples (front ++ frame :: back) channel conditionAxis =
      channelSamples (front ++ back) channel conditionAxis := by
  simp only [channelSamples, List.filterMap_append, List.filterMap_cons, h, Option.map_none]

theorem channelSamples_values (events : List Frame) (channel : Channel) (conditionAxis : Int) :
    (channelSamples events channel conditionAxis).map Prod.snd =
      events.filterMap fun event => commandChannelValue event channel conditionAxis := by
  rw [channelSamples, List.map_filterMap]
  apply List.filterMap_congr
  intro event _
  rw [Option.map_map]
  exact Option.map_id'

end Bounds

/-- The root mean square of any channel lies between zero and the peak, is the peak where all samples
have one magnitude, and does not see frames that do not carry the channel. -/
theorem rms_le_peak (store : EventStore) (seconds : ℚ) (events : List Frame) (channel : Channel)
    (conditionAxis : Int) :
    (store.commandPeakRms seconds (some events) channel conditionAxis).Bounds
      (events.filterMap fun event => commandChannelValue event channel conditionAxis)
      (commandChannelScale channel) ∧
    ∀ front frame back, events = front ++ back →
      commandChannelValue frame channel conditionAxis = none →
      store.commandPeakRms seconds (some (front ++ frame :: back)) channel conditionAxis =
        store.commandPeakRms seconds (some events) channel conditionAxis := by
  constructor
  · rw [← channelSamples_values]
    exact samplesPeakRms_bounds _ (commandChannelScale_pos channel)
  · intro front frame back hevents hnone
    simp only [EventStore.commandPeakRms, Option.getD_some, channelSamples_insert hnone, hevents]

end FfbInterceptor.Viewer
