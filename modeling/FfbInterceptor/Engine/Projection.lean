import Mathlib.Data.List.DropRight
import FfbInterceptor.Engine.Settings

/-! Normalising settings is a projection, up to the cut of the session id (`Models.cs`,
`FFBInterceptorPlugin.cs`). -/
namespace FfbInterceptor.Engine
open FfbInterceptor.Server

structure Trimmed (value : List UInt16) : Prop where
  first : ∀ unit ∈ value.head?, isWhiteSpaceUnit unit = false
  last : ∀ unit ∈ value.getLast?, isWhiteSpaceUnit unit = false

section Trimming

variable {value : List UInt16} {count : Nat}

theorem trim_eq_rdropWhile (value : List UInt16) :
    trim value = (value.dropWhile isWhiteSpaceUnit).rdropWhile isWhiteSpaceUnit := rfl

theorem trim_last (value : List UInt16) :
    ∀ unit ∈ (trim value).getLast?, isWhiteSpaceUnit unit = false := by
  intro unit hunit
  have hne : trim value ≠ [] := by
    rintro hnil
    simp [hnil] at hunit
  have hlast : (trim value).getLast hne = unit :=
    Option.some.inj ((List.getLast?_eq_some_getLast hne).symm.trans hunit)
  rw [← hlast]
  exact Bool.eq_false_iff.mpr (List.rdropWhile_last_not _ _ hne)

theorem dropWhile_head (value : List UInt16) :
    ∀ unit ∈ (value.dropWhile isWhiteSpaceUnit).head?, isWhiteSpaceUnit unit = false := by
  induction value with
  | nil => simp
  | cons unit rest ih =>
    cases hunit : isWhiteSpaceUnit unit with
    | true => simpa only [List.dropWhile_cons, hunit, if_pos] using ih
    | false => simp [hunit]

theorem head?_of_isPrefix {front whole : List UInt16} (h : front <+: whole) :
    ∀ unit ∈ front.head?, unit ∈ whole.head? := by
  obtain ⟨rest, rfl⟩ := h
  cases front with
  | nil => simp
  | cons unit front => simp

theorem trim_trimmed (value : List UInt16) : Trimmed (trim value) where
  first unit hunit :=
    dropWhile_head value unit (head?_of_isPrefix (List.rdropWhile_prefix _ _) unit hunit)
  last := trim_last value

theorem Trimmed.trim_eq (h : Trimmed value) : trim value = value := by
  have hdrop : value.dropWhile isWhiteSpaceUnit = value := by
    cases value with
    | nil => rfl
    | cons unit rest => simp [h.first unit rfl]
  rw [trim_eq_rdropWhile, hdrop, List.rdropWhile_eq_self_iff]
  intro hne
  simp [h.last _ (List.getLast?_eq_some_getLast hne)]

theorem Trimmed.take_iff (h : Trimmed value) :
    Trimmed (value.take (count + 1)) ↔ ∀ unit ∈ value[count]?, isWhiteSpaceUnit unit = false := by
  have hlast : (value.take (count + 1)).getLast? = value[count]?.or value.getLast? := by
    simp [List.getLast?_take]
  constructor
  · intro hcut unit hunit
    apply hcut.last unit
    rw [hlast, Option.mem_def.mp hunit]
    rfl
  · intro hend
    constructor
    · intro unit hunit
      exact h.first unit (head?_of_isPrefix (List.take_prefix _ _) unit hunit)
    · intro unit hunit
      rw [hlast] at hunit
      cases hat : value[count]? with
      | none => exact h.last unit (by simpa [hat] using hunit)
      | some found => exact hend unit (by simpa [hat] using hunit)

end Trimming

section Clamping

variable {α : Type} [LinearOrder α] {value minimum maximum : α}

theorem clamp_of_range (hmin : minimum ≤ value) (hmax : value ≤ maximum) :
    clamp value minimum maximum = value := by
  rw [clamp, min_eq_right hmax, max_eq_right hmin]

end Clamping

attribute [ext] NormalizedSettings

/-- The settings object that `CloneNormalized` returns. -/
def NormalizedSettings.toSettings (settings : NormalizedSettings) : DetectorSettings where
  entryThresholdPercent := .finite settings.entryThresholdPercent
  exitThresholdPercent := .finite settings.exitThresholdPercent
  continuousLimitMilliseconds := settings.continuousLimitMilliseconds
  ratioWindowMilliseconds := settings.ratioWindowMilliseconds
  ratioTriggerPercent := .finite settings.ratioTriggerPercent
  exitHoldMilliseconds := settings.exitHoldMilliseconds
  autoSelectSource := settings.autoSelectSource
  manualProcessId := settings.manualProcessId
  manualSessionId := some settings.manualSessionId

def applySettings (settings : Option DetectorSettings) : NormalizedSettings :=
  (settings.getD DetectorSettings.defaults).cloneNormalized

def useAutomaticSource (settings : DetectorSettings) : NormalizedSettings :=
  applySettings (some { settings.cloneNormalized.toSettings with autoSelectSource := true })

theorem cloneNormalized_toSettings (settings : NormalizedSettings) :
    settings.toSettings.cloneNormalized =
      { settings with manualSessionId := (trim settings.manualSessionId).take 31 } := by
  have hentry : clampDouble settings.toSettings.entryThresholdPercent 1 100 =
      settings.entryThresholdPercent :=
    clamp_of_range settings.entry_range.1 settings.entry_range.2
  ext1
  · exact hentry
  · simp only [DetectorSettings.cloneNormalized, hentry]
    exact clamp_of_range settings.exit_range.1 settings.exit_range.2
  · exact clamp_of_range settings.continuous_range.1 settings.continuous_range.2
  · exact clamp_of_range settings.window_range.1 settings.window_range.2
  · exact clamp_of_range settings.trigger_range.1 settings.trigger_range.2
  · exact clamp_of_range settings.hold_range.1 settings.hold_range.2
  · rfl
  · rfl
  · rfl

/-- Normalising again changes nothing exactly when the session id stays as it is. -/
theorem cloneNormalized_toSettings_iff (settings : NormalizedSettings) :
    settings.toSettings.cloneNormalized = settings ↔
      (trim settings.manualSessionId).take 31 = settings.manualSessionId := by
  rw [cloneNormalized_toSettings]
  exact ⟨congrArg NormalizedSettings.manualSessionId, fun h => by ext1 <;> first | rfl | exact h⟩

/-- What normalising is meant to give: ranges that depend on one another, a short trimmed
session id, and the same settings however often they are saved, loaded and applied again. -/
structure DetectorSettings.Projected (settings : DetectorSettings) : Prop where
  entry : 1 ≤ settings.cloneNormalized.entryThresholdPercent ∧
    settings.cloneNormalized.entryThresholdPercent ≤ 100
  exit : 0 ≤ settings.cloneNormalized.exitThresholdPercent ∧
    settings.cloneNormalized.exitThresholdPercent ≤ settings.cloneNormalized.entryThresholdPercent
  continuous : 10 ≤ settings.cloneNormalized.continuousLimitMilliseconds ∧
    settings.cloneNormalized.continuousLimitMilliseconds ≤ 5000
  window : 100 ≤ settings.cloneNormalized.ratioWindowMilliseconds ∧
    settings.cloneNormalized.ratioWindowMilliseconds ≤ 10000
  trigger : 1 / 10 ≤ settings.cloneNormalized.ratioTriggerPercent ∧
    settings.cloneNormalized.ratioTriggerPercent ≤ 100
  hold : 0 ≤ settings.cloneNormalized.exitHoldMilliseconds ∧
    settings.cloneNormalized.exitHoldMilliseconds ≤ 5000
  short : settings.cloneNormalized.manualSessionId.length ≤ 31
  trimmed : Trimmed settings.cloneNormalized.manualSessionId
  again : settings.cloneNormalized.toSettings.cloneNormalized = settings.cloneNormalized
  applied : ∀ times : Nat,
    (fun held : NormalizedSettings => applySettings (some held.toSettings))^[times]
      settings.cloneNormalized = settings.cloneNormalized
  automatic : useAutomaticSource settings =
    { settings.cloneNormalized with autoSelectSource := true }

/-- The trimmed id is cut at 31 units and not trimmed again. -/
theorem projected_iff (settings : DetectorSettings) :
    settings.Projected ↔
      ∀ unit ∈ (trim (settings.manualSessionId.getD []))[30]?, isWhiteSpaceUnit unit = false := by
  have hcut : Trimmed settings.cloneNormalized.manualSessionId ↔
      ∀ unit ∈ (trim (settings.manualSessionId.getD []))[30]?, isWhiteSpaceUnit unit = false :=
    (trim_trimmed (settings.manualSessionId.getD [])).take_iff
  constructor
  · intro h
    exact hcut.mp h.trimmed
  · intro hend
    have htrimmed := hcut.mpr hend
    have hshort : settings.cloneNormalized.manualSessionId.length ≤ 31 := List.length_take_le _ _
    have hid : (trim settings.cloneNormalized.manualSessionId).take 31 =
        settings.cloneNormalized.manualSessionId := by
      rw [htrimmed.trim_eq, List.take_of_length_le hshort]
    have hagain := (cloneNormalized_toSettings_iff settings.cloneNormalized).mpr hid
    refine
      { entry := settings.cloneNormalized.entry_range
        exit := settings.cloneNormalized.exit_range
        continuous := settings.cloneNormalized.continuous_range
        window := settings.cloneNormalized.window_range
        trigger := settings.cloneNormalized.trigger_range
        hold := settings.cloneNormalized.hold_range
        short := hshort
        trimmed := htrimmed
        again := hagain
        applied := fun times => Function.iterate_fixed hagain times
        automatic := ?_ }
    · exact (cloneNormalized_toSettings_iff
        { settings.cloneNormalized with autoSelectSource := true }).mpr hid

/-- Thirty letters, a space and a letter: the cut ends in the space. -/
theorem spaced_session_id_not_projected :
    ¬ ({ manualSessionId := some (List.replicate 30 97 ++ [32, 97]) } :
      DetectorSettings).Projected := by
  intro h
  have hlast := h.trimmed.last 32 (by decide)
  exact absurd hlast (by decide)

end FfbInterceptor.Engine
