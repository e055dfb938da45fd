import Mathlib.Tactic.NormNum
import Mathlib.Algebra.Order.Ring.Rat
import FfbInterceptor.Server.Client

/-! The detector's settings (`Models.cs`). -/
namespace FfbInterceptor.Engine
open FfbInterceptor.Server

/-- A .NET double, with exact arithmetic on the finite ones. -/
inductive Double where
  | finite (value : ℚ)
  | nan
  | infinity (negative : Bool)
  deriving DecidableEq, Repr

def utf16Units (value : String) : List UInt16 :=
  value.toList.flatMap fun c =>
    if c.toNat ≤ 0xFFFF then [c.toNat.toUInt16]
    else [(0xD800 + (c.toNat - 0x10000) / 0x400).toUInt16, (0xDC00 + (c.toNat - 0x10000) % 0x400).toUInt16]

/-- `char.IsWhiteSpace` of a code unit; no surrogate is one. -/
def isWhiteSpaceUnit (unit : UInt16) : Bool := isWhiteSpace (Char.ofNat unit.toNat)

def trim (value : List UInt16) : List UInt16 :=
  ((value.dropWhile isWhiteSpaceUnit).reverse.dropWhile isWhiteSpaceUnit).reverse

/-- `none` for the session id is the null reference. -/
structure DetectorSettings where
  entryThresholdPercent : Double := .finite 98
  exitThresholdPercent : Double := .finite 95
  continuousLimitMilliseconds : Int := 100
  ratioWindowMilliseconds : Int := 1000
  ratioTriggerPercent : Double := .finite 5
  exitHoldMilliseconds : Int := 500
  autoSelectSource : Bool := true
  manualProcessId : UInt32 := 0
  manualSessionId : Option (List UInt16) := some []

def DetectorSettings.defaults : DetectorSettings := {}

def clamp {α : Type} [Max α] [Min α] (value minimum maximum : α) : α := max minimum (min maximum value)

def clampDouble (value : Double) (minimum maximum : ℚ) : ℚ :=
  match value with
  | .finite value => clamp value minimum maximum
  | .nan | .infinity _ => minimum

/-- Settings after `CloneNormalized`, with the ranges it ensures. -/
structure NormalizedSettings where
  entryThresholdPercent : ℚ
  exitThresholdPercent : ℚ
  continuousLimitMilliseconds : Int
  ratioWindowMilliseconds : Int
  ratioTriggerPercent : ℚ
  exitHoldMilliseconds : Int
  autoSelectSource : Bool
  manualProcessId : UInt32
  manualSessionId : List UInt16
  entry_range : 1 ≤ entryThresholdPercent ∧ entryThresholdPercent ≤ 100
  exit_range : 0 ≤ exitThresholdPercent ∧ exitThresholdPercent ≤ entryThresholdPercent
  continuous_range : 10 ≤ continuousLimitMilliseconds ∧ continuousLimitMilliseconds ≤ 5000
  window_range : 100 ≤ ratioWindowMilliseconds ∧ ratioWindowMilliseconds ≤ 10000
  trigger_range : 1 / 10 ≤ ratioTriggerPercent ∧ ratioTriggerPercent ≤ 100
  hold_range : 0 ≤ exitHoldMilliseconds ∧ exitHoldMilliseconds ≤ 5000

section Ranges

variable {α : Type} [LinearOrder α]

theorem clamp_range (value : α) {minimum maximum : α} (h : minimum ≤ maximum) :
    minimum ≤ clamp value minimum maximum ∧ clamp value minimum maximum ≤ maximum :=
  ⟨le_max_left _ _, max_le h (min_le_left _ _)⟩

theorem clampDouble_range (value : Double) {minimum maximum : ℚ} (h : minimum ≤ maximum) :
    minimum ≤ clampDouble value minimum maximum ∧ clampDouble value minimum maximum ≤ maximum := by
  cases value with
  | finite value => exact clamp_range value h
  | nan => exact ⟨le_refl _, h⟩
  | infinity negative => exact ⟨le_refl _, h⟩

end Ranges

def DetectorSettings.cloneNormalized (settings : DetectorSettings) : NormalizedSettings where
  entryThresholdPercent := clampDouble settings.entryThresholdPercent 1 100
  exitThresholdPercent :=
    clampDouble settings.exitThresholdPercent 0 (clampDouble settings.entryThresholdPercent 1 100)
  continuousLimitMilliseconds := clamp settings.continuousLimitMilliseconds 10 5000
  ratioWindowMilliseconds := clamp settings.ratioWindowMilliseconds 100 10000
  ratioTriggerPercent := clampDouble settings.ratioTriggerPercent (1 / 10) 100
  exitHoldMilliseconds := clamp settings.exitHoldMilliseconds 0 5000
  autoSelectSource := settings.autoSelectSource
  manualProcessId := settings.manualProcessId
  manualSessionId := (trim (settings.manualSessionId.getD [])).take 31
  entry_range := clampDouble_range _ (by norm_num)
  exit_range :=
    clampDouble_range _ (zero_le_one.trans (clampDouble_range _ (by norm_num)).1)
  continuous_range := clamp_range _ (by norm_num)
  window_range := clamp_range _ (by norm_num)
  trigger_range := clampDouble_range _ (by norm_num)
  hold_range := clamp_range _ (by norm_num)

end FfbInterceptor.Engine
