import Mathlib.Data.List.Basic

/-! A latch: tripping it gives a signal, once, until it is armed again. -/
namespace FfbInterceptor.Library.Latch
variable {ι : Type*}

inductive Move where
  | arm
  | trip
  | leave
  deriving DecidableEq, Repr

def next (tripped : Bool) : Move → Bool
  | .arm => false
  | .trip => true
  | .leave => tripped

def signals (tripped : Bool) (move : Move) : Bool := move = .trip && !tripped

def signalCount (tripped : Bool) : List Move → Nat
  | [] => 0
  | move :: moves => (signals tripped move).toNat + signalCount (next tripped move) moves

variable {tripped : Bool} {moves : List Move}

/-- There is at most one signal for each time the latch is armed, and one more if it starts armed. -/
theorem signalCount_le (tripped : Bool) (moves : List Move) :
    signalCount tripped moves ≤ moves.count .arm + (!tripped).toNat := by
  induction moves generalizing tripped with
  | nil => exact Nat.zero_le _
  | cons move moves ih =>
    have hrest := ih (next tripped move)
    cases move with
    | arm =>
      simp only [signalCount, signals, next, List.count_cons] at hrest ⊢
      simp at hrest ⊢
      omega
    | trip =>
      cases tripped <;> simp [signalCount, signals, next] at hrest ⊢ <;> omega
    | leave =>
      simpa [signalCount, signals, next] using hrest

theorem signalCount_le_one (h : .arm ∉ moves) (tripped : Bool) : signalCount tripped moves ≤ 1 := by
  have hle := signalCount_le tripped moves
  rw [List.count_eq_zero.mpr h, Nat.zero_add] at hle
  exact Nat.le_trans hle (Bool.toNat_le _)

end FfbInterceptor.Library.Latch
