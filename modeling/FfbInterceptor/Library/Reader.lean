import Mathlib.Data.List.Basic
import Mathlib.Data.UInt

/-! Readers over a list of unread input, and what a round trip through one is. -/
namespace FfbInterceptor.Library

variable {β ε α γ : Type}

/-- A computation that consumes a front of the unread input or fails. -/
abbrev Reader (β ε α : Type) := StateT (List β) (Except ε) α

/-- On every input that starts with `xs`, the reader consumes exactly `xs` and returns `a`. -/
def Reads (r : Reader β ε α) (xs : List β) (a : α) : Prop :=
  ∀ rest, r.run (xs ++ rest) = .ok (a, rest)

def take (e : ε) (n : Nat) : Reader β ε (List β) := fun input =>
  if n ≤ input.length then .ok (input.take n, input.drop n) else .error e

def many (r : Reader β ε α) : Nat → Reader β ε (List α)
  | 0 => pure []
  | n + 1 => do
      let a ← r
      let as ← many r n
      return a :: as

theorem Reads.pure (a : α) : Reads (pure a : Reader β ε α) [] a := by
  intro rest
  rfl

/-- A step of a longer reader: what it consumes goes, what it returns is passed on. -/
theorem Reads.run_bind {r : Reader β ε α} {xs : List β} {a : α} (hr : Reads r xs a)
    (f : α → Reader β ε γ) (rest : List β) :
    (r >>= f).run (xs ++ rest) = (f a).run rest := by
  rw [StateT.run_bind, hr rest]
  rfl

theorem Reads.bind {r : Reader β ε α} {f : α → Reader β ε γ} {xs ys : List β} {a : α} {c : γ}
    (hr : Reads r xs a) (hf : Reads (f a) ys c) : Reads (r >>= f) (xs ++ ys) c := by
  intro rest
  rw [List.append_assoc, hr.run_bind]
  exact hf rest

theorem Reads.map {r : Reader β ε α} {xs : List β} {a : α} (f : α → γ) (hr : Reads r xs a) :
    Reads (f <$> r) xs (f a) := by
  intro rest
  rw [StateT.run_map, hr rest]
  rfl

theorem reads_take (e : ε) (xs : List β) : Reads (take e xs.length) xs xs := by
  intro rest
  have h : xs.length ≤ (xs ++ rest).length := by simp
  simp only [take, StateT.run, h, ↓reduceIte, List.take_left, List.drop_left]

theorem reads_many {r : Reader β ε α} {put : α → List β} (h : ∀ a, Reads r (put a) a) (as : List α) :
    Reads (many r as.length) (as.flatMap put) as := by
  induction as with
  | nil => exact Reads.pure []
  | cons a as ih =>
    have hrest : Reads (many r as.length >>= fun l => pure (a :: l)) (as.flatMap put ++ []) (a :: as) :=
      ih.bind (Reads.pure (a :: as))
    rw [List.append_nil] at hrest
    exact (h a).bind hrest

section LittleEndian

def word16 (b0 b1 : UInt8) : UInt16 := b0.toUInt16 ||| b1.toUInt16 <<< 8

def word32 (b0 b1 b2 b3 : UInt8) : UInt32 :=
  b0.toUInt32 ||| b1.toUInt32 <<< 8 ||| b2.toUInt32 <<< 16 ||| b3.toUInt32 <<< 24

def word64 (low high : UInt32) : UInt64 := low.toUInt64 ||| high.toUInt64 <<< 32

theorem word16_bytes (v : UInt16) : word16 v.toUInt8 (v >>> 8).toUInt8 = v := by
  apply UInt16.toBitVec_inj.mp
  apply BitVec.eq_of_getLsbD_eq
  intro i hi
  simp only [word16, UInt16.toBitVec_or, UInt16.toBitVec_shiftLeft, UInt8.toBitVec_toUInt16,
    UInt16.toBitVec_toUInt8, UInt16.toBitVec_shiftRight, BitVec.getLsbD_or, BitVec.getLsbD_setWidth,
    UInt16.toBitVec_ofNat, BitVec.shiftLeft_eq', BitVec.ushiftRight_eq']
  simp
  grind

theorem word32_bytes (v : UInt32) :
    word32 v.toUInt8 (v >>> 8).toUInt8 (v >>> 16).toUInt8 (v >>> 24).toUInt8 = v := by
  apply UInt32.toBitVec_inj.mp
  apply BitVec.eq_of_getLsbD_eq
  intro i hi
  simp only [word32, UInt32.toBitVec_or, UInt32.toBitVec_shiftLeft, UInt8.toBitVec_toUInt32,
    UInt32.toBitVec_toUInt8, UInt32.toBitVec_shiftRight, BitVec.getLsbD_or, BitVec.getLsbD_setWidth,
    UInt32.toBitVec_ofNat, BitVec.shiftLeft_eq', BitVec.ushiftRight_eq']
  simp
  grind

theorem word64_halves (v : UInt64) : word64 v.toUInt32 (v >>> 32).toUInt32 = v := by
  apply UInt64.toBitVec_inj.mp
  apply BitVec.eq_of_getLsbD_eq
  intro i hi
  simp only [word64, UInt64.toBitVec_or, UInt64.toBitVec_shiftLeft, UInt32.toBitVec_toUInt64,
    UInt64.toBitVec_toUInt32, UInt64.toBitVec_shiftRight, BitVec.getLsbD_or, BitVec.getLsbD_setWidth,
    UInt64.toBitVec_ofNat, BitVec.shiftLeft_eq', BitVec.ushiftRight_eq']
  simp
  grind

/-! A word gives its bytes back. -/

theorem bytes_word16 (a b : UInt8) : (word16 a b).toUInt8 = a ∧ (word16 a b >>> 8).toUInt8 = b := by
  refine ⟨?_, ?_⟩ <;>
  · apply UInt8.toBitVec_inj.mp
    apply BitVec.eq_of_getLsbD_eq
    intro i hi
    simp only [word16, UInt16.toBitVec_or, UInt16.toBitVec_shiftLeft, UInt8.toBitVec_toUInt16,
      UInt16.toBitVec_toUInt8, UInt16.toBitVec_shiftRight, BitVec.getLsbD_or, BitVec.getLsbD_setWidth,
      UInt16.toBitVec_ofNat, BitVec.shiftLeft_eq', BitVec.ushiftRight_eq']
    simp
    grind

theorem bytes_word32 (a b c d : UInt8) : (word32 a b c d).toUInt8 = a ∧
    (word32 a b c d >>> 8).toUInt8 = b ∧ (word32 a b c d >>> 16).toUInt8 = c ∧
    (word32 a b c d >>> 24).toUInt8 = d := by
  refine ⟨?_, ?_, ?_, ?_⟩ <;>
  · apply UInt8.toBitVec_inj.mp
    apply BitVec.eq_of_getLsbD_eq
    intro i hi
    simp only [word32, UInt32.toBitVec_or, UInt32.toBitVec_shiftLeft, UInt8.toBitVec_toUInt32,
      UInt32.toBitVec_toUInt8, UInt32.toBitVec_shiftRight, BitVec.getLsbD_or, BitVec.getLsbD_setWidth,
      UInt32.toBitVec_ofNat, BitVec.shiftLeft_eq', BitVec.ushiftRight_eq']
    simp
    grind

theorem halves_word64 (low high : UInt32) :
    (word64 low high).toUInt32 = low ∧ (word64 low high >>> 32).toUInt32 = high := by
  refine ⟨?_, ?_⟩ <;>
  · apply UInt32.toBitVec_inj.mp
    apply BitVec.eq_of_getLsbD_eq
    intro i hi
    simp only [word64, UInt64.toBitVec_or, UInt64.toBitVec_shiftLeft, UInt32.toBitVec_toUInt64,
      UInt64.toBitVec_toUInt32, UInt64.toBitVec_shiftRight, BitVec.getLsbD_or, BitVec.getLsbD_setWidth,
      UInt64.toBitVec_ofNat, BitVec.shiftLeft_eq', BitVec.ushiftRight_eq']
    simp
    grind

end LittleEndian

section Masks

/-- Storing `a` in the bits of a mask: the mask's bits are then those of `a`, .. -/
theorem masked_and (f a m : UInt32) : (f &&& ~~~m ||| a) &&& m = a &&& m := by
  apply UInt32.toBitVec_inj.mp
  apply BitVec.eq_of_getLsbD_eq
  intro i hi
  simp only [UInt32.toBitVec_and, UInt32.toBitVec_or, UInt32.toBitVec_not, BitVec.getLsbD_and,
    BitVec.getLsbD_or, BitVec.getLsbD_not, hi]
  cases m.toBitVec.getLsbD i <;> simp

/-- .. and all other bits are as before. -/
theorem masked_and_not {a m : UInt32} (h : a &&& ~~~m = 0) (f : UInt32) :
    (f &&& ~~~m ||| a) &&& ~~~m = f &&& ~~~m := by
  apply UInt32.toBitVec_inj.mp
  apply BitVec.eq_of_getLsbD_eq
  intro i hi
  have hbit := congrArg (fun w => w.toBitVec.getLsbD i) h
  simp only [UInt32.toBitVec_and, UInt32.toBitVec_or, UInt32.toBitVec_not, BitVec.getLsbD_and,
    BitVec.getLsbD_or, BitVec.getLsbD_not, hi] at hbit ⊢
  cases hm : m.toBitVec.getLsbD i with
  | true => simp
  | false =>
    rw [hm] at hbit
    simp only [UInt32.toBitVec_ofNat, decide_true, Bool.not_false, Bool.and_true,
      BitVec.getLsbD_zero] at hbit
    simp [hbit]

end Masks

end FfbInterceptor.Library
