import Mathlib.Data.Nat.Basic
import Mathlib.Tactic.Ring

/-! A memory of bytes, and the little-endian numbers that stand in it. -/
namespace FfbInterceptor.Library

abbrev Byte := BitVec 8

abbrev Memory := Nat → Byte

namespace Memory
variable {memory memory' : Memory} {offset length value address : Nat}

def number (memory : Memory) : (offset length : Nat) → Nat
  | _, 0 => 0
  | offset, length + 1 => (memory offset).toNat + 256 * number memory (offset + 1) length

def put (memory : Memory) (offset length value : Nat) : Memory := fun address =>
  if offset ≤ address ∧ address < offset + length then
    BitVec.ofNat 8 (value / 256 ^ (address - offset))
  else memory address

theorem number_lt (memory : Memory) (offset length : Nat) :
    memory.number offset length < 256 ^ length := by
  induction length generalizing offset with
  | zero => simp [number]
  | succ length ih =>
    have hbyte := (memory offset).isLt
    have hrest := ih (offset + 1)
    simp only [number]
    omega

/-- A number depends on its own bytes only. -/
theorem number_congr (h : ∀ address, offset ≤ address → address < offset + length →
    memory address = memory' address) : memory.number offset length = memory'.number offset length := by
  induction length generalizing offset with
  | zero => rfl
  | succ length ih =>
    have hrest := @ih (offset + 1) fun address hlow hhigh => h address (by omega) (by omega)
    simp only [number, h offset (le_refl _) (by omega), hrest]

theorem byte_eq_of_number (h : memory.number offset length = memory'.number offset length)
    (hlow : offset ≤ address) (hhigh : address < offset + length) :
    memory address = memory' address := by
  induction length generalizing offset with
  | zero => omega
  | succ length ih =>
    simp only [number] at h
    have hbyte := (memory offset).isLt
    have hbyte' := (memory' offset).isLt
    by_cases heq : address = offset
    · subst heq
      apply BitVec.eq_of_toNat_eq
      omega
    · exact @ih (offset + 1) (by omega) (by omega) (by omega)

theorem put_other (h : address < offset ∨ offset + length ≤ address) :
    memory.put offset length value address = memory address := if_neg (by omega)

theorem put_byte (hlow : offset ≤ address) (hhigh : address < offset + length) :
    memory.put offset length value address = BitVec.ofNat 8 (value / 256 ^ (address - offset)) :=
  if_pos ⟨hlow, hhigh⟩

theorem number_of_bytes (h : ∀ k < length, memory (offset + k) = BitVec.ofNat 8 (value / 256 ^ k)) :
    memory.number offset length = value % 256 ^ length := by
  induction length generalizing offset value with
  | zero => simp [number, Nat.mod_one]
  | succ length ih =>
    have hrest : memory.number (offset + 1) length = value / 256 % 256 ^ length := by
      apply ih
      intro k hk
      rw [Nat.div_div_eq_div_mul, ← Nat.pow_succ', Nat.add_assoc, Nat.add_comm 1 k]
      exact h (k + 1) (by omega)
    have hfirst := h 0 (by omega)
    rw [Nat.add_zero, Nat.pow_zero, Nat.div_one] at hfirst
    have hsplit : value % (256 * 256 ^ length) = value % 256 + 256 * (value / 256 % 256 ^ length) :=
      Nat.mod_mul
    have hpower : 256 ^ (length + 1) = 256 * 256 ^ length := Nat.pow_succ'
    rw [number, hrest, hfirst, BitVec.toNat_ofNat, hpower, hsplit]

theorem number_put (memory : Memory) (offset : Nat) (h : value < 256 ^ length) :
    (memory.put offset length value).number offset length = value := by
  rw [number_of_bytes, Nat.mod_eq_of_lt h]
  intro k hk
  rw [put_byte (by omega) (by omega), Nat.add_sub_cancel_left]

theorem number_put_other (memory : Memory) {offset' length' : Nat}
    (h : offset' + length' ≤ offset ∨ offset + length ≤ offset') :
    (memory.put offset length value).number offset' length' = memory.number offset' length' :=
  number_congr fun _ _ _ => put_other (by omega)

-- what a number is follows from the lemmas; unfolding eight bytes of it is slow
attribute [irreducible] number

end Memory

end FfbInterceptor.Library
