import FfbInterceptor.Library.Reader

/-! Readers that accept exactly what a writer puts out. -/
namespace FfbInterceptor.Library

variable {β ε α γ : Type}

/-- The reader accepts exactly the inputs that start with the encoding of what it returns. -/
def Mirrors (r : Reader β ε α) (put : α → List β) : Prop :=
  ∀ input a rest, r.run input = .ok (a, rest) ↔ input = put a ++ rest

def throwIf (c : Prop) [Decidable c] (e : ε) : Reader β ε PUnit := if c then throw e else pure ()

/-- At most `count` items: fewer at the end of the input. -/
def upTo (count : Nat) : Reader β ε (List β) := fun input =>
  .ok (input.take count, input.drop count)

def position (length : Nat) : Reader β ε Nat := fun input => .ok (length - input.length, input)

section Run

variable {input rest : List β}

theorem run_bind_ok_iff {r : Reader β ε α} {f : α → Reader β ε γ} {c : γ} :
    (r >>= f).run input = .ok (c, rest) ↔
      ∃ a next, r.run input = .ok (a, next) ∧ (f a).run next = .ok (c, rest) := by
  rw [StateT.run_bind]
  cases h : r.run input with
  | error e => simp [bind, Except.bind]
  | ok result =>
    obtain ⟨a, next⟩ := result
    simp [bind, Except.bind]

theorem run_pure_ok_iff {a c : α} :
    (pure a : Reader β ε α).run input = .ok (c, rest) ↔ c = a ∧ rest = input := by
  rw [StateT.run_pure]
  simp [pure, Except.pure, eq_comm]

theorem run_throwIf_ok_iff {c : Prop} [Decidable c] {e : ε} {u : PUnit} :
    (throwIf c e : Reader β ε PUnit).run input = .ok (u, rest) ↔ ¬ c ∧ rest = input := by
  by_cases h : c
  · simp [throwIf, h, throw, throwThe, MonadExceptOf.throw]
  · rw [throwIf, if_neg h, run_pure_ok_iff]
    simp [h]

theorem run_position_ok_iff {length place : Nat} :
    (position length : Reader β ε Nat).run input = .ok (place, rest) ↔
      place = length - input.length ∧ rest = input := by
  simp [position, StateT.run, eq_comm]

/-- What was read is long enough exactly if the input starts with it. -/
theorem run_upTo_ok_iff {count : Nat} {items : List β} :
    (upTo count : Reader β ε (List β)).run input = .ok (items, rest) ∧ items.length = count ↔
      input = items ++ rest ∧ items.length = count := by
  constructor
  · rintro ⟨hrun, hlength⟩
    cases hrun
    exact ⟨(List.take_append_drop count input).symm, hlength⟩
  · rintro ⟨rfl, hlength⟩
    refine ⟨?_, hlength⟩
    simp [upTo, StateT.run, ← hlength]

end Run

section LittleEndian

@[irreducible]
def uint16Bytes (value : UInt16) : List UInt8 := [value.toUInt8, (value >>> 8).toUInt8]

@[irreducible]
def uint32Bytes (value : UInt32) : List UInt8 :=
  [value.toUInt8, (value >>> 8).toUInt8, (value >>> 16).toUInt8, (value >>> 24).toUInt8]

def word16Reader (e : ε) : Reader UInt8 ε UInt16
  | b0 :: b1 :: rest => .ok (word16 b0 b1, rest)
  | _ => .error e

def word32Reader (e : ε) : Reader UInt8 ε UInt32
  | b0 :: b1 :: b2 :: b3 :: rest => .ok (word32 b0 b1 b2 b3, rest)
  | _ => .error e

theorem mirrors_word16Reader (e : ε) : Mirrors (word16Reader e) uint16Bytes := by
  intro input value rest
  constructor
  · intro h
    match input, h with
    | b0 :: b1 :: _, h =>
      cases h
      rw [uint16Bytes, (bytes_word16 b0 b1).1, (bytes_word16 b0 b1).2]
      rfl
  · rintro rfl
    simp only [uint16Bytes, List.cons_append, List.nil_append, StateT.run, word16Reader, word16_bytes]

theorem mirrors_word32Reader (e : ε) : Mirrors (word32Reader e) uint32Bytes := by
  intro input value rest
  constructor
  · intro h
    match input, h with
    | b0 :: b1 :: b2 :: b3 :: _, h =>
      cases h
      obtain ⟨h0, h1, h2, h3⟩ := bytes_word32 b0 b1 b2 b3
      rw [uint32Bytes, h0, h1, h2, h3]
      rfl
  · rintro rfl
    simp only [uint32Bytes, List.cons_append, List.nil_append, StateT.run, word32Reader, word32_bytes]

@[simp] theorem length_uint16Bytes (value : UInt16) : (uint16Bytes value).length = 2 := by
  rw [uint16Bytes]
  rfl

@[simp] theorem length_uint32Bytes (value : UInt32) : (uint32Bytes value).length = 4 := by
  rw [uint32Bytes]
  rfl

end LittleEndian

end FfbInterceptor.Library
