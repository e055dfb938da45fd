import Mathlib.Data.List.Basic

/-! Frames cut off the front of a growing input: what is cut does not depend on how the input grew. -/
namespace FfbInterceptor.Library

/-- What the front of the input holds. -/
inductive Front (ε α : Type) where
  | more
  | malformed (error : ε)
  | frame (value : α) (size : Nat)

/-- A rule for the front of the input that later input cannot change once it has spoken. -/
structure Framing (β ε α : Type) where
  front : List β → Front ε α
  frame_size : ∀ {xs a n}, front xs = .frame a n → 0 < n ∧ n ≤ xs.length
  frame_append : ∀ {xs a n} ys, front xs = .frame a n → front (xs ++ ys) = .frame a n
  malformed_append : ∀ {xs e} ys, front xs = .malformed e → front (xs ++ ys) = .malformed e

namespace Framing

variable {β ε α : Type} (F : Framing β ε α)

def parseFuel : Nat → List β → List α × Except ε (List β)
  | 0, xs => ([], .ok xs)
  | fuel + 1, xs =>
    match F.front xs with
    | .more => ([], .ok xs)
    | .malformed e => ([], .error e)
    | .frame a n => (a :: (parseFuel fuel (xs.drop n)).1, (parseFuel fuel (xs.drop n)).2)

/-- The complete frames of an input, and its unfinished rest or the error behind them. -/
def parse (xs : List β) : List α × Except ε (List β) := F.parseFuel (xs.length + 1) xs

variable {F}

theorem parseFuel_eq_parse {fuel : Nat} {xs : List β} (h : xs.length < fuel) :
    F.parseFuel fuel xs = F.parse xs := by
  have hfuel : ∀ (n m : Nat) (ys : List β), ys.length < n → ys.length < m →
      F.parseFuel n ys = F.parseFuel m ys := by
    intro n
    induction n with
    | zero =>
      intro m ys hn
      omega
    | succ n ih =>
      intro m ys hn hm
      cases m with
      | zero => omega
      | succ m =>
        simp only [parseFuel]
        cases hfront : F.front ys with
        | more => rfl
        | malformed e => rfl
        | frame a size =>
          have hsize := F.frame_size hfront
          have hdrop := List.length_drop (i := size) (l := ys)
          simp only [ih m (ys.drop size) (by omega) (by omega)]
  exact hfuel fuel (xs.length + 1) xs h (Nat.lt_succ_self _)

theorem parse_more {xs : List β} (h : F.front xs = .more) : F.parse xs = ([], .ok xs) := by
  simp only [parse, parseFuel, h]

theorem parse_malformed {xs : List β} {e : ε} (h : F.front xs = .malformed e) :
    F.parse xs = ([], .error e) := by
  simp only [parse, parseFuel, h]

theorem parse_frame {xs : List β} {a : α} {n : Nat} (h : F.front xs = .frame a n) :
    F.parse xs = (a :: (F.parse (xs.drop n)).1, (F.parse (xs.drop n)).2) := by
  have hsize := F.frame_size h
  have hdrop := List.length_drop (i := n) (l := xs)
  have hrest : F.parseFuel xs.length (xs.drop n) = F.parse (xs.drop n) :=
    parseFuel_eq_parse (by omega)
  rw [parse, parseFuel, h]
  simp only [hrest]

/-- Induction over the frames at the front of an input. -/
theorem frames_induction {motive : List β → Prop}
    (more : ∀ xs, F.front xs = .more → motive xs)
    (malformed : ∀ xs e, F.front xs = .malformed e → motive xs)
    (frame : ∀ xs a n, F.front xs = .frame a n → motive (xs.drop n) → motive xs)
    (xs : List β) : motive xs := by
  induction hlength : xs.length using Nat.strongRecOn generalizing xs with
  | ind n ih =>
    cases hfront : F.front xs with
    | more => exact more xs hfront
    | malformed e => exact malformed xs e hfront
    | frame a size =>
      have hsize := F.frame_size hfront
      have hdrop := List.length_drop (i := size) (l := xs)
      exact frame xs a size hfront (ih (xs.drop size).length (by omega) (xs.drop size) rfl)

theorem front_rest {xs rest : List β} {as : List α} (h : F.parse xs = (as, .ok rest)) :
    F.front rest = .more := by
  induction xs using F.frames_induction generalizing as with
  | more xs hfront =>
    rw [parse_more hfront] at h
    cases h
    exact hfront
  | malformed xs e hfront =>
    rw [parse_malformed hfront] at h
    cases h
  | frame xs a n hfront ih =>
    rw [parse_frame hfront, Prod.mk.injEq] at h
    exact ih (Prod.ext rfl h.2)

/-- Parsing a longer input is parsing its start, then going on with the rest of it. -/
theorem parse_append_of_ok {xs rest : List β} {as : List α} (ys : List β)
    (h : F.parse xs = (as, .ok rest)) :
    F.parse (xs ++ ys) = (as ++ (F.parse (rest ++ ys)).1, (F.parse (rest ++ ys)).2) := by
  induction xs using F.frames_induction generalizing as with
  | more xs hfront =>
    rw [parse_more hfront] at h
    cases h
    rfl
  | malformed xs e hfront =>
    rw [parse_malformed hfront] at h
    cases h
  | frame xs a n hfront ih =>
    rw [parse_frame hfront, Prod.mk.injEq] at h
    have htail := ih (Prod.ext rfl h.2)
    rw [parse_frame (F.frame_append ys hfront),
      List.drop_append_of_le_length (F.frame_size hfront).2, htail, ← h.1]
    rfl

theorem parse_append_of_error {xs : List β} {e : ε} {as : List α} (ys : List β)
    (h : F.parse xs = (as, .error e)) : F.parse (xs ++ ys) = (as, .error e) := by
  induction xs using F.frames_induction generalizing as with
  | more xs hfront =>
    rw [parse_more hfront] at h
    cases h
  | malformed xs e' hfront =>
    rw [parse_malformed hfront] at h
    rw [parse_malformed (F.malformed_append ys hfront), h]
  | frame xs a n hfront ih =>
    rw [parse_frame hfront, Prod.mk.injEq] at h
    have htail := ih (Prod.ext rfl h.2)
    rw [parse_frame (F.frame_append ys hfront),
      List.drop_append_of_le_length (F.frame_size hfront).2, htail, ← h.1]

section Chunks

theorem parse_flatMap {γ : Type} {encode : γ → List β} {decoded : γ → α} {cs : List γ}
    (h : ∀ c ∈ cs, ∀ more, F.front (encode c ++ more) = .frame (decoded c) (encode c).length)
    (rest : List β) :
    F.parse (cs.flatMap encode ++ rest) = (cs.map decoded ++ (F.parse rest).1, (F.parse rest).2) := by
  induction cs with
  | nil => rfl
  | cons c cs ih =>
    have hfront := h c (List.mem_cons_self ..) (cs.flatMap encode ++ rest)
    rw [List.flatMap_cons, List.append_assoc, parse_frame hfront, List.drop_left,
      ih fun d hd => h d (List.mem_cons_of_mem c hd)]
    rfl

variable (F)

/-- Feeding chunk after chunk to a buffer: a chunk that shows an error returns no frame at all. -/
def feedAll : List β → List (List β) → List α × Except ε (List β)
  | buffer, [] => ([], .ok buffer)
  | buffer, chunk :: chunks =>
    match F.parse (buffer ++ chunk) with
    | (_, .error e) => ([], .error e)
    | (as, .ok rest) => (as ++ (feedAll rest chunks).1, (feedAll rest chunks).2)

/-- The input received before the chunk that shows an error, all of it when none does. -/
def untilFault : List β → List (List β) → List β
  | seen, [] => seen
  | seen, chunk :: chunks =>
    match (F.parse (seen ++ chunk)).2 with
    | .ok _ => untilFault (seen ++ chunk) chunks
    | .error _ => seen

variable {F}

/-- The frames returned are those completed before the error shows. -/
theorem feedAll_frames {seen buffer : List β} {as : List α} (chunks : List (List β))
    (h : F.parse seen = (as, .ok buffer)) :
    as ++ (F.feedAll buffer chunks).1 = (F.parse (F.untilFault seen chunks)).1 := by
  induction chunks generalizing seen buffer as with
  | nil => simp only [feedAll, untilFault, h, List.append_nil]
  | cons chunk chunks ih =>
    have happend := parse_append_of_ok chunk h
    cases hparse : F.parse (buffer ++ chunk) with
    | mk bs result =>
      rw [hparse] at happend
      cases result with
      | error e => simp only [feedAll, untilFault, hparse, happend, h, List.append_nil]
      | ok rest =>
        have hrest := ih happend
        simp only [feedAll, untilFault, hparse, happend, ← hrest, List.append_assoc]

/-- How the feeding ends depends on the whole input only. -/
theorem feedAll_result {seen buffer : List β} {as : List α} (chunks : List (List β))
    (h : F.parse seen = (as, .ok buffer)) :
    (F.feedAll buffer chunks).2 = (F.parse (seen ++ chunks.flatten)).2 := by
  induction chunks generalizing seen buffer as with
  | nil => simp only [feedAll, List.flatten_nil, List.append_nil, h]
  | cons chunk chunks ih =>
    have happend := parse_append_of_ok chunk h
    rw [List.flatten_cons, ← List.append_assoc]
    cases hparse : F.parse (buffer ++ chunk) with
    | mk bs result =>
      rw [hparse] at happend
      cases result with
      | error e => simp only [feedAll, hparse, parse_append_of_error chunks.flatten happend]
      | ok rest => simp only [feedAll, hparse, ih happend]

theorem untilFault_isPrefix (seen : List β) (chunks : List (List β)) :
    F.untilFault seen chunks <+: seen ++ chunks.flatten := by
  induction chunks generalizing seen with
  | nil => simp [untilFault]
  | cons chunk chunks ih =>
    simp only [untilFault]
    cases (F.parse (seen ++ chunk)).2 with
    | error e => exact List.prefix_append seen _
    | ok rest =>
      have h := ih (seen ++ chunk)
      rwa [List.append_assoc] at h

/-- Draining a buffer after each chunk: the frames in front of an error are delivered. -/
def drainAll (F : Framing β ε α) : List β → List (List β) → List α × Except ε (List β)
  | buffer, [] => ([], .ok buffer)
  | buffer, chunk :: chunks =>
    match F.parse (buffer ++ chunk) with
    | (as, .error e) => (as, .error e)
    | (as, .ok rest) => (as ++ (drainAll F rest chunks).1, (drainAll F rest chunks).2)

/-- Draining chunk after chunk is parsing the whole input. -/
theorem drainAll_eq_parse {seen buffer : List β} {as : List α} (chunks : List (List β))
    (h : F.parse seen = (as, .ok buffer)) :
    (as ++ (F.drainAll buffer chunks).1, (F.drainAll buffer chunks).2) =
      F.parse (seen ++ chunks.flatten) := by
  induction chunks generalizing seen buffer as with
  | nil => simp only [drainAll, List.flatten_nil, List.append_nil, h]
  | cons chunk chunks ih =>
    have happend := parse_append_of_ok chunk h
    rw [List.flatten_cons, ← List.append_assoc]
    cases hparse : F.parse (buffer ++ chunk) with
    | mk bs result =>
      rw [hparse] at happend
      cases result with
      | error e => simp only [drainAll, hparse, parse_append_of_error chunks.flatten happend]
      | ok rest =>
        rw [← ih happend]
        simp only [drainAll, hparse, List.append_assoc]

/-- Without an error nothing is held back. -/
theorem untilFault_of_ok {seen rest : List β} {chunks : List (List β)}
    (h : (F.parse (seen ++ chunks.flatten)).2 = .ok rest) :
    F.untilFault seen chunks = seen ++ chunks.flatten := by
  induction chunks generalizing seen with
  | nil => simp [untilFault]
  | cons chunk chunks ih =>
    rw [List.flatten_cons, ← List.append_assoc] at h ⊢
    cases hparse : F.parse (seen ++ chunk) with
    | mk bs result =>
      cases result with
      | error e =>
        rw [parse_append_of_error chunks.flatten hparse] at h
        cases h
      | ok tail => simp only [untilFault, hparse, ih h]

theorem parse_isPrefix {xs ys : List β} (h : xs <+: ys) : (F.parse xs).1 <+: (F.parse ys).1 := by
  obtain ⟨zs, rfl⟩ := h
  cases hparse : F.parse xs with
  | mk as result =>
    cases result with
    | error e =>
      simp only [parse_append_of_error zs hparse, List.prefix_rfl]
    | ok rest =>
      rw [parse_append_of_ok zs hparse]
      exact List.prefix_append as _

end Chunks

section Headed

variable {size : List β → Except ε Nat} {decode : List β → Except ε α} {H : Nat}

/-- Frames with a header of `H` items that tells their size. -/
def headedFront (H : Nat) (size : List β → Except ε Nat) (decode : List β → Except ε α)
    (xs : List β) : Front ε α :=
  if xs.length < H then .more
  else match size (xs.take H) with
    | .error e => .malformed e
    | .ok n =>
      if xs.length < n then .more
      else match decode (xs.take n) with
        | .error e => .malformed e
        | .ok a => .frame a n

theorem headedFront_eq_frame {xs : List β} {a : α} {n : Nat} :
    headedFront H size decode xs = .frame a n ↔
      H ≤ xs.length ∧ size (xs.take H) = .ok n ∧ n ≤ xs.length ∧ decode (xs.take n) = .ok a := by
  rw [headedFront]
  by_cases hshort : xs.length < H
  · rw [if_pos hshort]
    simp only [reduceCtorEq, Nat.not_le.mpr hshort, false_and]
  · rw [if_neg hshort]
    cases hsize : size (xs.take H) with
    | error e => simp only [reduceCtorEq, false_and, and_false]
    | ok m =>
      simp only [Except.ok.injEq]
      by_cases hwait : xs.length < m
      · rw [if_pos hwait]
        simp only [reduceCtorEq, false_iff, not_and]
        intro _ hm hn
        omega
      · rw [if_neg hwait]
        cases hdecode : decode (xs.take m) with
        | error e =>
          simp only [reduceCtorEq, false_iff, not_and]
          rintro _ rfl _
          rw [hdecode]
          simp
        | ok b =>
          simp only [Front.frame.injEq]
          constructor
          · rintro ⟨rfl, rfl⟩
            exact ⟨Nat.not_lt.mp hshort, rfl, Nat.not_lt.mp hwait, hdecode⟩
          · rintro ⟨_, rfl, _, hsame⟩
            rw [hdecode] at hsame
            exact ⟨Except.ok.inj hsame, rfl⟩

theorem headedFront_eq_malformed {xs : List β} {e : ε} :
    headedFront H size decode xs = .malformed e ↔
      H ≤ xs.length ∧ (size (xs.take H) = .error e ∨
        ∃ n, size (xs.take H) = .ok n ∧ n ≤ xs.length ∧ decode (xs.take n) = .error e) := by
  rw [headedFront]
  by_cases hshort : xs.length < H
  · rw [if_pos hshort]
    simp only [reduceCtorEq, Nat.not_le.mpr hshort, false_and]
  · have hlong := Nat.not_lt.mp hshort
    rw [if_neg hshort]
    simp only [hlong, true_and]
    cases hsize : size (xs.take H) with
    | error e' => simp
    | ok m =>
      simp only [Except.ok.injEq, reduceCtorEq, false_or, exists_eq_left']
      by_cases hwait : xs.length < m
      · rw [if_pos hwait]
        simp only [reduceCtorEq, Nat.not_le.mpr hwait, false_and]
      · rw [if_neg hwait]
        cases hdecode : decode (xs.take m) with
        | error e' => simp [Nat.not_lt.mp hwait]
        | ok b => simp

/-- Later input does not change what a header says, nor the frame behind it. -/
def headed (H : Nat) (size : List β → Except ε Nat) (decode : List β → Except ε α) (hH : 0 < H)
    (hsize : ∀ xs n, size xs = .ok n → H ≤ n) : Framing β ε α where
  front := headedFront H size decode
  frame_size := by
    intro xs a n h
    obtain ⟨-, hn, hlength, -⟩ := Iff.mp headedFront_eq_frame h
    have hleast := hsize _ _ hn
    exact ⟨by omega, hlength⟩
  frame_append := by
    intro xs a n ys h
    obtain ⟨hlong, hn, hlength, hdecode⟩ := Iff.mp headedFront_eq_frame h
    rw [headedFront_eq_frame, List.length_append, List.take_append_of_le_length hlong,
      List.take_append_of_le_length hlength]
    exact ⟨by omega, hn, by omega, hdecode⟩
  malformed_append := by
    intro xs e ys h
    obtain ⟨hlong, herror⟩ := Iff.mp headedFront_eq_malformed h
    rw [headedFront_eq_malformed, List.length_append, List.take_append_of_le_length hlong]
    refine ⟨by omega, ?_⟩
    cases herror with
    | inl hheader => exact .inl hheader
    | inr hframe =>
      obtain ⟨n, hn, hlength, hdecode⟩ := hframe
      refine .inr ⟨n, hn, by omega, ?_⟩
      rw [List.take_append_of_le_length hlength]
      exact hdecode

end Headed

end Framing

end FfbInterceptor.Library
