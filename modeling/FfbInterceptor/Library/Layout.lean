import FfbInterceptor.Library.Reader

/-! What a reader takes from which positions of an input, and the inputs it accepts. -/
namespace FfbInterceptor.Library

variable {β ε α γ : Type}

/-- Within the input the reader takes the next `n` items and returns `value`; else it fails with `e`. -/
def Places (r : Reader β ε α) (e : ε) (n : Nat) (value : List β → Nat → α) : Prop :=
  ∀ xs k, k ≤ xs.length →
    r.run (xs.drop k) = if k + n ≤ xs.length then .ok (value xs k, xs.drop (k + n)) else .error e

/-- From position `k` the reader accepts exactly the inputs that are `good` there: it returns `value`
and goes on to `next`. It refuses all others with one of the `errors`. -/
structure Accepts (r : Reader β ε α) (errors : List ε) (good : List β → Nat → Prop)
    (next : List β → Nat → Nat) (value : List β → Nat → α) : Prop where
  within : ∀ xs k, k ≤ xs.length → good xs k → next xs k ≤ xs.length
  accepted : ∀ xs k, k ≤ xs.length → good xs k →
    r.run (xs.drop k) = .ok (value xs k, xs.drop (next xs k))
  refused : ∀ xs k, k ≤ xs.length → ¬ good xs k → ∃ e ∈ errors, r.run (xs.drop k) = .error e

section Places

variable {e : ε}

theorem Places.pure (a : α) : Places (pure a : Reader β ε α) e 0 fun _ _ => a := by
  intro xs k hk
  rw [if_pos (by omega)]
  rfl

theorem Places.bind {r : Reader β ε α} {f : α → Reader β ε γ} {n m : Nat} {v : List β → Nat → α}
    {w : α → List β → Nat → γ} (hr : Places r e n v) (hf : ∀ a, Places (f a) e m (w a)) :
    Places (r >>= f) e (n + m) fun xs k => w (v xs k) xs (k + n) := by
  intro xs k hk
  rw [StateT.run_bind, hr xs k hk]
  by_cases hfirst : k + n ≤ xs.length
  · rw [if_pos hfirst]
    have hsecond := hf (v xs k) xs (k + n) hfirst
    rw [Nat.add_assoc] at hsecond
    exact hsecond
  · rw [if_neg hfirst, if_neg (by omega)]
    rfl

theorem Places.map {r : Reader β ε α} {n : Nat} {v : List β → Nat → α} (f : α → γ)
    (hr : Places r e n v) : Places (f <$> r) e n fun xs k => f (v xs k) := by
  intro xs k hk
  rw [StateT.run_map, hr xs k hk]
  split <;> rfl

theorem places_take (n : Nat) :
    Places (take e n : Reader β ε _) e n fun xs k => (xs.drop k).take n := by
  intro xs k hk
  simp only [take, StateT.run, List.length_drop, List.drop_drop]
  by_cases h : k + n ≤ xs.length
  · rw [if_pos h, if_pos (by omega)]
  · rw [if_neg h, if_neg (by omega)]

/-- A repeated reader takes its items one behind the other. -/
theorem Places.many {r : Reader β ε α} {n : Nat} {v : List β → Nat → α} (hr : Places r e n v)
    (count : Nat) :
    Places (many r count) e (count * n) fun xs k => (List.range count).map fun i => v xs (k + i * n) := by
  induction count with
  | zero =>
    rw [Nat.zero_mul]
    exact Places.pure []
  | succ count ih =>
    have hstep := hr.bind fun a => ih.bind fun as => Places.pure (e := e) (a :: as)
    have hsize : (count + 1) * n = n + (count * n + 0) := by
      rw [Nat.succ_mul]
      omega
    have hitems : (fun (xs : List β) k => (List.range (count + 1)).map fun i => v xs (k + i * n)) =
        fun xs k => v xs k :: (List.range count).map fun i => v xs (k + n + i * n) := by
      funext xs k
      rw [List.range_succ_eq_map, List.map_cons, List.map_map, Nat.zero_mul, Nat.add_zero]
      congr 1
      apply List.map_congr_left
      intro i _
      rw [Function.comp, Nat.succ_mul, Nat.add_assoc, Nat.add_comm n]
    rw [hsize, hitems]
    exact hstep

theorem Places.accepts {r : Reader β ε α} {n : Nat} {v : List β → Nat → α} {errors : List ε}
    (hr : Places r e n v) (he : e ∈ errors) :
    Accepts r errors (fun xs k => k + n ≤ xs.length) (fun _ k => k + n) v where
  within := fun _ _ _ hgood => hgood
  accepted := by
    intro xs k hk hgood
    rw [hr xs k hk, if_pos hgood]
  refused := by
    intro xs k hk hbad
    exact ⟨e, he, by rw [hr xs k hk, if_neg hbad]⟩

end Places

section Accepts

variable {errors : List ε} {good : List β → Nat → Prop} {next : List β → Nat → Nat}
  {value : List β → Nat → α}

theorem Accepts.pure (a : α) :
    Accepts (pure a : Reader β ε α) errors (fun _ _ => True) (fun _ k => k) fun _ _ => a where
  within := fun _ _ hk _ => hk
  accepted := fun _ _ _ _ => rfl
  refused := fun _ _ _ hbad => absurd trivial hbad

theorem Accepts.throw {e : ε} (he : e ∈ errors) (hbad : ∀ xs k, ¬ good xs k) :
    Accepts (throw e : Reader β ε α) errors good next value where
  within := fun xs k _ hgood => absurd hgood (hbad xs k)
  accepted := fun xs k _ hgood => absurd hgood (hbad xs k)
  refused := fun _ _ _ _ => ⟨e, he, rfl⟩

theorem Accepts.bind {r : Reader β ε α} {f : α → Reader β ε γ} {good' : α → List β → Nat → Prop}
    {next' : α → List β → Nat → Nat} {value' : α → List β → Nat → γ}
    (hr : Accepts r errors good next value)
    (hf : ∀ a, Accepts (f a) errors (good' a) (next' a) (value' a)) :
    Accepts (r >>= f) errors
      (fun xs k => good xs k ∧ good' (value xs k) xs (next xs k))
      (fun xs k => next' (value xs k) xs (next xs k))
      (fun xs k => value' (value xs k) xs (next xs k)) where
  within := by
    intro xs k hk hgood
    exact (hf _).within xs _ (hr.within xs k hk hgood.1) hgood.2
  accepted := by
    intro xs k hk hgood
    rw [StateT.run_bind, hr.accepted xs k hk hgood.1]
    exact (hf _).accepted xs _ (hr.within xs k hk hgood.1) hgood.2
  refused := by
    intro xs k hk hbad
    by_cases hgood : good xs k
    · obtain ⟨e, he, hrun⟩ := (hf (value xs k)).refused xs _ (hr.within xs k hk hgood)
        fun hrest => hbad ⟨hgood, hrest⟩
      refine ⟨e, he, ?_⟩
      rw [StateT.run_bind, hr.accepted xs k hk hgood]
      exact hrun
    · obtain ⟨e, he, hrun⟩ := hr.refused xs k hk hgood
      refine ⟨e, he, ?_⟩
      rw [StateT.run_bind, hrun]
      rfl

/-- A check in front of a reader. -/
theorem Accepts.guarded {c : Prop} [Decidable c] {e : ε} {r s : Reader β ε α}
    (hr : Accepts r errors good next value) (he : e ∈ errors) (hs : ∀ xs, s.run xs = .error e) :
    Accepts (if c then s else r) errors (fun xs k => ¬ c ∧ good xs k) next value where
  within := fun xs k hk hgood => hr.within xs k hk hgood.2
  accepted := by
    intro xs k hk hgood
    rw [if_neg hgood.1]
    exact hr.accepted xs k hk hgood.2
  refused := by
    intro xs k hk hbad
    by_cases hc : c
    · exact ⟨e, he, by rw [if_pos hc, hs]⟩
    · rw [if_neg hc]
      exact hr.refused xs k hk fun hgood => hbad ⟨hc, hgood⟩

theorem Accepts.congr {r : Reader β ε α} {good' : List β → Nat → Prop} {next' : List β → Nat → Nat}
    {value' : List β → Nat → α} (hr : Accepts r errors good next value)
    (hgood : ∀ xs k, k ≤ xs.length → (good xs k ↔ good' xs k))
    (hnext : ∀ xs k, k ≤ xs.length → good xs k → next xs k = next' xs k)
    (hvalue : ∀ xs k, k ≤ xs.length → good xs k → value xs k = value' xs k) :
    Accepts r errors good' next' value' where
  within := by
    intro xs k hk h
    have hold := (hgood xs k hk).mpr h
    rw [← hnext xs k hk hold]
    exact hr.within xs k hk hold
  accepted := by
    intro xs k hk h
    have hold := (hgood xs k hk).mpr h
    rw [hr.accepted xs k hk hold, hnext xs k hk hold, hvalue xs k hk hold]
  refused := by
    intro xs k hk h
    exact hr.refused xs k hk fun hold => h ((hgood xs k hk).mp hold)

end Accepts

section LittleEndian

def word16At (xs : List UInt8) (k : Nat) : UInt16 := word16 (xs.getD k 0) (xs.getD (k + 1) 0)

def word32At (xs : List UInt8) (k : Nat) : UInt32 :=
  word32 (xs.getD k 0) (xs.getD (k + 1) 0) (xs.getD (k + 2) 0) (xs.getD (k + 3) 0)

def word64At (xs : List UInt8) (k : Nat) : UInt64 := word64 (word32At xs k) (word32At xs (k + 4))

def int32At (xs : List UInt8) (k : Nat) : Int32 := (word32At xs k).toInt32

def sliceAt (xs : List β) (k n : Nat) : List β := (xs.drop k).take n

theorem drop_eq_cons {xs : List UInt8} {k : Nat} (h : k < xs.length) :
    xs.drop k = xs.getD k 0 :: xs.drop (k + 1) := by
  rw [List.drop_eq_getElem_cons h, List.getD, List.getElem?_eq_getElem h, Option.getD_some]

theorem drop_word16 {xs : List UInt8} {k : Nat} (h : k + 2 ≤ xs.length) :
    xs.drop k = xs.getD k 0 :: xs.getD (k + 1) 0 :: xs.drop (k + 2) := by
  rw [drop_eq_cons (by omega), drop_eq_cons (k := k + 1) (by omega)]

theorem drop_word32 {xs : List UInt8} {k : Nat} (h : k + 4 ≤ xs.length) :
    xs.drop k = xs.getD k 0 :: xs.getD (k + 1) 0 :: xs.getD (k + 2) 0 :: xs.getD (k + 3) 0 ::
      xs.drop (k + 4) := by
  rw [drop_word16 (by omega), drop_word16 (k := k + 2) (by omega)]

end LittleEndian

theorem take_map_range_eq {f g : Nat → γ} {n c d : Nat} (hc : c ≤ n) (hd : d ≤ n)
    (h : ((List.range n).map f).take c = ((List.range n).map g).take d) :
    c = d ∧ ∀ j < c, f j = g j := by
  have hlength := congrArg List.length h
  simp only [List.length_take, List.length_map, List.length_range, Nat.min_eq_left hc,
    Nat.min_eq_left hd] at hlength
  refine ⟨hlength, ?_⟩
  intro j hj
  have hitem := congrArg (fun xs : List γ => xs[j]?) h
  simp only [List.getElem?_take, hj, ← hlength, ↓reduceIte, List.getElem?_map,
    List.getElem?_range (show j < n by omega), Option.map_some, Option.some.injEq] at hitem
  exact hitem

section Agree

def Agree (xs ys : List β) (k n : Nat) : Prop := ∀ i, k ≤ i → i < k + n → xs[i]? = ys[i]?

theorem Agree.append {xs ys : List β} {k n m : Nat} (h : Agree xs ys k n)
    (hrest : Agree xs ys (k + n) m) : Agree xs ys k (n + m) := by
  intro i hk hi
  by_cases hfirst : i < k + n
  · exact h i hk hfirst
  · exact hrest i (by omega) (by omega)

theorem agree_of_sliceAt {xs ys : List β} {k n : Nat} (h : sliceAt xs k n = sliceAt ys k n) :
    Agree xs ys k n := by
  intro i hk hi
  have hitem := congrArg (fun zs : List β => zs[i - k]?) h
  simp only [sliceAt, List.getElem?_take, show i - k < n by omega, ↓reduceIte, List.getElem?_drop,
    show k + (i - k) = i by omega] at hitem
  exact hitem

variable {xs ys : List UInt8} {k : Nat}

theorem agree_of_word16At (hx : k + 2 ≤ xs.length) (hy : k + 2 ≤ ys.length)
    (h : word16At xs k = word16At ys k) : Agree xs ys k 2 := by
  apply agree_of_sliceAt
  have hbytes : ∀ zs : List UInt8, k + 2 ≤ zs.length →
      sliceAt zs k 2 = [(word16At zs k).toUInt8, (word16At zs k >>> 8).toUInt8] := by
    intro zs hz
    rw [sliceAt, drop_word16 hz, word16At, (bytes_word16 _ _).1, (bytes_word16 _ _).2]
    rfl
  rw [hbytes xs hx, hbytes ys hy, h]

theorem agree_of_word32At (hx : k + 4 ≤ xs.length) (hy : k + 4 ≤ ys.length)
    (h : word32At xs k = word32At ys k) : Agree xs ys k 4 := by
  apply agree_of_sliceAt
  have hbytes : ∀ zs : List UInt8, k + 4 ≤ zs.length → sliceAt zs k 4 =
      [(word32At zs k).toUInt8, (word32At zs k >>> 8).toUInt8, (word32At zs k >>> 16).toUInt8,
        (word32At zs k >>> 24).toUInt8] := by
    intro zs hz
    obtain ⟨h0, h1, h2, h3⟩ := bytes_word32 (zs.getD k 0) (zs.getD (k + 1) 0) (zs.getD (k + 2) 0)
      (zs.getD (k + 3) 0)
    rw [sliceAt, drop_word32 hz, word32At, h0, h1, h2, h3]
    rfl
  rw [hbytes xs hx, hbytes ys hy, h]

theorem agree_of_int32At (hx : k + 4 ≤ xs.length) (hy : k + 4 ≤ ys.length)
    (h : int32At xs k = int32At ys k) : Agree xs ys k 4 := by
  have hword := congrArg Int32.toUInt32 h
  simp only [int32At, UInt32.toUInt32_toInt32] at hword
  exact agree_of_word32At hx hy hword

theorem agree_of_word64At (hx : k + 8 ≤ xs.length) (hy : k + 8 ≤ ys.length)
    (h : word64At xs k = word64At ys k) : Agree xs ys k 8 := by
  have hlow := congrArg UInt64.toUInt32 h
  have hhigh := congrArg (fun word : UInt64 => (word >>> 32).toUInt32) h
  simp only [word64At, (halves_word64 _ _).1] at hlow
  simp only [word64At, (halves_word64 _ _).2] at hhigh
  exact (agree_of_word32At (by omega) (by omega) hlow).append
    (agree_of_word32At (by omega) (by omega) hhigh)

end Agree

end FfbInterceptor.Library
