import Mathlib.Data.List.Basic

/-! Command lines: blanks separate the arguments, quotes hold blanks together, and backslashes count
in front of a quote only. -/
namespace FfbInterceptor.Library
variable {α : Type}

/-- What a second quote means where the first one would end a quoted part: an ordinary quote, or a
character of the argument, and whether the part then goes on. -/
inductive DoubledQuote where
  | ordinary
  | literal (stays : Bool)

structure CommandLine (α : Type) where
  blank : α → Bool
  quote : α
  backslash : α
  quote_ne_backslash : quote ≠ backslash
  blank_quote : blank quote = false
  blank_backslash : blank backslash = false

namespace CommandLine

variable [DecidableEq α] (L : CommandLine α) (doubled : DoubledQuote)

/-- The arguments from here on, within quotes or not, behind a run of backslashes and the part of an
argument that has been read. -/
def splitFrom : Bool → Nat → Option (List α) → List α → List (List α)
  | _, slashes, current, [] =>
    (current.map fun argument => argument ++ List.replicate slashes L.backslash).toList
  | quoted, slashes, current, c :: cs =>
    if c = L.backslash then splitFrom quoted (slashes + 1) (some (current.getD [])) cs
    else if c = L.quote then
      let begun := current.getD [] ++ List.replicate (slashes / 2) L.backslash
      if slashes % 2 = 1 then splitFrom quoted 0 (some (begun ++ [L.quote])) cs
      else match quoted, doubled, cs with
        | true, .literal stays, c' :: cs' =>
          if c' = L.quote then splitFrom stays 0 (some (begun ++ [L.quote])) cs'
          else splitFrom false 0 (some begun) (c' :: cs')
        | quoted, _, cs => splitFrom (!quoted) 0 (some begun) cs
    else if !quoted && L.blank c then
      match current with
      | none => splitFrom false 0 none cs
      | some argument =>
        (argument ++ List.replicate slashes L.backslash) :: splitFrom false 0 none cs
    else splitFrom quoted 0 (some (current.getD [] ++ List.replicate slashes L.backslash ++ [c])) cs

-- The equations of `splitFrom` are derived here, once, and not by all its lemmas at the same time.
section
attribute [local simp] splitFrom
end

/-- The program's name, which knows no escapes, and what follows it. -/
def splitProgram : List α → List α × List α
  | [] => ([], [])
  | c :: cs =>
    if c = L.quote then (cs.takeWhile (· ≠ L.quote), (cs.dropWhile (· ≠ L.quote)).drop 1)
    else ((c :: cs).takeWhile (!L.blank ·), (c :: cs).dropWhile (!L.blank ·))

def split (line : List α) : List (List α) :=
  (L.splitProgram line).1 :: L.splitFrom doubled false 0 none (L.splitProgram line).2

/-- An argument behind a run of backslashes, as it stands within quotes up to the closing one. -/
def escape : Nat → List α → List α
  | slashes, [] => List.replicate (slashes * 2) L.backslash ++ [L.quote]
  | slashes, c :: cs =>
    if c = L.backslash then escape (slashes + 1) cs
    else if c = L.quote then
      List.replicate (slashes * 2 + 1) L.backslash ++ L.quote :: escape 0 cs
    else List.replicate slashes L.backslash ++ c :: escape 0 cs

def Ends (rest : List α) : Prop := ∀ c cs, rest = c :: cs → L.blank c = true

variable {L} {doubled} {quoted : Bool} {slashes : Nat} {argument rest : List α}

omit [DecidableEq α] in
theorem ne_of_blank {c : α} (h : L.blank c = true) : c ≠ L.backslash ∧ c ≠ L.quote := by
  constructor
  · rintro rfl
    rw [L.blank_backslash] at h
    cases h
  · rintro rfl
    rw [L.blank_quote] at h
    cases h

theorem splitFrom_backslash (rest : List α) :
    L.splitFrom doubled quoted slashes (some argument) (L.backslash :: rest) =
      L.splitFrom doubled quoted (slashes + 1) (some argument) rest := by
  rw [splitFrom, if_pos rfl, Option.getD_some]

theorem splitFrom_slashes (count : Nat) (rest : List α) :
    L.splitFrom doubled quoted slashes (some argument) (List.replicate count L.backslash ++ rest) =
      L.splitFrom doubled quoted (slashes + count) (some argument) rest := by
  induction count generalizing slashes with
  | zero => rfl
  | succ count ih =>
    rw [List.replicate_succ, List.cons_append, splitFrom_backslash, ih, Nat.add_assoc,
      Nat.add_comm 1 count]

omit [DecidableEq α] in
theorem replicate_backslash (slashes : Nat) (cs : List α) :
    List.replicate (slashes + 1) L.backslash ++ cs =
      List.replicate slashes L.backslash ++ L.backslash :: cs := by
  rw [List.replicate_succ', List.append_assoc, List.singleton_append]

/-- Behind an odd run of backslashes a quote belongs to the argument. -/
theorem splitFrom_odd (count : Nat) (rest : List α) :
    L.splitFrom doubled quoted (count * 2 + 1) (some argument) (L.quote :: rest) =
      L.splitFrom doubled quoted 0
        (some (argument ++ List.replicate count L.backslash ++ [L.quote])) rest := by
  have hodd : (count * 2 + 1) % 2 = 1 := by omega
  have hhalf : (count * 2 + 1) / 2 = count := by omega
  simp only [splitFrom, L.quote_ne_backslash, ↓reduceIte, hodd, hhalf, Option.getD_some]

/-- Behind an even run a quote in front of a blank closes the quoted part. -/
theorem splitFrom_close (h : L.Ends rest) (count : Nat) :
    L.splitFrom doubled true (count * 2) (some argument) (L.quote :: rest) =
      L.splitFrom doubled false 0 (some (argument ++ List.replicate count L.backslash)) rest := by
  have heven : ¬ (count * 2) % 2 = 1 := by omega
  have hhalf : count * 2 / 2 = count := by omega
  simp only [splitFrom, L.quote_ne_backslash, ↓reduceIte, heven, hhalf, Option.getD_some]
  cases rest with
  | nil => cases doubled <;> rfl
  | cons c cs =>
    cases doubled with
    | ordinary => rfl
    | literal stays => exact if_neg (ne_of_blank (h c cs rfl)).2

/-- A quote at the start of an argument opens a quoted part. -/
theorem splitFrom_open (rest : List α) : L.splitFrom doubled false 0 none (L.quote :: rest) =
    L.splitFrom doubled true 0 (some []) rest := by
  simp [splitFrom, L.quote_ne_backslash]

theorem splitFrom_other {c : α} (hbackslash : c ≠ L.backslash) (hquote : c ≠ L.quote)
    (hblank : quoted = true ∨ L.blank c = false) (rest : List α) :
    L.splitFrom doubled quoted slashes (some argument) (c :: rest) = L.splitFrom doubled quoted 0
      (some (argument ++ List.replicate slashes L.backslash ++ [c])) rest := by
  have hkept : (!quoted && L.blank c) = false := by
    cases hblank with
    | inl h => rw [h, Bool.not_true, Bool.false_and]
    | inr h => rw [h, Bool.and_false]
  rw [splitFrom, if_neg hbackslash, if_neg hquote, hkept, if_neg Bool.false_ne_true, Option.getD_some]

theorem splitFrom_blank (h : L.Ends rest) :
    L.splitFrom doubled false slashes (some argument) rest =
      (argument ++ List.replicate slashes L.backslash) :: L.splitFrom doubled false 0 none rest := by
  cases rest with
  | nil => rfl
  | cons c cs =>
    have hblank := h c cs rfl
    obtain ⟨hbackslash, hquote⟩ := ne_of_blank hblank
    simp only [splitFrom, hbackslash, hquote, hblank, ↓reduceIte, Bool.not_false, Bool.and_self]

theorem splitFrom_begin {c : α} (h : L.blank c = false) (cs : List α) :
    L.splitFrom doubled false 0 none (c :: cs) = L.splitFrom doubled false 0 (some []) (c :: cs) := by
  simp only [splitFrom, h, Bool.and_false, Bool.false_eq_true, ↓reduceIte, Option.getD_none,
    Option.getD_some]

theorem splitFrom_plain {cs : List α} (hplain : ∀ c ∈ cs, L.blank c = false ∧ c ≠ L.quote)
    (h : L.Ends rest) : L.splitFrom doubled false slashes (some argument) (cs ++ rest) =
      (argument ++ List.replicate slashes L.backslash ++ cs) :: L.splitFrom doubled false 0 none rest := by
  induction cs generalizing slashes argument with
  | nil => rw [List.nil_append, splitFrom_blank h, List.append_nil]
  | cons c cs ih =>
    obtain ⟨hblank, hquote⟩ := hplain c List.mem_cons_self
    have hcs : ∀ c ∈ cs, L.blank c = false ∧ c ≠ L.quote :=
      fun c hc => hplain c (List.mem_cons_of_mem _ hc)
    rw [List.cons_append]
    by_cases hbackslash : c = L.backslash
    · subst hbackslash
      rw [splitFrom_backslash, ih hcs, List.append_assoc, replicate_backslash, List.append_assoc]
    · rw [splitFrom_other hbackslash hquote (Or.inr hblank), ih hcs]
      simp

/-- What quoting escapes, reading within quotes restores. -/
theorem splitFrom_escape (h : L.Ends rest) (slashes : Nat) (cs : List α) :
    L.splitFrom doubled true 0 (some argument) (L.escape slashes cs ++ rest) =
      (argument ++ List.replicate slashes L.backslash ++ cs) :: L.splitFrom doubled false 0 none rest := by
  induction cs generalizing slashes argument with
  | nil =>
    rw [escape, List.append_assoc, splitFrom_slashes, Nat.zero_add, List.singleton_append,
      splitFrom_close h, splitFrom_blank h, List.replicate_zero, List.append_nil]
  | cons c cs ih =>
    by_cases hbackslash : c = L.backslash
    · subst hbackslash
      rw [escape, if_pos rfl, ih, List.append_assoc, replicate_backslash, List.append_assoc]
    by_cases hquote : c = L.quote
    · subst hquote
      rw [escape, if_neg hbackslash, if_pos rfl, List.append_assoc, splitFrom_slashes, Nat.zero_add,
        List.cons_append, splitFrom_odd, ih]
      simp
    · rw [escape, if_neg hbackslash, if_neg hquote, List.append_assoc, splitFrom_slashes,
        Nat.zero_add, List.cons_append, splitFrom_other hbackslash hquote (Or.inl rfl), ih]
      simp

/-- Without a quote in it an argument is escaped by doubling the backslashes at its end. -/
theorem escape_of_quoteFree {cs : List α} (hquotes : L.quote ∉ cs) (slashes : Nat) :
    ∃ count, L.escape slashes cs = List.replicate slashes L.backslash ++ cs ++
        List.replicate count L.backslash ++ [L.quote] ∧
      ((List.replicate slashes L.backslash ++ cs).getLast? ≠ some L.backslash → count = 0) := by
  induction cs generalizing slashes with
  | nil =>
    refine ⟨slashes, ?_, ?_⟩
    · rw [escape, Nat.mul_two, List.replicate_add, List.append_nil]
    · intro hlast
      cases slashes with
      | zero => rfl
      | succ slashes =>
        rw [List.append_nil, List.replicate_succ', List.getLast?_concat] at hlast
        exact absurd rfl hlast
  | cons c cs ih =>
    obtain ⟨hquote, hrest⟩ := not_or.mp (fun h => hquotes (List.mem_cons.mpr h))
    by_cases hbackslash : c = L.backslash
    · subst hbackslash
      obtain ⟨count, hescape, hcount⟩ := ih hrest (slashes + 1)
      refine ⟨count, ?_, ?_⟩
      · rw [escape, if_pos rfl, hescape, replicate_backslash]
      · rw [← replicate_backslash]
        exact hcount
    · obtain ⟨count, hescape, hcount⟩ := ih hrest 0
      refine ⟨count, ?_, ?_⟩
      · rw [escape, if_neg hbackslash, if_neg (Ne.symm hquote), hescape]
        simp
      · intro hlast
        refine hcount ?_
        intro hend
        rw [List.replicate_zero, List.nil_append] at hend
        refine hlast ?_
        rw [List.getLast?_append, List.getLast?_cons, hend]
        rfl

theorem splitProgram_plain {cs : List α} (hplain : ∀ c ∈ cs, L.blank c = false ∧ c ≠ L.quote)
    (h : L.Ends rest) : L.splitProgram (cs ++ rest) = (cs, rest) := by
  have htake : (cs ++ rest).takeWhile (!L.blank ·) = cs ∧ (cs ++ rest).dropWhile (!L.blank ·) = rest := by
    have hcs : ∀ c ∈ cs, (!L.blank c) = true := fun c hc => by rw [(hplain c hc).1, Bool.not_false]
    rw [List.takeWhile_append_of_pos hcs, List.dropWhile_append_of_pos hcs]
    cases rest with
    | nil => exact ⟨List.append_nil cs, rfl⟩
    | cons c rest => simp [h c rest rfl]
  cases hline : cs ++ rest with
  | nil =>
    obtain ⟨rfl, rfl⟩ := List.append_eq_nil_iff.mp hline
    rfl
  | cons c line =>
    have hquote : c ≠ L.quote := by
      cases cs with
      | nil => exact (ne_of_blank (h c line hline)).2
      | cons first cs =>
        rw [← (List.cons.inj hline).1]
        exact (hplain first List.mem_cons_self).2
    rw [hline] at htake
    rw [splitProgram, if_neg hquote, htake.1, htake.2]

theorem splitProgram_quoted {cs : List α} (hquotes : L.quote ∉ cs) (rest : List α) :
    L.splitProgram (L.quote :: (cs ++ L.quote :: rest)) = (cs, rest) := by
  have hcs : ∀ c ∈ cs, decide (c ≠ L.quote) = true := by
    intro c hc
    rw [decide_eq_true_eq]
    rintro rfl
    exact hquotes hc
  rw [splitProgram, if_pos rfl, List.takeWhile_append_of_pos hcs, List.dropWhile_append_of_pos hcs]
  simp

theorem mem_splitProgram {line : List α} {c : α} (h : c ∈ (L.splitProgram line).2) : c ∈ line := by
  cases line with
  | nil => exact h
  | cons first line =>
    rw [splitProgram] at h
    split at h
    · exact List.mem_cons_of_mem _ ((List.dropWhile_sublist _).mem (List.mem_of_mem_drop h))
    · exact (List.dropWhile_sublist _).mem h

theorem forall_escape {p : α → Prop} (hquote : p L.quote) (hbackslash : p L.backslash) {cs : List α}
    (hcs : ∀ c ∈ cs, p c) (slashes : Nat) : ∀ c ∈ L.escape slashes cs, p c := by
  have hslashes : ∀ count, ∀ c ∈ List.replicate count L.backslash, p c :=
    fun count c hc => List.eq_of_mem_replicate hc ▸ hbackslash
  induction cs generalizing slashes with
  | nil =>
    intro c hc
    rw [escape, List.mem_append, List.mem_singleton] at hc
    exact hc.elim (hslashes _ c) fun hc => hc ▸ hquote
  | cons first cs ih =>
    have hrest := ih fun c hc => hcs c (List.mem_cons_of_mem _ hc)
    rw [escape]
    split
    · exact hrest (slashes + 1)
    · split
      · intro c hc
        rw [List.mem_append, List.mem_cons] at hc
        exact hc.elim (hslashes _ c) (Or.rec (fun hc => hc ▸ hquote) (hrest 0 c))
      · intro c hc
        rw [List.mem_append, List.mem_cons] at hc
        exact hc.elim (hslashes _ c)
          (Or.rec (fun hc => hc ▸ hcs first List.mem_cons_self) (hrest 0 c))

theorem forall_splitFrom {p : α → Prop} (hquote : p L.quote) (hbackslash : p L.backslash)
    {line : List α} (hline : ∀ c ∈ line, p c) {current : Option (List α)}
    (hcurrent : ∀ c ∈ current.getD [], p c) :
    ∀ argument ∈ L.splitFrom doubled quoted slashes current line, ∀ c ∈ argument, p c := by
  have hslashes : ∀ count, ∀ c ∈ List.replicate count L.backslash, p c :=
    fun count c hc => List.eq_of_mem_replicate hc ▸ hbackslash
  have happend : ∀ {xs ys : List α}, (∀ c ∈ xs, p c) → (∀ c ∈ ys, p c) → ∀ c ∈ xs ++ ys, p c :=
    fun hxs hys c hc => (List.mem_append.mp hc).elim (hxs c) (hys c)
  have htail : ∀ {c : α} {cs : List α}, (∀ d ∈ c :: cs, p d) → ∀ d ∈ cs, p d :=
    fun h d hd => h d (List.mem_cons_of_mem _ hd)
  fun_induction splitFrom L doubled quoted slashes current line
  case case1 quoted slashes current =>
    intro argument hargument
    cases current with
    | none => cases hargument
    | some read =>
      rw [List.mem_singleton.mp hargument]
      exact happend hcurrent (hslashes slashes)
  case case2 ih => exact ih (htail hline) hcurrent
  case case3 begun _ _ ih =>
    exact ih (htail hline) (happend (happend hcurrent (hslashes _)) (by simpa using hquote))
  case case4 begun _ stays rest _ _ ih =>
    exact ih (htail (htail hline)) (happend (happend hcurrent (hslashes _)) (by simpa using hquote))
  case case5 ih => exact ih (htail hline) (happend hcurrent (hslashes _))
  case case6 ih => exact ih (htail hline) (happend hcurrent (hslashes _))
  case case7 ih => exact ih (htail hline) (fun c hc => absurd hc List.not_mem_nil)
  case case8 slashes c rest _ _ _ read ih =>
    intro argument hargument
    cases List.mem_cons.mp hargument with
    | inl hread =>
      rw [hread]
      exact happend hcurrent (hslashes slashes)
    | inr hlater => exact ih (htail hline) (fun c hc => absurd hc List.not_mem_nil) argument hlater
  case case9 c rest _ _ _ ih =>
    refine ih (htail hline) (happend (happend hcurrent (hslashes _)) ?_)
    intro other hother
    rw [List.mem_singleton.mp hother]
    exact hline c List.mem_cons_self

end CommandLine

end FfbInterceptor.Library
