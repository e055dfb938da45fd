import Mathlib.Data.List.Basic
import Mathlib.Data.List.Infix

/-! The successive matches of a pattern of fixed length in a list. -/
namespace FfbInterceptor.Library.Scanning

variable {α β : Type} {matcher : List α → Option β} {length skip start place : Nat} {text : List α}
  {found : β}

/-- The matches from left to right, each with its place; behind a match its items are skipped. -/
def allMatches (matcher : List α → Option β) (length : Nat) :
    (skip start : Nat) → List α → List (Nat × β)
  | _, _, [] => []
  | skip + 1, start, _ :: rest => allMatches matcher length skip (start + 1) rest
  | 0, start, x :: rest =>
    match matcher (x :: rest) with
    | some found => (start, found) :: allMatches matcher length (length - 1) (start + 1) rest
    | none => allMatches matcher length 0 (start + 1) rest

def MatchesAt (matcher : List α → Option β) (text : List α) (place : Nat) (found : β) : Prop :=
  matcher (text.drop place) = some found

theorem mem_allMatches (h : (place, found) ∈ allMatches matcher length skip start text) :
    start ≤ place ∧ MatchesAt matcher text (place - start) found := by
  induction text generalizing skip start with
  | nil =>
    cases skip <;> cases h
  | cons x rest ih =>
    have hlater : ∀ {skip}, (place, found) ∈ allMatches matcher length skip (start + 1) rest →
        start ≤ place ∧ MatchesAt matcher (x :: rest) (place - start) found := by
      intro skip hmem
      obtain ⟨hle, hmatch⟩ := ih hmem
      have hplace : place - start = place - (start + 1) + 1 := by omega
      refine ⟨by omega, ?_⟩
      rw [hplace]
      exact hmatch
    cases skip with
    | succ skip =>
      rw [allMatches] at h
      exact hlater h
    | zero =>
      rw [allMatches] at h
      cases hfirst : matcher (x :: rest) with
      | none =>
        rw [hfirst] at h
        exact hlater h
      | some first =>
        rw [hfirst] at h
        cases h with
        | tail _ h => exact hlater h
        | head =>
          refine ⟨le_refl _, ?_⟩
          rw [MatchesAt, Nat.sub_self]
          exact hfirst

def Apart (matcher : List α → Option β) (length : Nat) (text : List α) : Prop :=
  ∀ place other found found', MatchesAt matcher text place found →
    MatchesAt matcher text other found' → place < other → place + length ≤ other

theorem Apart.tail {x : α} (h : Apart matcher length (x :: text)) : Apart matcher length text := by
  intro place other found found' hplace hother hlt
  have hapart := h (place + 1) (other + 1) found found' hplace hother (by omega)
  omega

/-- Two matches of a word do not overlap where its last item is nowhere else in it. -/
theorem apart_of_last {word : List α} {last : α} (hlast : last ∉ word)
    (hword : ∀ text found, matcher text = some found → word ++ [last] <+: text) :
    Apart matcher (word.length + 1) text := by
  intro place other found found' hplace hother hlt
  by_contra hclose
  obtain ⟨rest, hrest⟩ := hword _ _ hplace
  obtain ⟨rest', hrest'⟩ := hword _ _ hother
  have hend : text[place + word.length]? = some last := by
    have hitem := congrArg (fun list => list[word.length]?) hrest
    simpa using hitem.symm
  have hwithin : text[place + word.length]? = word[place + word.length - other]? := by
    have hitem := congrArg (fun list => list[place + word.length - other]?) hrest'
    rw [List.getElem?_drop] at hitem
    rw [show place + word.length = other + (place + word.length - other) by omega, ← hitem,
      List.append_assoc, List.getElem?_append_left (by omega)]
    congr 1
    omega
  rw [hend] at hwithin
  exact hlast (List.mem_of_getElem? hwithin.symm)

/-- No match is missed where they do not overlap. -/
theorem mem_allMatches_of (hempty : matcher [] = none) (hapart : Apart matcher length text)
    (h : MatchesAt matcher text place found) (hskip : skip ≤ place) :
    (start + place, found) ∈ allMatches matcher length skip start text := by
  induction text generalizing skip start place with
  | nil =>
    rw [MatchesAt, List.drop_nil, hempty] at h
    cases h
  | cons x rest ih =>
    cases place with
    | zero =>
      obtain rfl := Nat.le_zero.mp hskip
      have hfirst : matcher (x :: rest) = some found := h
      rw [allMatches, hfirst]
      exact List.mem_cons_self
    | succ place =>
      have hplace : start + (place + 1) = start + 1 + place := by omega
      rw [hplace]
      cases skip with
      | succ skip =>
        rw [allMatches]
        exact ih hapart.tail h (by omega)
      | zero =>
        rw [allMatches]
        cases hfirst : matcher (x :: rest) with
        | none => exact ih hapart.tail h (Nat.zero_le _)
        | some first =>
          have hbehind := hapart 0 (place + 1) first found hfirst h (by omega)
          exact List.mem_cons_of_mem _ (ih hapart.tail h (by omega))

theorem allMatches_pairwise (matcher : List α → Option β) (length skip start : Nat) (text : List α) :
    (allMatches matcher length skip start text).Pairwise fun a b => a.1 < b.1 := by
  induction text generalizing skip start with
  | nil => cases skip <;> exact List.Pairwise.nil
  | cons x rest ih =>
    cases skip with
    | succ skip =>
      rw [allMatches]
      exact ih skip (start + 1)
    | zero =>
      rw [allMatches]
      cases matcher (x :: rest) with
      | none => exact ih 0 (start + 1)
      | some first =>
        refine List.pairwise_cons.mpr ⟨fun later hlater => ?_, ih _ _⟩
        have hle := (mem_allMatches hlater).1
        exact hle

theorem allMatches_eq_singleton_iff (hempty : matcher [] = none) (hapart : Apart matcher length text) :
    allMatches matcher length 0 0 text = [(place, found)] ↔
      MatchesAt matcher text place found ∧
        ∀ other found', MatchesAt matcher text other found' → other = place := by
  have hall : ∀ other found', MatchesAt matcher text other found' →
      (other, found') ∈ allMatches matcher length 0 0 text := by
    intro other found' h
    have hmem : (0 + other, found') ∈ allMatches matcher length 0 0 text :=
      mem_allMatches_of hempty hapart h (Nat.zero_le other)
    rwa [Nat.zero_add] at hmem
  constructor
  · intro h
    have hmem : (place, found) ∈ allMatches matcher length 0 0 text := h ▸ List.mem_singleton_self _
    refine ⟨(mem_allMatches hmem).2, fun other found' hother => ?_⟩
    have hsame := h ▸ hall other found' hother
    exact congrArg Prod.fst (List.mem_singleton.mp hsame)
  · intro h
    obtain ⟨hmatch, honly⟩ := h
    have hmem := hall place found hmatch
    have hplaces : ∀ entry ∈ allMatches matcher length 0 0 text, entry.1 = place :=
      fun entry hentry => honly entry.1 entry.2 (mem_allMatches hentry).2
    have hsorted := allMatches_pairwise matcher length 0 0 text
    generalize allMatches matcher length 0 0 text = entries at hmem hplaces hsorted
    cases entries with
    | nil => cases hmem
    | cons first entries =>
      cases entries with
      | nil => rw [List.mem_singleton.mp hmem]
      | cons second entries =>
        have hless := (List.pairwise_cons.mp hsorted).1 second List.mem_cons_self
        have hfirst := hplaces first List.mem_cons_self
        have hsecond := hplaces second (List.mem_cons_of_mem _ List.mem_cons_self)
        omega

end FfbInterceptor.Library.Scanning
