import Mathlib.Data.List.Chain
import Mathlib.Data.List.Induction

/-! Episodes in a sequence of events: some events open one, some close one, and some only occur
outside of any. -/
namespace FfbInterceptor.Library
variable {α : Type*}

inductive Role where
  | opens
  | closes
  | outside
  deriving DecidableEq, Repr

/-- Whether an episode is open after an event, if the event may occur at all. -/
def Role.next : Role → Bool → Option Bool
  | .opens, false => some true
  | .closes, true => some false
  | .outside, false => some false
  | _, _ => none

def track (role : α → Role) : Bool → List α → Option Bool
  | inside, [] => some inside
  | inside, event :: events => ((role event).next inside).bind fun inside => track role inside events

variable {role : α → Role} {events later : List α} {start inside : Bool}

@[simp] theorem track_nil : track role start [] = some start := rfl

theorem track_append : track role start (events ++ later) =
    (track role start events).bind fun inside => track role inside later := by
  induction events generalizing start with
  | nil => rfl
  | cons event events ih =>
    rw [List.cons_append, track, track]
    cases (role event).next start with
    | none => rfl
    | some inside => exact ih

theorem track_concat_eq_some {event : α} :
    track role start (events ++ [event]) = some inside ↔
      ∃ before, track role start events = some before ∧ (role event).next before = some inside := by
  have hlast : ∀ before, track role before [event] = (role event).next before := by
    intro before
    rw [track]
    cases (role event).next before <;> rfl
  rw [track_append, Option.bind_eq_some_iff]
  simp only [hlast]

/-- Where every event opens or closes, a sequence can be tracked exactly when the two alternate. -/
theorem isSome_track_iff (h : ∀ event ∈ events, role event ≠ .outside) :
    (track role start events).isSome ↔
      events.IsChain (fun a b => role a ≠ role b) ∧
        ∀ first ∈ events.head?, role first = if start then .closes else .opens := by
  induction events generalizing start with
  | nil => simp
  | cons event events ih =>
    have hborder := h event List.mem_cons_self
    have hrest := fun inside => @ih inside fun e he => h e (List.mem_cons_of_mem _ he)
    rw [track, List.isChain_cons]
    cases hrole : role event with
    | outside => exact absurd hrole hborder
    | opens =>
      cases start with
      | true => simp [Role.next, hrole]
      | false =>
        simp only [Role.next, Option.bind_some, hrest, List.head?_cons, Option.mem_some,
          forall_eq', hrole, if_true, Bool.false_eq_true, if_false, and_true]
        rw [and_comm]
        refine and_congr_left fun _ => forall₂_congr fun first hfirst => ?_
        have hother := h first (List.mem_cons_of_mem _ (List.mem_of_mem_head? hfirst))
        cases hnext : role first with
        | outside => exact absurd hnext hother
        | opens | closes => simp
    | closes =>
      cases start with
      | false => simp [Role.next, hrole]
      | true =>
        simp only [Role.next, Option.bind_some, hrest, List.head?_cons, Option.mem_some,
          forall_eq', hrole, if_true, Bool.false_eq_true, if_false, and_true]
        rw [and_comm]
        refine and_congr_left fun _ => forall₂_congr fun first hfirst => ?_
        have hother := h first (List.mem_cons_of_mem _ (List.mem_of_mem_head? hfirst))
        cases hnext : role first with
        | outside => exact absurd hnext hother
        | opens | closes => simp

/-- The events that open or close an episode. -/
def borders (role : α → Role) (events : List α) : List α :=
  events.filter fun event => role event ≠ .outside

theorem borders_concat_of_outside {event : α} (h : role event = .outside) :
    borders role (events ++ [event]) = borders role events := by
  simp [borders, List.filter_append, h]

theorem borders_concat {event : α} (h : role event ≠ .outside) :
    borders role (events ++ [event]) = borders role events ++ [event] := by
  simp [borders, List.filter_append, h]

/-- Openings and closings take turns, an opening comes first, and the last one decides. -/
structure Paired (role : α → Role) (events : List α) (inside : Bool) : Prop where
  turns : (borders role events).IsChain fun a b => role a ≠ role b
  first : ∀ event ∈ (borders role events).head?, role event = .opens
  last : inside = true ↔ ∃ event ∈ (borders role events).getLast?, role event = .opens
  /-- What only occurs outside does not find an episode open. -/
  outside : ∀ before event after, events = before ++ event :: after → role event = .outside →
    ∀ last ∈ (borders role before).getLast?, role last ≠ .opens

theorem Paired.concat_border {event : α} {before : Bool} (h : Paired role events before)
    (hborder : role event ≠ .outside) (hinside : inside = true ↔ role event = .opens)
    (hfirst : borders role events = [] → role event = .opens)
    (hturn : ∀ last ∈ (borders role events).getLast?, role last ≠ role event) :
    Paired role (events ++ [event]) inside := by
  have hborders : borders role (events ++ [event]) = borders role events ++ [event] :=
    borders_concat hborder
  constructor
  · rw [hborders, List.isChain_append]
    refine ⟨h.turns, List.isChain_singleton _, ?_⟩
    intro a ha b hb
    obtain rfl : event = b := by simpa using hb
    exact hturn a ha
  · rw [hborders]
    intro head hhead
    cases hempty : borders role events with
    | nil =>
      rw [hempty] at hhead
      obtain rfl : event = head := by simpa using hhead
      exact hfirst hempty
    | cons a rest =>
      apply h.first
      rw [hempty] at hhead ⊢
      exact hhead
  · rw [hborders, List.getLast?_concat]
    simpa using hinside
  · intro front other after hsplit hother
    cases List.eq_nil_or_concat after with
    | inl hnil =>
      rw [hnil] at hsplit
      obtain rfl : event = other := (List.cons.inj (List.append_inj' hsplit rfl).2).1
      exact absurd hother hborder
    | inr hconcat =>
      obtain ⟨rest, last, rfl⟩ := hconcat
      rw [List.concat_eq_append, ← List.cons_append, ← List.append_assoc] at hsplit
      exact h.outside front other rest (List.append_inj' hsplit rfl).1 hother

theorem Paired.concat_outside {event : α} (h : Paired role events false)
    (houtside : role event = .outside) : Paired role (events ++ [event]) false := by
  have hborders : borders role (events ++ [event]) = borders role events :=
    borders_concat_of_outside houtside
  refine ⟨hborders ▸ h.turns, hborders ▸ h.first, hborders ▸ h.last, ?_⟩
  intro front other after hsplit hother
  cases List.eq_nil_or_concat after with
  | inl hnil =>
    rw [hnil] at hsplit
    obtain ⟨rfl, -⟩ := List.append_inj' hsplit rfl
    intro last hlast hopens
    have hopen := h.last.mpr ⟨last, hlast, hopens⟩
    cases hopen
  | inr hconcat =>
    obtain ⟨rest, last, rfl⟩ := hconcat
    rw [List.concat_eq_append, ← List.cons_append, ← List.append_assoc] at hsplit
    exact h.outside front other rest (List.append_inj' hsplit rfl).1 hother

theorem borders_nil_of_last {inside : Bool} (h : Paired role events inside) (hclosed : inside = false) :
    ∀ last ∈ (borders role events).getLast?, role last = .closes := by
  intro last hlast
  cases hrole : role last with
  | closes => rfl
  | opens =>
    have hopen := h.last.mpr ⟨last, hlast, hrole⟩
    rw [hclosed] at hopen
    cases hopen
  | outside =>
    have hmem := List.mem_of_getLast? hlast
    simp [borders, hrole] at hmem

/-- A sequence that can be tracked from outside has its openings and closings in pairs. -/
theorem paired_of_track (h : track role false events = some inside) : Paired role events inside := by
  induction events using List.reverseRecOn generalizing inside with
  | nil =>
    obtain rfl : false = inside := by simpa using h
    refine ⟨List.isChain_nil, ?_, ?_, ?_⟩
    · intro event hevent
      cases hevent
    · simp [borders]
    · intro before event after hsplit
      simp at hsplit
  | append_singleton events event ih =>
    obtain ⟨before, hbefore, hnext⟩ := track_concat_eq_some.mp h
    have hpaired := ih hbefore
    cases hrole : role event with
    | opens =>
      cases before with
      | true =>
        rw [hrole] at hnext
        cases hnext
      | false =>
        obtain rfl : true = inside := by simpa [hrole, Role.next] using hnext
        refine hpaired.concat_border (by rw [hrole]; decide) (by simp [hrole]) (fun _ => hrole) ?_
        intro last hlast
        rw [borders_nil_of_last hpaired rfl last hlast, hrole]
        decide
    | closes =>
      cases before with
      | false =>
        rw [hrole] at hnext
        cases hnext
      | true =>
        obtain rfl : false = inside := by simpa [hrole, Role.next] using hnext
        obtain ⟨last, hlast, hopens⟩ := hpaired.last.mp rfl
        refine hpaired.concat_border (by rw [hrole]; decide) (by simp [hrole]) ?_ ?_
        · intro hempty
          rw [hempty] at hlast
          cases hlast
        · intro last' hlast'
          obtain rfl := Option.some.inj (hlast'.symm.trans hlast)
          rw [hopens, hrole]
          decide
    | outside =>
      cases before with
      | true =>
        rw [hrole] at hnext
        cases hnext
      | false =>
        obtain rfl : false = inside := by simpa [hrole, Role.next] using hnext
        exact hpaired.concat_outside hrole

end FfbInterceptor.Library
