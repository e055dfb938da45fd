import Mathlib.Data.Set.Card
import FfbInterceptor.Hook.Bounds

/-! Which slots of an image are to be patched: those of the descriptors of dinput8.dll whose entry is
the wanted one and that still hold the original pointer; and a memory with some of them patched. -/
namespace FfbInterceptor.Hook
open FfbInterceptor.Library Traced

section Tables
variable (memory : Memory) (table : ImportTable)

/-- The text that begins at an offset is the expected one up to case, and its zero is in the image. -/
def Spells (imageSize : Nat) : (rva : Nat) → (expected : List Byte) → Prop
  | rva, [] => rva < imageSize ∧ memory rva = 0
  | rva, c :: expected =>
    rva < imageSize ∧ folded (memory rva) = folded c ∧ Spells imageSize (rva + 1) expected

def lookupOf (i : Nat) : Nat := memory.number (table.address + i * 20) 4

def nameOf (i : Nat) : Nat := memory.number (table.address + i * 20 + 12) 4

def firstThunkOf (i : Nat) : Nat := memory.number (table.address + i * 20 + 16) 4

def Terminator (i : Nat) : Prop := nameOf memory table i = 0 ∧ firstThunkOf memory table i = 0

/-- The descriptor stands before the terminator and is that of dinput8.dll. -/
structure Imports (i : Nat) : Prop where
  listed : i < table.count
  before : ∀ k ≤ i, ¬Terminator memory table k
  name : Spells memory table.imageSize (nameOf memory table i) dinput8Dll

def slotOf (i j : Nat) : Nat := firstThunkOf memory table i + j * 8

def addressOf (i j : Nat) : Nat := memory.number (slotOf memory table i j) 8

def entryOf (i j : Nat) : Nat := memory.number (lookupOf memory table i + j * 8) 8

/-- The table ends before the entry: without a lookup table at a null slot, else at a zero entry. -/
def Ends (i j : Nat) : Prop :=
  if lookupOf memory table i = 0 then addressOf memory table i j = 0 else entryOf memory table i j = 0

/-- The slot, and its lookup entry, are in the image, and the table has not ended before them. -/
structure Reached (i j : Nat) : Prop where
  slot : slotOf memory table i j + 8 ≤ table.imageSize
  entry : lookupOf memory table i ≠ 0 → lookupOf memory table i + j * 8 + 8 ≤ table.imageSize
  before : ∀ k < j, ¬Ends memory table i k

/-- The entry is ordinal 1 or the name DirectInput8Create; without a lookup table every entry is. -/
def Wanted (i j : Nat) : Prop :=
  lookupOf memory table i ≠ 0 →
    if imageSnapByOrdinal (entryOf memory table i j) then imageOrdinal (entryOf memory table i j) = 1
    else Spells memory table.imageSize (entryOf memory table i j + 2) directInput8Create

structure Chosen (original : Pointer) (i j : Nat) : Prop where
  imports : Imports memory table i
  reached : Reached memory table i j
  lasts : ¬Ends memory table i j
  wanted : Wanted memory table i j
  original : addressOf memory table i j = original.toNat

def Selected (original : Pointer) (slot : Nat) : Prop :=
  ∃ i j, Chosen memory table original i j ∧ slot = slotOf memory table i j

/-- A byte of the text that begins at an offset, its zero included. -/
structure NameByte (imageSize rva address : Nat) : Prop where
  from_start : rva ≤ address
  inside : address < imageSize
  lasts : ∀ earlier, rva ≤ earlier → earlier < address → memory earlier ≠ 0

/-- A byte of the headers, the descriptors, the lookup tables or the names. -/
inductive Fixed (headers : Headers) (address : Nat) : Prop
  | dosHeader : address < 64 → Fixed headers address
  | ntHeaders : headers.ntHeaders ≤ address → address < headers.ntHeaders + 264 →
      Fixed headers address
  | descriptor (i : Nat) : i < table.count → (∀ k < i, ¬Terminator memory table k) →
      table.address + i * 20 ≤ address → address < table.address + i * 20 + 20 →
      Fixed headers address
  | libraryName (i : Nat) : i < table.count → (∀ k ≤ i, ¬Terminator memory table k) →
      NameByte memory table.imageSize (nameOf memory table i) address → Fixed headers address
  | lookup (i j : Nat) : Imports memory table i → Reached memory table i j →
      lookupOf memory table i ≠ 0 → lookupOf memory table i + j * 8 ≤ address →
      address < lookupOf memory table i + j * 8 + 8 → Fixed headers address
  | importName (i j : Nat) : Imports memory table i → Reached memory table i j →
      lookupOf memory table i ≠ 0 → ¬Ends memory table i j →
      NameByte memory table.imageSize (entryOf memory table i j + 2) address → Fixed headers address

/-- The slots of an address table: those of the entries of the lookup table, or without one those up
to the null slot. -/
structure InTable (i j : Nat) : Prop where
  imports : Imports memory table i
  reached : Reached memory table i j
  lasts : lookupOf memory table i ≠ 0 → ¬Ends memory table i j

/-- The address tables are disjoint from each other and from the other parts. -/
structure Separate (headers : Headers) : Prop where
  fixed : ∀ i j, InTable memory table i j → ∀ address,
    slotOf memory table i j ≤ address → address < slotOf memory table i j + 8 →
    ¬Fixed memory table headers address
  apart : ∀ i j i' j', InTable memory table i j → InTable memory table i' j' → i ≠ i' →
    slotOf memory table i j + 8 ≤ slotOf memory table i' j' ∨
      slotOf memory table i' j' + 8 ≤ slotOf memory table i j

end Tables

theorem Chosen.inTable {memory : Memory} {table : ImportTable} {original : Pointer} {i j : Nat}
    (h : Chosen memory table original i j) : InTable memory table i j :=
  ⟨h.imports, h.reached, fun _ => h.lasts⟩

section Compare
variable {memory : Memory} {imageSize value available : Nat} {expected : List Byte} {process : Process}

theorem folded_eq_zero_iff (byte : Byte) : folded byte = 0 ↔ byte = 0 := by
  decide +revert

theorem ofNat_number_one (memory : Memory) (rva : Nat) :
    BitVec.ofNat 8 (memory.number rva 1) = memory rva := by
  simp [Memory.number]

theorem leads_load {α : Type} {f : Nat → Walk α} {Q : α → Process → Prop} {rva length : Nat}
    (h : Leads (f (process.memory.number rva length)) process Q) :
    Leads (load rva length >>= f) process Q := Leads.bind ⟨h⟩

theorem Spells.inside {rva : Nat} (h : Spells memory imageSize rva expected) :
    rva + expected.length < imageSize := by
  induction expected generalizing rva with
  | nil => exact h.1
  | cons c expected ih =>
    have hrest := ih h.2.2
    rw [List.length_cons]
    omega

/-- The comparison depends on the text and on nothing behind it. -/
theorem leads_boundedAsciiEqualCi (hexpected : 0 ∉ expected) (hsize : value + available = imageSize)
    (hsame : ∀ address, NameByte memory imageSize value address →
      process.memory address = memory address) :
    Leads (boundedAsciiEqualCi value available expected) process fun same process' =>
      process' = process ∧ (same = true ↔ Spells memory imageSize value expected) := by
  induction available generalizing value expected with
  | zero =>
    refine Leads.pure ⟨rfl, fun h => (Bool.false_ne_true h).elim, fun h => ?_⟩
    have hinside := h.inside
    omega
  | succ available ih =>
    have hfirst : BitVec.ofNat 8 (process.memory.number value 1) = memory value := by
      rw [ofNat_number_one]
      exact hsame value ⟨le_refl _, by omega, fun earlier hlow hhigh => by omega⟩
    rw [boundedAsciiEqualCi]
    apply leads_load
    rw [hfirst]
    apply Leads.ite
    · intro hends
      refine Leads.pure ⟨rfl, ?_⟩
      rw [decide_eq_true_eq]
      cases expected with
      | nil => exact ⟨fun h => ⟨by omega, h⟩, fun h => h.2⟩
      | cons c expected =>
        have hc : c ≠ 0 := fun h => hexpected (h ▸ List.mem_cons_self)
        have hzero : memory value = 0 := hends.resolve_right hc
        refine ⟨fun h => (hc (h.symm.trans hzero)).elim, fun h => ?_⟩
        have hfolded := h.2.1
        rw [(folded_eq_zero_iff _).mpr hzero] at hfolded
        exact (hc ((folded_eq_zero_iff c).mp hfolded.symm)).elim
    · intro hgoes
      cases expected with
      | nil => exact (hgoes (Or.inr rfl)).elim
      | cons c expected =>
        apply Leads.ite
        · intro hne
          exact Leads.pure ⟨rfl, fun h => (Bool.false_ne_true h).elim, fun h => (hne h.2.1).elim⟩
        · intro heq
          have hrest : ∀ address, NameByte memory imageSize (value + 1) address →
              NameByte memory imageSize value address := by
            intro address hbyte
            have hfrom := hbyte.from_start
            refine ⟨by omega, hbyte.inside, fun earlier hlow hhigh => ?_⟩
            by_cases hvalue : earlier = value
            · exact hvalue ▸ fun h => hgoes (Or.inl h)
            · exact hbyte.lasts earlier (by omega) hhigh
          apply (ih (fun h => hexpected (List.mem_cons_of_mem c h)) (by omega)
            fun address hbyte => hsame address (hrest address hbyte)).weaken
          intro same process' h
          exact ⟨h.1, h.2.trans ⟨fun h => ⟨by omega, not_not.mp heq, h⟩, fun h => h.2.2⟩⟩

end Compare

section Progress
variable {memory : Memory} {table : ImportTable} {headers : Headers} {original replacement : Pointer}

structure Patched (memory : Memory) (replacement : Pointer) (slots : Finset Nat) (now : Memory) :
    Prop where
  replaced : ∀ slot ∈ slots, now.number slot 8 = replacement.toNat
  others : ∀ address, (∀ slot ∈ slots, address < slot ∨ slot + 8 ≤ address) →
    now address = memory address

theorem Patched.nothing (memory : Memory) (replacement : Pointer) :
    Patched memory replacement ∅ memory :=
  ⟨fun _ hmem => (Finset.notMem_empty _ hmem).elim, fun _ _ => rfl⟩

theorem Patched.insert {slots : Finset Nat} {now : Memory} {slot : Nat}
    (h : Patched memory replacement slots now)
    (hapart : ∀ other ∈ slots, other + 8 ≤ slot ∨ slot + 8 ≤ other) :
    Patched memory replacement (insert slot slots) (now.put slot 8 replacement.toNat) := by
  constructor
  · intro other hmem
    cases Finset.mem_insert.mp hmem with
    | inl heq =>
      rw [heq]
      exact Memory.number_put now slot replacement.isLt
    | inr hold =>
      rw [Memory.number_put_other now (hapart other hold), h.replaced other hold]
  · intro address hout
    rw [Memory.put_other (hout slot (Finset.mem_insert_self _ _)), h.others address]
    exact fun other hmem => hout other (Finset.mem_insert_of_mem hmem)

theorem Patched.unique {slots : Finset Nat} {now now' : Memory}
    (h : Patched memory replacement slots now) (h' : Patched memory replacement slots now') :
    now = now' := by
  funext address
  by_cases hslot : ∃ slot ∈ slots, slot ≤ address ∧ address < slot + 8
  · obtain ⟨slot, hmem, hlow, hhigh⟩ := hslot
    exact Memory.byte_eq_of_number ((h.replaced slot hmem).trans (h'.replaced slot hmem).symm) hlow hhigh
  · have hout : ∀ slot ∈ slots, address < slot ∨ slot + 8 ≤ address := by
      intro slot hmem
      by_contra hnot
      exact hslot ⟨slot, hmem, by omega, by omega⟩
    rw [h.others address hout, h'.others address hout]

/-- From the slots patched at the start the walk has come to patch those of a set, and has counted
the new ones. -/
structure Progress (memory : Memory) (table : ImportTable) (original replacement : Pointer)
    (start slots : Finset Nat) (counted : Nat) (now : Process) : Prop where
  patched : Patched memory replacement slots now.memory
  selected : ∀ slot ∈ slots, Selected memory table original slot
  counted : slots.card = start.card + counted
  protections : ∀ n, now.protections n = true

variable {start slots : Finset Nat} {counted : Nat} {now : Process}

/-- Next to the slots patched before, those picked are patched. -/
def Adds (memory : Memory) (table : ImportTable) (original replacement : Pointer)
    (start slots : Finset Nat) (picked : Nat → Prop) (counted : Nat) (now : Process) : Prop :=
  ∃ slots', (∀ slot, slot ∈ slots' ↔ slot ∈ slots ∨ picked slot) ∧
    Progress memory table original replacement start slots' counted now

theorem Progress.adds_nothing {picked : Nat → Prop}
    (h : Progress memory table original replacement start slots counted now)
    (hnone : ∀ slot, picked slot → slot ∈ slots) :
    Adds memory table original replacement start slots picked counted now :=
  ⟨slots, fun slot => ⟨Or.inl, fun hcases => hcases.elim id (hnone slot)⟩, h⟩

theorem Adds.count {picked : Nat → Prop} {more : Nat}
    (h : Progress memory table original replacement start slots counted now)
    {now' : Process} (hadds : Adds memory table original replacement slots slots picked more now') :
    Adds memory table original replacement start slots picked (counted + more) now' := by
  obtain ⟨slots', hslots, hprogress⟩ := hadds
  refine ⟨slots', hslots, hprogress.patched, hprogress.selected, ?_, hprogress.protections⟩
  rw [hprogress.counted, h.counted, Nat.add_assoc]

/-- The first passes have not come to the stop, and what they pick is patched. -/
def Walked (memory : Memory) (table : ImportTable) (original replacement : Pointer)
    (start : Finset Nat) (Stop : Nat → Prop) (picked : Nat → Nat → Prop) (n counted : Nat)
    (now : Process) : Prop :=
  (∀ k < n, ¬Stop k) ∧
    Adds memory table original replacement start start (fun slot => ∃ k < n, picked k slot) counted now

variable {Stop : Nat → Prop} {picked : Nat → Nat → Prop} {n : Nat}

theorem Walked.initial (h : Progress memory table original replacement start slots counted now) :
    Walked memory table original replacement slots Stop picked 0 0 now := by
  refine ⟨fun k hk => (Nat.not_lt_zero k hk).elim, Progress.adds_nothing ?_ ?_⟩
  · exact ⟨h.patched, h.selected, rfl, h.protections⟩
  · rintro slot ⟨k, hk, -⟩
    exact (Nat.not_lt_zero k hk).elim

theorem Walked.next (h : ∀ k < n, ¬Stop k) {slots' : Finset Nat}
    (hslots : ∀ slot, slot ∈ slots' ↔ slot ∈ slots ∨ ∃ k < n, picked k slot) (hstop : ¬Stop n)
    (hadds : Adds memory table original replacement slots slots' (picked n) counted now) :
    Walked memory table original replacement slots Stop picked (n + 1) counted now := by
  obtain ⟨slots'', hslots', hprogress⟩ := hadds
  constructor
  · intro k hk
    cases Nat.lt_succ_iff_lt_or_eq.mp hk with
    | inl hlt => exact h k hlt
    | inr heq => exact heq ▸ hstop
  · refine ⟨slots'', fun slot => ?_, hprogress⟩
    rw [hslots', hslots, or_assoc]
    apply or_congr_right
    constructor
    · rintro (⟨k, hk, hpicked⟩ | hpicked)
      · exact ⟨k, by omega, hpicked⟩
      · exact ⟨n, by omega, hpicked⟩
    · rintro ⟨k, hk, hpicked⟩
      cases Nat.lt_succ_iff_lt_or_eq.mp hk with
      | inl hlt => exact Or.inl ⟨k, hlt, hpicked⟩
      | inr heq => exact Or.inr (heq ▸ hpicked)

theorem Adds.all (h : Adds memory table original replacement start slots
      (fun slot => ∃ k < n, picked k slot) counted now)
    (hnone : ∀ k slot, n ≤ k → ¬picked k slot) :
    Adds memory table original replacement start slots (fun slot => ∃ k, picked k slot) counted now := by
  obtain ⟨slots', hslots, hprogress⟩ := h
  refine ⟨slots', fun slot => (hslots slot).trans (or_congr_right ⟨?_, ?_⟩), hprogress⟩
  · rintro ⟨k, -, hpicked⟩
    exact ⟨k, hpicked⟩
  · rintro ⟨k, hpicked⟩
    refine ⟨k, ?_, hpicked⟩
    by_contra hk
    exact hnone k slot (by omega) hpicked

theorem Progress.fixed (h : Progress memory table original replacement start slots counted now)
    (hseparate : Separate memory table headers) {address : Nat}
    (hfixed : Fixed memory table headers address) : now.memory address = memory address := by
  apply h.patched.others
  intro slot hmem
  obtain ⟨i, j, hchosen, rfl⟩ := h.selected slot hmem
  by_contra hnot
  exact hseparate.fixed i j hchosen.inTable address (by omega) (by omega) hfixed

theorem Separate.slot_cases (hseparate : Separate memory table headers) {i j i' j' : Nat}
    (hslot : InTable memory table i j) (hslot' : InTable memory table i' j') :
    slotOf memory table i j = slotOf memory table i' j' ∨
      slotOf memory table i j + 8 ≤ slotOf memory table i' j' ∨
      slotOf memory table i' j' + 8 ≤ slotOf memory table i j := by
  by_cases hsame : i = i'
  · subst hsame
    unfold slotOf
    omega
  · exact Or.inr (hseparate.apart i j i' j' hslot hslot' hsame)

theorem Progress.unpatched (h : Progress memory table original replacement start slots counted now)
    (hseparate : Separate memory table headers) {i j : Nat} (hslot : InTable memory table i j)
    (hnew : slotOf memory table i j ∉ slots) :
    now.memory.number (slotOf memory table i j) 8 = addressOf memory table i j := by
  apply Memory.number_congr
  intro address hlow hhigh
  apply h.patched.others
  intro slot hmem
  obtain ⟨i', j', hchosen, heq⟩ := h.selected slot hmem
  have hne : slotOf memory table i j ≠ slotOf memory table i' j' := fun hsame =>
    hnew (hsame.trans heq.symm ▸ hmem)
  have hapart := (hseparate.slot_cases hslot hchosen.inTable).resolve_left hne
  omega

end Progress

end FfbInterceptor.Hook
