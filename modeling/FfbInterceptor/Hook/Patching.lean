import FfbInterceptor.Hook.Selection

/-! A run patches exactly the selected slots, counts them, and a second run finds none. -/
namespace FfbInterceptor.Hook
open FfbInterceptor.Library Traced

section Passes
variable {memory : Memory} {table : ImportTable} {headers : Headers} {original replacement : Pointer}
  {start slots : Finset Nat} {counted : Nat} {now : Process}

theorem leads_virtualProtect {α : Type} {f : Bool → Walk α} {Q : α → Process → Prop}
    (h : Leads (f (now.protections 0))
      { now with protections := fun n => now.protections (n + 1) } Q) :
    Leads (virtualProtect >>= f) now Q := Leads.bind ⟨h⟩

theorem leads_interlocked {α : Type} {f : Nat → Walk α} {Q : α → Process → Prop} {slot : Nat}
    (hyes : now.memory.number slot 8 = original.toNat → Leads (f (now.memory.number slot 8))
      { now with memory := now.memory.put slot 8 replacement.toNat } Q)
    (hno : now.memory.number slot 8 ≠ original.toNat → Leads (f (now.memory.number slot 8)) now Q) :
    Leads (interlockedCompareExchangePointer slot replacement original >>= f) now Q := by
  apply Leads.bind
  constructor
  unfold interlockedCompareExchangePointer
  dsimp only
  split
  · next h => exact hyes h
  · next h => exact hno h

theorem leads_patchPointer (horiginal : original ≠ 0) (hreplacement : replacement ≠ 0)
    (hne : original ≠ replacement) (hprotect : ∀ n, now.protections n = true) (slot : Nat) :
    Leads (patchPointer slot original replacement) now fun patched now' =>
      (patched = true ↔ now.memory.number slot 8 = original.toNat) ∧
        (∀ n, now'.protections n = true) ∧
        now'.memory = if now.memory.number slot 8 = original.toNat then
          now.memory.put slot 8 replacement.toNat else now.memory := by
  apply Leads.ite
  · intro hnull
    exact (not_or.mpr ⟨horiginal, not_or.mpr ⟨hreplacement, hne⟩⟩ hnull).elim
  · intro _
    apply leads_virtualProtect
    rw [hprotect 0]
    apply leads_interlocked
    · intro hholds
      apply leads_virtualProtect
      refine Leads.pure ⟨decide_eq_true_iff, fun n => hprotect (n + 2), ?_⟩
      rw [if_pos hholds]
    · intro hother
      apply leads_virtualProtect
      refine Leads.pure ⟨decide_eq_true_iff, fun n => hprotect (n + 2), ?_⟩
      rw [if_neg hother]

structure Run (memory : Memory) (table : ImportTable) (headers : Headers)
    (original replacement : Pointer) : Prop where
  separate : Separate memory table headers
  original_ne : original ≠ 0
  replacement_ne : replacement ≠ 0
  different : original ≠ replacement
  size : table.imageSize < 2 ^ 32

/-- The slot of an entry, if it is to be patched. -/
def Picked (memory : Memory) (table : ImportTable) (original : Pointer) (i j slot : Nat) : Prop :=
  Chosen memory table original i j ∧ slot = slotOf memory table i j

/-- The table does not go on to the entry. -/
def Over (memory : Memory) (table : ImportTable) (original replacement : Pointer)
    (start slots : Finset Nat) (i j counted : Nat) (now : Process) : Prop :=
  ¬(Reached memory table i j ∧ ¬Ends memory table i j) ∧
    Progress memory table original replacement start slots counted now

/-- The table goes on behind the entry, and its slot is done. -/
def Done (memory : Memory) (table : ImportTable) (original replacement : Pointer)
    (start slots : Finset Nat) (i j counted : Nat) (now : Process) : Prop :=
  ¬Ends memory table i j ∧
    Adds memory table original replacement start slots (Picked memory table original i j) counted now

/-- Patching a slot that was patched before does nothing, and one that is to be patched counts. -/
theorem leads_patchSlot (h : Progress memory table original replacement start slots counted now)
    (hrun : Run memory table headers original replacement) {i j : Nat}
    (himports : Imports memory table i) (hreached : Reached memory table i j)
    (hlasts : ¬Ends memory table i j) (hwanted : Wanted memory table i j) :
    Leads (patchSlot (slotOf memory table i j) original replacement counted) now
      (PassEnds (Over memory table original replacement start slots i j)
        (Done memory table original replacement start slots i j)) := by
  have hslot : InTable memory table i j := ⟨himports, hreached, fun _ => hlasts⟩
  apply Leads.bind
  apply (leads_patchPointer hrun.original_ne hrun.replacement_ne hrun.different h.protections _).weaken
  rintro patched now' ⟨hvalue, hprotect, hmemory⟩
  by_cases hholds : now.memory.number (slotOf memory table i j) 8 = original.toNat
  · rw [if_pos hholds] at hmemory
    have hnew : slotOf memory table i j ∉ slots := by
      intro hmem
      rw [h.patched.replaced _ hmem] at hholds
      exact hrun.different (BitVec.eq_of_toNat_eq hholds).symm
    have haddress := h.unpatched hrun.separate hslot hnew
    have hchosen : Chosen memory table original i j :=
      ⟨himports, hreached, hlasts, hwanted, haddress.symm.trans hholds⟩
    have hapart : ∀ other ∈ slots, other + 8 ≤ slotOf memory table i j ∨
        slotOf memory table i j + 8 ≤ other := by
      intro other hmem
      obtain ⟨i', j', hother, rfl⟩ := h.selected other hmem
      have hcases := hrun.separate.slot_cases hslot hother.inTable
      exact (hcases.resolve_left fun hsame => hnew (hsame ▸ hmem)).symm
    rw [hvalue.mpr hholds]
    refine Leads.pure ⟨hlasts, insert (slotOf memory table i j) slots, ?_, ?_⟩
    · intro slot
      rw [Finset.mem_insert, or_comm]
      exact or_congr_right ⟨fun heq => ⟨hchosen, heq⟩, And.right⟩
    · refine ⟨?_, ?_, ?_, hprotect⟩
      · rw [hmemory]
        exact h.patched.insert hapart
      · intro slot hmem
        cases Finset.mem_insert.mp hmem with
        | inl heq => exact ⟨i, j, hchosen, heq⟩
        | inr hold => exact h.selected slot hold
      · rw [Finset.card_insert_of_notMem hnew, h.counted, Nat.add_assoc]
  · rw [if_neg hholds] at hmemory
    rw [if_neg (mt hvalue.mp hholds)]
    refine Leads.pure ⟨hlasts, Progress.adds_nothing ?_ ?_⟩
    · exact ⟨hmemory ▸ h.patched, h.selected, h.counted, hprotect⟩
    · rintro slot ⟨hchosen, rfl⟩
      by_contra hnew
      have haddress := h.unpatched hrun.separate hslot hnew
      exact hholds (haddress.trans hchosen.original)

theorem toNat_ne_zero {pointer : Pointer} (h : pointer ≠ 0) : pointer.toNat ≠ 0 :=
  fun hzero => h (BitVec.eq_of_toNat_eq hzero)

/-- Patching makes no slot null. -/
theorem Progress.null_iff (h : Progress memory table original replacement start slots counted now)
    (hrun : Run memory table headers original replacement) {i j : Nat}
    (hslot : InTable memory table i j) :
    now.memory.number (slotOf memory table i j) 8 = 0 ↔ addressOf memory table i j = 0 := by
  by_cases hmem : slotOf memory table i j ∈ slots
  · rw [h.patched.replaced _ hmem]
    obtain ⟨i', j', hchosen, heq⟩ := h.selected _ hmem
    have haddress : addressOf memory table i j = original.toNat := by
      rw [addressOf, heq]
      exact hchosen.original
    rw [haddress]
    exact ⟨fun hzero => (toNat_ne_zero hrun.replacement_ne hzero).elim,
      fun hzero => (toNat_ne_zero hrun.original_ne hzero).elim⟩
  · rw [h.unpatched hrun.separate hslot hmem]

theorem Progress.skip (h : Progress memory table original replacement start slots counted now)
    {i j : Nat} (hlasts : ¬Ends memory table i j) (hnot : ¬Wanted memory table i j) :
    Done memory table original replacement start slots i j counted now :=
  ⟨hlasts, h.adds_nothing fun _ hpicked => (hnot hpicked.1.wanted).elim⟩

theorem lookupOf_lt (memory : Memory) (table : ImportTable) (i : Nat) :
    lookupOf memory table i < 2 ^ 32 := Memory.number_lt memory _ 4

theorem zero_notMem_directInput8Create : 0 ∉ directInput8Create := by decide

theorem leads_isDirectInput8Create {entry : Nat} (hsize : table.imageSize < 2 ^ 32)
    (hsame : imageSnapByOrdinal entry = false → ∀ address,
      NameByte memory table.imageSize (entry + 2) address → now.memory address = memory address) :
    Leads (isDirectInput8Create table.imageSize entry) now fun wanted now' => now' = now ∧
      (wanted = true ↔ if imageSnapByOrdinal entry then imageOrdinal entry = 1
        else Spells memory table.imageSize (entry + 2) directInput8Create) := by
  have hlength : directInput8Create.length = 18 := by decide
  apply Leads.ite
  · intro hordinal
    rw [if_pos hordinal]
    exact Leads.pure ⟨rfl, decide_eq_true_iff⟩
  · intro hname
    rw [if_neg hname]
    apply Leads.ite
    · intro hinvalid
      refine Leads.pure ⟨rfl, fun h => (Bool.false_ne_true h).elim, fun hspelt => ?_⟩
      have hinside := hspelt.inside
      rw [(rangeIsValid_iff (by omega)).mpr (by omega)] at hinvalid
      cases hinvalid
    · intro hvalid
      rw [Bool.not_eq_true', Bool.not_eq_false, rangeIsValid_iff (by omega)] at hvalid
      have hle : entry + 2 ≤ table.imageSize := by omega
      rw [sizeT_of_lt (by omega)]
      apply Leads.ite
      · intro hout
        omega
      · intro _
        exact leads_boundedAsciiEqualCi zero_notMem_directInput8Create (Nat.add_sub_cancel' hle)
          (hsame (Bool.eq_false_iff.mpr hname))

theorem wanted_iff {i : Nat} (hlookup : lookupOf memory table i ≠ 0) (j : Nat) :
    Wanted memory table i j ↔
      if imageSnapByOrdinal (entryOf memory table i j) then imageOrdinal (entryOf memory table i j) = 1
      else Spells memory table.imageSize (entryOf memory table i j + 2) directInput8Create :=
  forall_prop_of_true hlookup

/-- One pass over an entry does what the tables of the start say. -/
theorem leads_patchEntry (h : Progress memory table original replacement start slots counted now)
    (hrun : Run memory table headers original replacement) {i j : Nat}
    (himports : Imports memory table i) (hbefore : ∀ k < j, ¬Ends memory table i k)
    (hslot : slotOf memory table i j + 8 ≤ table.imageSize) :
    Leads (patchEntry table.imageSize (table.address + i * 20) (firstThunkOf memory table i)
        (lookupOf memory table i) original replacement j counted) now
      (PassEnds (Over memory table original replacement start slots i j)
        (Done memory table original replacement start slots i j)) := by
  have hsize := hrun.size
  have hlookupSize := lookupOf_lt memory table i
  have hfirst : now.memory.number (table.address + i * 20 + 16) 4 = firstThunkOf memory table i := by
    apply Memory.number_congr
    intro address hlow hhigh
    exact h.fixed hrun.separate (.descriptor i himports.listed
      (fun k hk => himports.before k (Nat.le_of_lt hk)) (by omega) (by omega))
  rw [patchEntry]
  apply leads_load
  rw [hfirst]
  have hslot' : firstThunkOf memory table i + j * 8 + 8 ≤ table.imageSize := hslot
  apply Leads.ite
  · intro hinvalid
    rw [sizeT_of_lt (by omega), (rangeIsValid_iff (by omega)).mpr hslot'] at hinvalid
    cases hinvalid
  · intro _
    apply Leads.ite
    · intro hnone
      have hreached : Reached memory table i j := ⟨hslot, fun hsome => (hsome hnone).elim, hbefore⟩
      apply leads_load
      have hnull := h.null_iff hrun ⟨himports, hreached, fun hsome => (hsome hnone).elim⟩
      apply Leads.ite
      · intro hzero
        refine Leads.pure ⟨fun hlasts => hlasts.2 ?_, h⟩
        rw [Ends, if_pos hnone]
        exact hnull.mp hzero
      · intro hsome
        apply leads_patchSlot h hrun himports hreached
        · rw [Ends, if_pos hnone]
          exact fun hzero => hsome (hnull.mpr hzero)
        · exact fun hsome => (hsome hnone).elim
    · intro hlookup
      apply Leads.ite
      · intro hinvalid
        refine Leads.pure ⟨fun hlasts => ?_, h⟩
        rw [sizeT_of_lt (by omega),
          (rangeIsValid_iff (by omega)).mpr (hlasts.1.entry hlookup)] at hinvalid
        cases hinvalid
      · intro hvalid
        rw [Bool.not_eq_true', Bool.not_eq_false, sizeT_of_lt (by omega),
          rangeIsValid_iff (by omega)] at hvalid
        have hreached : Reached memory table i j := ⟨hslot, fun _ => hvalid, hbefore⟩
        have hentry : now.memory.number (lookupOf memory table i + j * 8) 8 =
            entryOf memory table i j := by
          apply Memory.number_congr
          intro address hlow hhigh
          exact h.fixed hrun.separate (.lookup i j himports hreached hlookup hlow hhigh)
        apply leads_load
        rw [hentry]
        apply Leads.ite
        · intro hzero
          refine Leads.pure ⟨fun hlasts => hlasts.2 ?_, h⟩
          rw [Ends, if_neg hlookup]
          exact hzero
        · intro hsome
          have hlasts : ¬Ends memory table i j := by
            rw [Ends, if_neg hlookup]
            exact hsome
          have hwanted := wanted_iff hlookup j
          apply Leads.bind
          apply (leads_isDirectInput8Create hsize fun _ address hbyte => h.fixed hrun.separate
            (.importName i j himports hreached hlookup hlasts hbyte)).weaken
          rintro wanted now' ⟨rfl, hsame⟩
          apply Leads.ite
          · intro hyes
            exact leads_patchSlot h hrun himports hreached hlasts (hwanted.mpr (hsame.mp hyes))
          · intro hnot
            exact Leads.pure (h.skip hlasts fun hyes => hnot (hsame.mpr (hwanted.mp hyes)))

theorem Progress.descriptor (h : Progress memory table original replacement start slots counted now)
    (hseparate : Separate memory table headers) {i : Nat} (hlisted : i < table.count)
    (hbefore : ∀ k < i, ¬Terminator memory table k) {offset : Nat} (hoffset : offset + 4 ≤ 20) :
    now.memory.number (table.address + i * 20 + offset) 4 =
      memory.number (table.address + i * 20 + offset) 4 := by
  apply Memory.number_congr
  intro address hlow hhigh
  exact h.fixed hseparate (.descriptor i hlisted hbefore (by omega) (by omega))

theorem leads_walked {i j : Nat}
    (h : Walked memory table original replacement slots (Ends memory table i)
      (Picked memory table original i) j counted now)
    (hrun : Run memory table headers original replacement) (himports : Imports memory table i)
    (hslot : slotOf memory table i j + 8 ≤ table.imageSize) :
    Leads (patchEntry table.imageSize (table.address + i * 20) (firstThunkOf memory table i)
        (lookupOf memory table i) original replacement j counted) now
      (PassEnds (Adds memory table original replacement slots slots fun slot =>
          ∃ k, Picked memory table original i k slot)
        (Walked memory table original replacement slots (Ends memory table i)
          (Picked memory table original i) (j + 1))) := by
  obtain ⟨hbefore, slots', hslots, hprogress⟩ := h
  apply (leads_patchEntry hprogress hrun himports hbefore hslot).weaken
  intro step now' hends
  cases step with
  | done counted' =>
    obtain ⟨hover, hprogress'⟩ := hends
    apply Adds.all (n := j) ⟨slots', hslots, hprogress'⟩
    rintro k slot hk ⟨hchosen, -⟩
    apply hover
    have hreached := hchosen.reached
    refine ⟨⟨hslot, fun hsome => ?_, hbefore⟩, ?_⟩
    · have hentry := hreached.entry hsome
      omega
    · cases Nat.lt_or_eq_of_le hk with
      | inl hlt => exact hreached.before j hlt
      | inr heq => exact heq ▸ hchosen.lasts
  | yield counted' => exact Walked.next hbefore hslots hends.1 hends.2

theorem leads_patchImportDescriptor
    (h : Progress memory table original replacement start slots counted now)
    (hrun : Run memory table headers original replacement) {i : Nat}
    (himports : Imports memory table i) :
    Leads (patchImportDescriptor table.imageSize (table.address + i * 20) original replacement) now
      fun changed now' => Adds memory table original replacement start slots
        (fun slot => ∃ j, Picked memory table original i j slot) (counted + changed) now' := by
  have hbefore : ∀ k < i, ¬Terminator memory table k := fun k hk =>
    himports.before k (Nat.le_of_lt hk)
  have hfirst : now.memory.number (table.address + i * 20 + 16) 4 = firstThunkOf memory table i :=
    h.descriptor hrun.separate himports.listed hbefore (by omega)
  have hlookup : now.memory.number (table.address + i * 20) 4 = lookupOf memory table i :=
    h.descriptor hrun.separate himports.listed hbefore (show 0 + 4 ≤ 20 by omega)
  rw [patchImportDescriptor]
  apply leads_load
  rw [hfirst]
  apply Leads.ite
  · intro hinvalid
    refine Leads.pure (h.adds_nothing ?_)
    rintro slot ⟨k, hchosen, -⟩
    have hslot := hchosen.reached.slot
    rw [slotOf] at hslot
    rw [(rangeIsValid_iff (by omega)).mpr (by omega)] at hinvalid
    cases hinvalid
  · intro hvalid
    apply leads_load
    rw [hlookup]
    apply Leads.weaken _ fun changed now' => Adds.count h
    have hstart : Walked memory table original replacement slots (Ends memory table i)
        (Picked memory table original i) 0 0 now := Walked.initial h
    apply Leads.loop _ _ hstart
    · intro j counted' now' _ hlast hwalked
      exact leads_walked hwalked hrun himports (by rw [slotOf]; omega)
    · intro counted' now' hwalked
      apply hwalked.2.all
      rintro k slot hk ⟨hchosen, -⟩
      have hslot := hchosen.reached.slot
      rw [slotOf] at hslot
      omega

theorem leads_isTerminator (h : Progress memory table original replacement start slots counted now)
    (hseparate : Separate memory table headers) {i : Nat} (hlisted : i < table.count)
    (hbefore : ∀ k < i, ¬Terminator memory table k) :
    Leads (isTerminator (table.address + i * 20) (nameOf memory table i)) now fun last now' =>
      now' = now ∧ (last = true ↔ Terminator memory table i) := by
  apply Leads.ite
  · intro hname
    apply leads_load
    rw [h.descriptor hseparate hlisted hbefore (by omega)]
    refine Leads.pure ⟨rfl, ?_⟩
    rw [beq_iff_eq]
    exact ⟨fun hfirst => ⟨hname, hfirst⟩, And.right⟩
  · intro hname
    exact Leads.pure ⟨rfl, fun hfalse => (Bool.false_ne_true hfalse).elim, fun h => (hname h.1).elim⟩

theorem zero_notMem_dinput8Dll : 0 ∉ dinput8Dll := by decide

def PickedIn (memory : Memory) (table : ImportTable) (original : Pointer) (i slot : Nat) : Prop :=
  ∃ j, Picked memory table original i j slot

theorem leads_patchDescriptor
    (h : Progress memory table original replacement start slots counted now)
    (hrun : Run memory table headers original replacement) {i : Nat} (hlisted : i < table.count)
    (hbefore : ∀ k < i, ¬Terminator memory table k) :
    Leads (patchDescriptor table original replacement i counted) now
      (PassEnds (fun counted' now' => Terminator memory table i ∧
          Progress memory table original replacement start slots counted' now')
        (fun counted' now' => ¬Terminator memory table i ∧
          Adds memory table original replacement start slots (PickedIn memory table original i)
            counted' now')) := by
  have hname : now.memory.number (table.address + i * 20 + 12) 4 = nameOf memory table i :=
    h.descriptor hrun.separate hlisted hbefore (by omega)
  have hlookup : now.memory.number (table.address + i * 20) 4 = lookupOf memory table i :=
    h.descriptor hrun.separate hlisted hbefore (show 0 + 4 ≤ 20 by omega)
  rw [patchDescriptor]
  apply leads_load
  rw [hname]
  apply Leads.bind
  apply (leads_isTerminator h hrun.separate hlisted hbefore).weaken
  rintro last now' ⟨rfl, hlast⟩
  apply Leads.ite
  · intro hends
    exact Leads.pure ⟨hlast.mp hends, h⟩
  · intro hgoes
    have hgoes' : ¬Terminator memory table i := fun hends => hgoes (hlast.mpr hends)
    have hthrough : ∀ k ≤ i, ¬Terminator memory table k := by
      intro k hk
      cases Nat.lt_or_eq_of_le hk with
      | inl hlt => exact hbefore k hlt
      | inr heq => exact heq ▸ hgoes'
    have hskip : (∀ j, ¬Chosen memory table original i j) →
        ¬Terminator memory table i ∧ Adds memory table original replacement start slots
          (PickedIn memory table original i) counted now' := by
      intro hnone
      refine ⟨hgoes', h.adds_nothing ?_⟩
      rintro slot ⟨j, hchosen, -⟩
      exact (hnone j hchosen).elim
    apply Leads.ite
    · intro hinvalid
      refine Leads.pure (hskip fun j hchosen => ?_)
      have hinside := hchosen.imports.name.inside
      rw [(rangeIsValid_iff (by omega)).mpr (by omega)] at hinvalid
      cases hinvalid
    · intro hvalid
      rw [Bool.not_eq_true', Bool.not_eq_false, rangeIsValid_iff (by omega)] at hvalid
      apply Leads.bind
      apply (leads_boundedAsciiEqualCi zero_notMem_dinput8Dll
        (Nat.add_sub_cancel' (Nat.le_of_lt hvalid)) fun address hbyte =>
          h.fixed hrun.separate (.libraryName i hlisted hthrough hbyte)).weaken
      rintro same now' ⟨rfl, hsame⟩
      apply Leads.ite
      · intro hother
        refine Leads.pure (hskip fun j hchosen => ?_)
        rw [hsame.mpr hchosen.imports.name] at hother
        cases hother
      · intro hspelt
        rw [Bool.not_eq_true', Bool.not_eq_false] at hspelt
        have himports : Imports memory table i := ⟨hlisted, hthrough, hsame.mp hspelt⟩
        apply leads_load
        rw [hlookup]
        apply Leads.ite
        · rintro ⟨hsome, hinvalid⟩
          refine Leads.pure (hskip fun j hchosen => ?_)
          have hentry := hchosen.reached.entry hsome
          rw [(rangeIsValid_iff (by omega)).mpr (by omega)] at hinvalid
          cases hinvalid
        · intro _
          apply Leads.bind
          apply (leads_patchImportDescriptor h hrun himports).weaken
          intro changed now' hadds
          exact Leads.pure ⟨hgoes', hadds⟩

/-- The walk over all descriptors patches what is selected, and counts it. -/
theorem leads_descriptors (h : Progress memory table original replacement start slots counted now)
    (hrun : Run memory table headers original replacement) :
    Leads (loop (patchDescriptor table original replacement) table.count 0 0) now fun changed now' =>
      Adds memory table original replacement slots slots (Selected memory table original)
        changed now' := by
  have hstart : Walked memory table original replacement slots (Terminator memory table)
      (PickedIn memory table original) 0 0 now := Walked.initial h
  have hall : ∀ changed now', Adds memory table original replacement slots slots
      (fun slot => ∃ k, PickedIn memory table original k slot) changed now' →
      Adds memory table original replacement slots slots (Selected memory table original)
        changed now' := fun _ _ hadds => hadds
  apply Leads.weaken _ hall
  apply Leads.loop _ _ hstart
  · rintro i counted' now' - hlast ⟨hbefore, slots', hslots, hprogress⟩
    apply (leads_patchDescriptor hprogress hrun (by omega) hbefore).weaken
    intro step now' hends
    cases step with
    | done counted' =>
      refine Adds.all (n := i) ⟨slots', hslots, hends.2⟩ ?_
      rintro k slot hk ⟨j, hchosen, -⟩
      exact hchosen.imports.before i hk hends.1
    | yield counted' => exact Walked.next hbefore hslots hends.1 hends.2
  · intro counted' now' hwalked
    apply hwalked.2.all
    rintro k slot hk ⟨j, hchosen, -⟩
    have hlisted := hchosen.imports.listed
    omega

end Passes

section Runs
variable {memory : Memory} {table : ImportTable} {headers : Headers}
  {module original replacement : Pointer}

theorem readHeaders_state (module original replacement : Pointer) (process : Process) :
    (readHeaders module original replacement process).state = process := by
  have hends : Leads (readHeaders module original replacement) process fun _ now => now = process := by
    apply Leads.ite
    · intro _
      exact Leads.pure rfl
    · intro _
      apply leads_load
      apply leads_load
      apply Leads.ite
      · intro _
        exact Leads.pure rfl
      · intro _
        apply leads_load
        apply leads_load
        apply Leads.ite
        · intro _
          exact Leads.pure rfl
        · intro _
          apply leads_load
          exact Leads.ite (fun _ => Leads.pure rfl) fun _ => Leads.pure rfl
  exact hends.ends

theorem readDirectory_state (headers : Headers) (process : Process) :
    (readDirectory headers process).state = process := by
  have hends : Leads (readDirectory headers) process fun _ now => now = process := by
    apply leads_load
    apply leads_load
    exact Leads.ite (fun _ => Leads.pure rfl) fun _ => Leads.pure rfl
  exact hends.ends

theorem Checked.congr {now : Memory} (h : Checked module original replacement memory headers)
    (hsame : ∀ address, address < 64 ∨
      headers.ntHeaders ≤ address ∧ address < headers.ntHeaders + 264 → now address = memory address) :
    Checked module original replacement now headers := by
  have hnumber : ∀ offset length, offset + length ≤ 64 ∨ headers.ntHeaders ≤ offset ∧
      offset + length ≤ headers.ntHeaders + 264 →
      now.number offset length = memory.number offset length := by
    intro offset length hwhere
    exact Memory.number_congr fun address hlow hhigh => hsame address (by omega)
  exact { h with
    magic := (hnumber 0 2 (by omega)).trans h.magic
    lfanew := by rw [hnumber 60 4 (by omega), h.lfanew]
    signature := (hnumber _ 4 (by omega)).trans h.signature
    optionalMagic := (hnumber _ 2 (by omega)).trans h.optionalMagic
    imageSize := (hnumber _ 4 (by omega)).trans h.imageSize }

def directoryOf (headers : Headers) (memory : Memory) : Option ImportTable :=
  if memory.number (headers.ntHeaders + 144) 4 = 0 ∨ memory.number (headers.ntHeaders + 148) 4 < 20 ∨
      !rangeIsValid headers.imageSize (memory.number (headers.ntHeaders + 144) 4)
        (memory.number (headers.ntHeaders + 148) 4) then none
  else some ⟨headers.imageSize, memory.number (headers.ntHeaders + 144) 4,
    memory.number (headers.ntHeaders + 148) 4 / 20⟩

theorem readDirectory_value (headers : Headers) (process : Process) :
    (readDirectory headers process).value = directoryOf headers process.memory := by
  have hends : Leads (readDirectory headers) process fun found _ =>
      found = directoryOf headers process.memory := by
    apply leads_load
    apply leads_load
    apply Leads.ite
    · intro hinvalid
      exact Leads.pure (if_pos hinvalid).symm
    · intro hvalid
      exact Leads.pure (if_neg hvalid).symm
  exact hends.ends

theorem readDirectory_congr {process now : Process}
    (hsame : ∀ address, headers.ntHeaders ≤ address → address < headers.ntHeaders + 264 →
      now.memory address = process.memory address) :
    (readDirectory headers now).value = (readDirectory headers process).value := by
  have hnumber : ∀ offset, offset + 4 ≤ 264 →
      now.memory.number (headers.ntHeaders + offset) 4 =
        process.memory.number (headers.ntHeaders + offset) 4 := by
    intro offset hoffset
    exact Memory.number_congr fun address hlow hhigh => hsame address (by omega) (by omega)
  rw [readDirectory_value, readDirectory_value, directoryOf, directoryOf, hnumber 144 (by omega),
    hnumber 148 (by omega)]

/-- From an image with some of the slots patched, a run patches the others and counts them. -/
theorem leads_patchDirectInput8Imports {process now : Process} {slots start : Finset Nat} {counted : Nat}
    (h : Progress process.memory table original replacement start slots counted now)
    (hrun : Run process.memory table headers original replacement)
    (hchecked : Checked module original replacement process.memory headers)
    (hdirectory : (readDirectory headers process).value = some table) :
    Leads (patchDirectInput8ImportsUnchecked module original replacement) now fun changed now' =>
      Adds process.memory table original replacement slots slots
        (Selected process.memory table original) changed now' := by
  have hsame : ∀ address, headers.ntHeaders ≤ address → address < headers.ntHeaders + 264 →
      now.memory address = process.memory address := fun address hlow hhigh =>
    h.fixed hrun.separate (.ntHeaders hlow hhigh)
  have hheaders : (readHeaders module original replacement now).value = some headers := by
    apply readHeaders_eq_some_iff.mpr (hchecked.congr _)
    intro address hwhere
    exact hwhere.elim (fun hlow => h.fixed hrun.separate (.dosHeader hlow))
      fun hwithin => hsame address hwithin.1 hwithin.2
  apply Leads.bind
  constructor
  rw [hheaders, readHeaders_state]
  apply Leads.bind
  constructor
  rw [readDirectory_congr hsame, hdirectory, readDirectory_state]
  exact leads_descriptors h hrun

theorem leads_no_directory {process : Process}
    (hheaders : (readHeaders module original replacement process).value = some headers)
    (hdirectory : (readDirectory headers process).value = none) :
    Leads (patchDirectInput8ImportsUnchecked module original replacement) process fun changed now =>
      changed = 0 ∧ now = process := by
  apply Leads.bind
  constructor
  rw [hheaders, readHeaders_state]
  apply Leads.bind
  constructor
  rw [hdirectory, readDirectory_state]
  exact Leads.pure ⟨rfl, rfl⟩

end Runs

def IsPatched (headers : Headers) (original : Pointer) (process : Process) (slot : Nat) : Prop :=
  ∃ table, (readDirectory headers process).value = some table ∧
    Selected process.memory table original slot

/-- Exactly the selected slots become the replacement, their number is returned, and a second run
changes nothing. -/
theorem patching_exact {module original replacement : Pointer} {process : Process} {headers : Headers}
    (hheaders : (readHeaders module original replacement process).value = some headers)
    (hseparate : ∀ table, (readDirectory headers process).value = some table →
      Separate process.memory table headers)
    (hne : original ≠ replacement) (hprotect : ∀ n, process.protections n = true)
    {first second : Ran Process Access Nat}
    (hfirst : patchDirectInput8Imports module original replacement process = first)
    (hsecond : patchDirectInput8Imports module original replacement first.state = second) :
    (∀ slot, IsPatched headers original process slot →
        first.state.memory.number slot 8 = replacement.toNat) ∧
      (∀ address, (∀ slot, IsPatched headers original process slot →
          address < slot ∨ slot + 8 ≤ address) →
        first.state.memory address = process.memory address) ∧
      first.value = Set.ncard {slot | IsPatched headers original process slot} ∧
      second.value = 0 ∧ second.state.memory = first.state.memory := by
  have hchecked := readHeaders_eq_some_iff.mp hheaders
  subst hfirst hsecond
  unfold patchDirectInput8Imports
  cases hdirectory : (readDirectory headers process).value with
  | none =>
    obtain ⟨hzero, hkept⟩ := (leads_no_directory hheaders hdirectory).ends
    have hnone : ∀ slot, ¬IsPatched headers original process slot := by
      rintro slot ⟨table, hsome, -⟩
      rw [hdirectory] at hsome
      cases hsome
    rw [hkept, hzero]
    refine ⟨fun slot hslot => (hnone slot hslot).elim, fun _ _ => rfl, ?_, rfl, congrArg _ hkept⟩
    have hempty : {slot | IsPatched headers original process slot} = ∅ :=
      Set.eq_empty_of_forall_notMem hnone
    rw [hempty, Set.ncard_empty]
  | some table =>
    have hfit := hchecked.fit
    have hsize := (inside_readDirectory hdirectory).1
    have hrun : Run process.memory table headers original replacement :=
      ⟨hseparate table hdirectory, hchecked.original, hchecked.replacement, hne, hsize ▸ hfit.size⟩
    have hstart : Progress process.memory table original replacement ∅ ∅ 0 process :=
      ⟨Patched.nothing _ _, fun _ hmem => (Finset.notMem_empty _ hmem).elim, rfl, hprotect⟩
    obtain ⟨slots, hslots, hprogress⟩ :=
      (leads_patchDirectInput8Imports hstart hrun hchecked hdirectory).ends
    obtain ⟨slots', hslots', hprogress'⟩ :=
      (leads_patchDirectInput8Imports hprogress hrun hchecked hdirectory).ends
    have hmem : ∀ slot, IsPatched headers original process slot ↔ slot ∈ slots := by
      intro slot
      rw [hslots, IsPatched, hdirectory]
      constructor
      · rintro ⟨_, hsame, hselected⟩
        cases hsame
        exact Or.inr hselected
      · intro hcases
        exact ⟨table, rfl, hcases.resolve_left (Finset.notMem_empty slot)⟩
    have hsame : slots' = slots := by
      ext slot
      rw [hslots']
      exact ⟨fun hcases => hcases.elim id fun hselected => (hslots slot).mpr (Or.inr hselected), Or.inl⟩
    subst hsame
    refine ⟨?_, ?_, ?_, ?_, ?_⟩
    · intro slot hpatched
      exact hprogress.patched.replaced slot ((hmem slot).mp hpatched)
    · intro address hout
      exact hprogress.patched.others address fun slot hslot => hout slot ((hmem slot).mpr hslot)
    · have hset : {slot | IsPatched headers original process slot} = (slots' : Set Nat) := Set.ext hmem
      rw [hset, Set.ncard_coe_finset, hprogress.counted, Finset.card_empty, Nat.zero_add]
    · have hcount := hprogress'.counted
      omega
    · exact hprogress'.patched.unique hprogress.patched

section Samples

def withText (memory : Memory) (offset : Nat) (value : List Byte) : Memory := fun address =>
  if offset ≤ address ∧ address < offset + value.length then value.getD (address - offset) 0
  else memory address

def sampleMemory : Memory :=
  let headers := (((((Memory.put (fun _ => 0) 0 2 0x5A4D).put 60 4 0x80).put 0x80 4 0x4550).put
    0x98 2 0x20B).put 0xD0 4 4096)
  let directory := (headers.put 0x110 4 0x200).put 0x114 4 40
  let descriptor := ((directory.put 0x200 4 0x400).put 0x20C 4 0x300).put 0x210 4 0x500
  let tables := (descriptor.put 0x400 8 0x600).put 0x500 8 77
  withText (withText tables 0x300 dinput8Dll) 0x602 directInput8Create

def sampleProcess : Process := ⟨sampleMemory, fun _ => true⟩

def sampleHeaders : Headers := ⟨0x80, 4096⟩

def sampleTable : ImportTable := ⟨4096, 0x200, 2⟩

theorem sample_found : (readHeaders 1 77 99 sampleProcess).value = some sampleHeaders ∧
    (readDirectory sampleHeaders sampleProcess).value = some sampleTable := by
  decide +kernel

/-- The places that the sample's one descriptor names, and the zeros that end its tables and names. -/
theorem sample_places : (firstThunkOf sampleMemory sampleTable 0 = 0x500 ∧
    lookupOf sampleMemory sampleTable 0 = 0x400 ∧ nameOf sampleMemory sampleTable 0 = 0x300 ∧
    entryOf sampleMemory sampleTable 0 0 = 0x600) ∧
    (nameOf sampleMemory sampleTable 1 = 0 ∧ firstThunkOf sampleMemory sampleTable 1 = 0) ∧
    entryOf sampleMemory sampleTable 0 1 = 0 ∧ sampleMemory 0x30B = 0 ∧ sampleMemory 0x614 = 0 := by
  decide +kernel

theorem sample_terminator : Terminator sampleMemory sampleTable 1 := by
  obtain ⟨-, hterminator, -⟩ := sample_places
  exact hterminator

theorem sample_ends : Ends sampleMemory sampleTable 0 1 := by
  obtain ⟨⟨-, hlookup, -, -⟩, -, hlast, -, -⟩ := sample_places
  rw [Ends, hlookup]
  exact hlast

theorem sample_imports {i : Nat} (h : Imports sampleMemory sampleTable i) : i = 0 := by
  have hlisted : i < 2 := h.listed
  by_contra hne
  exact h.before 1 (by omega) sample_terminator

theorem sample_reached {j : Nat} (h : Reached sampleMemory sampleTable 0 j) : j ≤ 1 := by
  by_contra hj
  exact h.before 1 (by omega) sample_ends

theorem sample_name {rva last address : Nat} (hlast : sampleMemory last = 0) (hrva : rva ≤ last)
    (h : NameByte sampleMemory 4096 rva address) : rva ≤ address ∧ address ≤ last := by
  refine ⟨h.from_start, ?_⟩
  by_contra hbehind
  exact h.lasts last hrva (by omega) hlast

theorem sample_separate : Separate sampleMemory sampleTable sampleHeaders := by
  obtain ⟨⟨hfirst, hlookup, hname, hentry⟩, -, -, hlibrary, hfunction⟩ := sample_places
  constructor
  · intro i j hslot address hlow hhigh hfixed
    obtain rfl := sample_imports hslot.imports
    have hj := sample_reached hslot.reached
    rw [slotOf, hfirst] at hlow hhigh
    cases hfixed with
    | dosHeader hinside => omega
    | ntHeaders hfrom hto => exact absurd hto (by rw [sampleHeaders]; dsimp only; omega)
    | descriptor i hlisted _ _ hto =>
      have hlisted' : i < 2 := hlisted
      exact absurd hto (by rw [sampleTable]; dsimp only; omega)
    | libraryName i hlisted hbefore hbyte =>
      have hlisted' : i < 2 := hlisted
      have hi : i = 0 := by
        by_contra hne
        exact hbefore 1 (by omega) sample_terminator
      subst hi
      rw [hname] at hbyte
      have hwhere := sample_name hlibrary (by omega) hbyte
      omega
    | lookup i k himports' hreached' _ hfrom hto =>
      obtain rfl := sample_imports himports'
      have hk := sample_reached hreached'
      rw [hlookup] at hto
      omega
    | importName i k himports' hreached' _ hlasts hbyte =>
      obtain rfl := sample_imports himports'
      have hk : k = 0 := by
        by_contra hne
        have hone : k = 1 := by
          have hle := sample_reached hreached'
          omega
        exact hlasts (hone ▸ sample_ends)
      subst hk
      rw [hentry] at hbyte
      have hwhere := sample_name hfunction (by omega) hbyte
      omega
  · intro i j i' j' hslot hslot' hne
    exact (hne ((sample_imports hslot.imports).trans (sample_imports hslot'.imports).symm)).elim

/-- The one slot of the sample is replaced and counted, and a second run finds nothing to replace. -/
theorem sample_patched_once :
    let first := patchDirectInput8Imports 1 77 99 sampleProcess
    let second := patchDirectInput8Imports 1 77 99 first.state
    first.value = 1 ∧ first.state.memory.number 0x500 8 = 99 ∧
      (∀ address, (∀ slot, IsPatched sampleHeaders 77 sampleProcess slot →
        address < slot ∨ slot + 8 ≤ address) → first.state.memory address = sampleMemory address) ∧
      first.value = Set.ncard {slot | IsPatched sampleHeaders 77 sampleProcess slot} ∧
      second.value = 0 ∧ second.state.memory = first.state.memory := by
  obtain ⟨hheaders, hdirectory⟩ := sample_found
  have hseparate : ∀ table, (readDirectory sampleHeaders sampleProcess).value = some table →
      Separate sampleMemory table sampleHeaders := by
    intro table htable
    obtain rfl := Option.some.inj (hdirectory.symm.trans htable)
    exact sample_separate
  obtain ⟨-, hothers, hcount, hzero, hkept⟩ :=
    patching_exact hheaders hseparate (by decide) (fun _ => rfl) rfl rfl
  have hreplaced : (patchDirectInput8Imports 1 77 99 sampleProcess).value = 1 ∧
      (patchDirectInput8Imports 1 77 99 sampleProcess).state.memory.number 0x500 8 = 99 := by
    decide +kernel
  exact ⟨hreplaced.left, hreplaced.right, hothers, hcount, hzero, hkept⟩

end Samples

end FfbInterceptor.Hook
