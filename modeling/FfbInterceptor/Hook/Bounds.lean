import FfbInterceptor.Hook.ImportTable

/-! After the check of the size no access leaves the image, whatever the image holds and whatever the
writes change in it, and the number of accesses is bounded by the size. -/
namespace FfbInterceptor.Hook
open FfbInterceptor.Library Traced

variable {imageSize offset length value available descriptor addresses lookupRva index : Nat}
  {patched slot : Nat} {original replacement : Pointer}

def Inside (imageSize : Nat) (access : Access) : Prop := access.offset + access.length ≤ imageSize

theorem rangeIsValid_iff {rva : Nat} (hlength : 0 < length) :
    rangeIsValid imageSize rva length = true ↔ rva + length ≤ imageSize := by
  simp only [rangeIsValid, Bool.and_eq_true, decide_eq_true_eq]
  omega

theorem sizeT_of_lt {n : Nat} (h : n < 2 ^ 64) : sizeT n = n := Nat.mod_eq_of_lt h

theorem load_value (offset length : Nat) (process : Process) :
    (load offset length process).value = process.memory.number offset length := rfl

theorem load_state (offset length : Nat) (process : Process) :
    (load offset length process).state = process := rfl

theorem load_lt (offset : Nat) (process : Process) : (load offset 4 process).value < 2 ^ 32 :=
  Memory.number_lt process.memory offset 4

theorem notes_load (h : offset + length ≤ imageSize) :
    Notes (Inside imageSize) 1 (load offset length) := by
  intro process
  refine ⟨?_, le_refl 1⟩
  intro access hmem
  cases List.mem_singleton.mp hmem
  exact h

theorem notes_boundedAsciiEqualCi (expected : List Byte) (h : value + available ≤ imageSize) :
    Notes (Inside imageSize) (expected.length + 1) (boundedAsciiEqualCi value available expected) := by
  induction available generalizing value expected with
  | zero => exact Notes.returns false
  | succ available ih =>
    rw [boundedAsciiEqualCi]
    apply (notes_load (by omega)).bind (by omega)
    intro process
    apply Notes.ite
    · intro _
      exact Notes.returns _
    · intro hends
      apply Notes.ite
      · intro _
        exact Notes.returns _
      · intro _
        cases expected with
        | nil => exact (hends (Or.inr rfl)).elim
        | cons right expected => exact ih expected (by omega)

theorem notes_virtualProtect : Notes (Inside imageSize) 0 virtualProtect := by
  intro process
  exact ⟨fun access hmem => (List.not_mem_nil hmem).elim, le_refl 0⟩

theorem notes_interlockedCompareExchangePointer (h : slot + 8 ≤ imageSize) :
    Notes (Inside imageSize) 1 (interlockedCompareExchangePointer slot replacement original) := by
  intro process
  refine ⟨?_, le_refl 1⟩
  intro access hmem
  cases List.mem_singleton.mp hmem
  exact h

theorem notes_patchPointer (h : slot + 8 ≤ imageSize) :
    Notes (Inside imageSize) 1 (patchPointer slot original replacement) := by
  apply Notes.ite
  · intro _
    exact Notes.returns _
  · intro _
    apply notes_virtualProtect.bind (by omega)
    intro process
    apply Notes.ite
    · intro _
      exact Notes.returns _
    · intro _
      apply (notes_interlockedCompareExchangePointer h).bind (by omega)
      intro process
      exact notes_virtualProtect.bind (by omega) fun _ => Notes.returns _

theorem notes_patchSlot (h : slot + 8 ≤ imageSize) (patched : Nat) :
    Notes (Inside imageSize) 1 (patchSlot slot original replacement patched) := by
  rw [patchSlot]
  apply (notes_patchPointer h).bind (by omega)
  intro process
  exact Notes.ite (fun _ => Notes.returns _) (fun _ => Notes.returns _)

theorem notes_isDirectInput8Create (hsize : imageSize < 2 ^ 32) (lookup : Nat) :
    Notes (Inside imageSize) 19 (isDirectInput8Create imageSize lookup) := by
  apply Notes.ite
  · intro _
    exact Notes.returns _
  · intro _
    apply Notes.ite
    · intro _
      exact Notes.returns _
    · intro hname
      rw [Bool.not_eq_true', Bool.not_eq_false, rangeIsValid_iff (by omega)] at hname
      rw [sizeT_of_lt (by omega)]
      apply Notes.ite
      · intro _
        exact Notes.returns _
      · intro hinside
        exact notes_boundedAsciiEqualCi directInput8Create (by omega)

/-- Where the addresses were taken to begin, the slot of the pass is inside, even if the field of the
descriptor has been changed since. -/
theorem notes_patchEntry (hsize : imageSize < 2 ^ 32) (hdescriptor : descriptor + 20 ≤ imageSize)
    (hlookup : lookupRva < 2 ^ 32) (hslot : addresses + index * 8 + 8 ≤ imageSize) (patched : Nat) :
    Notes (Inside imageSize) 22
      (patchEntry imageSize descriptor addresses lookupRva original replacement index patched) := by
  have hpatch : ∀ n, 1 ≤ n → Notes (Inside imageSize) n
      (patchSlot (addresses + index * 8) original replacement patched) :=
    fun n hn => (notes_patchSlot hslot patched).weaken hn
  rw [patchEntry]
  apply (notes_load (by omega)).bind (by omega)
  intro process
  apply Notes.ite
  · intro _
    exact Notes.returns _
  · intro _
    apply Notes.ite
    · intro _
      apply (notes_load hslot).bind (by omega)
      intro process
      exact Notes.ite (fun _ => Notes.returns _) fun _ => hpatch _ (by omega)
    · intro _
      apply Notes.ite
      · intro _
        exact Notes.returns _
      · intro hvalid
        rw [Bool.not_eq_true', Bool.not_eq_false, sizeT_of_lt (by omega),
          rangeIsValid_iff (by omega)] at hvalid
        apply (notes_load hvalid).bind (by omega)
        intro process
        apply Notes.ite
        · intro _
          exact Notes.returns _
        · intro _
          apply (notes_isDirectInput8Create hsize _).bind (by omega)
          intro process
          exact Notes.ite (fun _ => hpatch _ (by omega)) fun _ => Notes.returns _

theorem notes_entries (hsize : imageSize < 2 ^ 32) (hdescriptor : descriptor + 20 ≤ imageSize)
    (hlookup : lookupRva < 2 ^ 32) (haddresses : addresses ≤ imageSize) :
    Notes (Inside imageSize) (imageSize / 8 * 22)
      (loop (patchEntry imageSize descriptor addresses lookupRva original replacement)
        ((imageSize - addresses) / 8) 0 0) := by
  have hentries : (imageSize - addresses) / 8 * 22 ≤ imageSize / 8 * 22 :=
    Nat.mul_le_mul_right 22 (Nat.div_le_div_right (Nat.sub_le imageSize addresses))
  apply Notes.weaken _ hentries
  apply Notes.loop
  intro i _ hlast patched
  exact notes_patchEntry hsize hdescriptor hlookup (by omega) patched

/-- How often a descriptor's tables are read and written at most. -/
def tableBound (imageSize : Nat) : Nat := 2 + imageSize / 8 * 22

theorem notes_patchImportDescriptor (hsize : imageSize < 2 ^ 32)
    (hdescriptor : descriptor + 20 ≤ imageSize) :
    Notes (Inside imageSize) (tableBound imageSize)
      (patchImportDescriptor imageSize descriptor original replacement) := by
  have hbound : tableBound imageSize - 1 - 1 = imageSize / 8 * 22 := by
    unfold tableBound
    omega
  have hle : 2 ≤ tableBound imageSize := Nat.le_add_right _ _
  rw [patchImportDescriptor]
  apply (notes_load (by omega)).bind (by omega)
  intro process
  apply Notes.ite
  · intro _
    exact Notes.returns 0
  · intro hvalid
    rw [Bool.not_eq_true', Bool.not_eq_false, rangeIsValid_iff (by omega)] at hvalid
    apply (notes_load (by omega)).bind (by omega)
    intro process'
    rw [hbound]
    exact notes_entries hsize hdescriptor (load_lt descriptor process') (by omega)

theorem notes_isTerminator (hdescriptor : descriptor + 20 ≤ imageSize) (name : Nat) :
    Notes (Inside imageSize) 1 (isTerminator descriptor name) := by
  apply Notes.ite
  · intro _
    exact (notes_load (by omega)).bind (by omega) fun _ => Notes.returns _
  · intro _
    exact Notes.returns false

theorem notes_patchDescriptor {table : ImportTable} (hsize : table.imageSize < 2 ^ 32)
    (hdescriptor : table.address + index * 20 + 20 ≤ table.imageSize) (patched : Nat) :
    Notes (Inside table.imageSize) (15 + tableBound table.imageSize)
      (patchDescriptor table original replacement index patched) := by
  rw [patchDescriptor]
  apply (notes_load (by omega)).bind (by omega)
  intro process
  apply (notes_isTerminator hdescriptor _).bind (by omega)
  intro process'
  apply Notes.ite
  · intro _
    exact Notes.returns _
  · intro _
    apply Notes.ite
    · intro _
      exact Notes.returns _
    · intro hvalid
      rw [Bool.not_eq_true', Bool.not_eq_false, rangeIsValid_iff (by omega)] at hvalid
      have hlength : dinput8Dll.length + 1 = 12 := by decide
      have hwithin := (Nat.add_sub_cancel' (Nat.le_of_lt hvalid)).le
      have hname := notes_boundedAsciiEqualCi dinput8Dll hwithin
      rw [hlength] at hname
      apply hname.bind (by omega)
      intro process''
      apply Notes.ite
      · intro _
        exact Notes.returns _
      · intro _
        apply (notes_load (by omega)).bind (by omega)
        intro process'''
        apply Notes.ite
        · intro _
          exact Notes.returns _
        · intro _
          exact (notes_patchImportDescriptor hsize hdescriptor).bind (by omega)
            fun _ => Notes.returns _

/-- How often the image is read and written at most. -/
def walkBound (imageSize : Nat) : Nat := 2 + imageSize / 20 * (15 + tableBound imageSize)

structure Headers.Fit (headers : Headers) : Prop where
  size : headers.imageSize < 2 ^ 32
  inside : headers.ntHeaders + 264 ≤ headers.imageSize

/-- What the checks of the headers establish. -/
structure Checked (module original replacement : Pointer) (memory : Memory) (headers : Headers) :
    Prop where
  module : module ≠ 0
  original : original ≠ 0
  replacement : replacement ≠ 0
  magic : memory.number 0 2 = 0x5A4D
  lfanew : toLong (memory.number 60 4) = headers.ntHeaders
  low : 0 < headers.ntHeaders
  high : headers.ntHeaders ≤ 1024 * 1024
  signature : memory.number headers.ntHeaders 4 = 0x4550
  optionalMagic : memory.number (headers.ntHeaders + 24) 2 = 0x20B
  imageSize : memory.number (headers.ntHeaders + 80) 4 = headers.imageSize
  size : 64 ≤ headers.imageSize
  inside : headers.ntHeaders + 264 ≤ headers.imageSize

theorem readHeaders_eq_some_iff {module : Pointer} {process : Process} {headers : Headers} :
    (readHeaders module original replacement process).value = some headers ↔
      Checked module original replacement process.memory headers := by
  constructor
  · intro h
    unfold readHeaders at h
    split at h
    · cases h
    · next hpointers =>
      simp only [bind_value] at h
      split at h
      · cases h
      · next hlfanew =>
        simp only [bind_value] at h
        split at h
        · cases h
        · next hsignature =>
          simp only [bind_value] at h
          split at h
          · cases h
          · next hsize =>
            cases h
            simp only [not_or, not_lt, not_not] at hpointers hlfanew hsignature hsize
            have hnatural := Int.toNat_of_nonneg (Int.le_of_lt (Int.not_le.mp hlfanew.2.1))
            have hhigh := hlfanew.2.2
            have hlow := hlfanew.2.1
            rw [sizeT_of_lt (by omega)] at hsize
            exact {
              module := hpointers.1
              original := hpointers.2.1
              replacement := hpointers.2.2
              magic := hlfanew.1
              lfanew := hnatural.symm
              low := by dsimp only; omega
              high := by dsimp only; omega
              signature := hsignature.1
              optionalMagic := hsignature.2
              imageSize := rfl
              size := hsize.1
              inside := hsize.2 }
  · intro h
    have hhigh := h.high
    have hlow := h.low
    have hsize := h.size
    have hinside := h.inside
    unfold readHeaders
    split
    · next hnull => exact (not_or.mpr ⟨h.module, not_or.mpr ⟨h.original, h.replacement⟩⟩ hnull).elim
    · simp only [bind_value]
      split
      · next hlfanew =>
        simp only [load_value, load_state, h.magic, h.lfanew] at hlfanew
        omega
      · simp only [bind_value]
        split
        · next hsignature =>
          simp only [load_value, load_state, h.lfanew, Int.toNat_natCast, h.signature,
            h.optionalMagic] at hsignature
          omega
        · simp only [bind_value]
          split
          · next hsize =>
            simp only [load_value, load_state, h.lfanew, Int.toNat_natCast, h.imageSize] at hsize
            rw [sizeT_of_lt (by omega)] at hsize
            omega
          · simp only [load_value, load_state, h.lfanew, Int.toNat_natCast, h.imageSize, pure_value]

theorem Checked.fit {module : Pointer} {memory : Memory} {headers : Headers}
    (h : Checked module original replacement memory headers) : headers.Fit :=
  ⟨h.imageSize ▸ Memory.number_lt memory _ 4, h.inside⟩

theorem notes_descriptors {table : ImportTable} (hsize : table.imageSize < 2 ^ 32)
    (hinside : table.address + table.count * 20 ≤ table.imageSize) :
    Notes (Inside table.imageSize)
      (table.imageSize / 20 * (15 + tableBound table.imageSize))
      (loop (patchDescriptor table original replacement) table.count 0 0) := by
  have hcount : table.count ≤ table.imageSize / 20 := by omega
  apply Notes.weaken _ (Nat.mul_le_mul_right _ hcount)
  apply Notes.loop
  intro i _ hlast patched
  exact notes_patchDescriptor hsize (by omega) patched

theorem inside_readDirectory {headers : Headers} {process : Process} {table : ImportTable}
    (h : (readDirectory headers process).value = some table) :
    table.imageSize = headers.imageSize ∧ table.address + table.count * 20 ≤ table.imageSize := by
  simp only [readDirectory, bind_value] at h
  split at h
  · cases h
  · next hvalid =>
    cases h
    simp only [not_or, not_lt, Bool.not_eq_true', Bool.not_eq_false] at hvalid
    obtain ⟨-, hsize, hrange⟩ := hvalid
    rw [rangeIsValid_iff (by omega)] at hrange
    exact ⟨rfl, by dsimp only; omega⟩

theorem notes_readDirectory {headers : Headers} (h : headers.Fit) :
    Notes (Inside headers.imageSize) 2 (readDirectory headers) := by
  have hinside := h.inside
  apply (notes_load (by omega)).bind (by omega)
  intro process
  apply (notes_load (by omega)).bind (by omega)
  intro process'
  exact Notes.ite (fun _ => Notes.returns _) fun _ => Notes.returns _

theorem notes_patchImports {headers : Headers} (h : headers.Fit) :
    Notes (Inside headers.imageSize) (walkBound headers.imageSize)
      (patchImports headers original replacement) := by
  rw [patchImports]
  apply (notes_readDirectory h).bind (Nat.le_add_right _ _)
  intro process
  cases htable : (readDirectory headers process).value with
  | none => exact Notes.returns 0
  | some table =>
    obtain ⟨hsame, hinside⟩ := inside_readDirectory htable
    rw [Nat.add_sub_cancel_left, ← hsame]
    exact notes_descriptors (hsame ▸ h.size) hinside

/-- Behind the check of the size every access is within the image, and there are finitely many. -/
theorem walk_stays_inside (module original replacement : Pointer) (process : Process) :
    ∃ accesses, (patchDirectInput8ImportsUnchecked module original replacement process).events =
        (readHeaders module original replacement process).events ++ accesses ∧
      match (readHeaders module original replacement process).value with
      | none => accesses = []
      | some headers => (∀ access ∈ accesses, access.offset + access.length ≤ headers.imageSize) ∧
          accesses.length ≤ walkBound headers.imageSize := by
  refine ⟨_, bind_events _ _ process, ?_⟩
  cases hheaders : (readHeaders module original replacement process).value with
  | none => rfl
  | some headers => exact notes_patchImports (readHeaders_eq_some_iff.mp hheaders).fit _

end FfbInterceptor.Hook
