import FfbInterceptor.Library.ByteMemory

/-! Which machine a PE file is for (`pe_arch.cpp`). -/
namespace FfbInterceptor.Launcher
open FfbInterceptor.Library

inductive PeArchitecture where
  | unknown | x86 | x64
deriving DecidableEq, Repr

/-- An opened file whose reads succeed within its size; behind it the content says nothing. -/
structure PeFile where
  size : Nat
  content : Memory
  size_lt : size < 2 ^ 63

def IMAGE_DOS_SIGNATURE : Nat := 0x5A4D
def IMAGE_NT_SIGNATURE : Nat := 0x4550
def IMAGE_FILE_MACHINE_I386 : Nat := 0x14C
def IMAGE_FILE_MACHINE_AMD64 : Nat := 0x8664

/-- What 32 bits keep of a signed number, as sums of two `LONG`s wrap. -/
def long (value : Int) : Int := value.bmod (2 ^ 32)

/-- What 64 bits keep of a signed number. -/
def longlong (value : Int) : Int := value.bmod (2 ^ 64)

/-- A sum of offsets, before its type cuts it. -/
structure OffsetSum where
  bits : Nat
  value : Int
deriving DecidableEq

def OffsetSum.Fits (sum : OffsetSum) : Prop := sum.value.bmod (2 ^ sum.bits) = sum.value

structure Detection where
  architecture : PeArchitecture := .unknown
  sums : List OffsetSum

namespace PeFile

variable (file : PeFile)

/-- Seeking in front of the file fails, and so does a read that gets less. -/
def readExactAt (offset : Int) (size : Nat) : Option Memory :=
  if 0 ≤ offset ∧ offset + size ≤ file.size then some fun i => file.content (offset.toNat + i)
  else none

def architectureOf (signature header : Memory) : PeArchitecture :=
  if signature.number 0 4 ≠ IMAGE_NT_SIGNATURE then .unknown
  else if header.number 0 2 = IMAGE_FILE_MACHINE_I386 then .x86
  else if header.number 0 2 = IMAGE_FILE_MACHINE_AMD64 then .x64
  else .unknown

def readHeader (e_lfanew : Int) : Detection :=
  match file.readExactAt e_lfanew 4 with
  | none => { sums := [⟨64, e_lfanew + 24⟩] }
  | some signature =>
    match file.readExactAt (long (e_lfanew + 4)) 20 with
    | none => { sums := [⟨64, e_lfanew + 24⟩, ⟨32, e_lfanew + 4⟩] }
    | some header =>
      { architecture := architectureOf signature header
        sums := [⟨64, e_lfanew + 24⟩, ⟨32, e_lfanew + 4⟩] }

def readPeArchitecture : Detection :=
  match file.readExactAt 0 64 with
  | none => { sums := [] }
  | some dos =>
    let e_lfanew := long (dos.number 60 4)
    if dos.number 0 2 = IMAGE_DOS_SIGNATURE ∧ 64 ≤ e_lfanew then
      if longlong (e_lfanew + 24) ≤ file.size then file.readHeader e_lfanew
      else { sums := [⟨64, e_lfanew + 24⟩] }
    else { sums := [] }

def e_lfanew : Int := long (file.content.number 60 4)

structure IsFor (machine : Nat) : Prop where
  magic : file.content.number 0 2 = IMAGE_DOS_SIGNATURE
  behind : 64 ≤ file.e_lfanew
  inside : file.e_lfanew + 24 ≤ file.size
  signature : file.content.number file.e_lfanew.toNat 4 = IMAGE_NT_SIGNATURE
  machine : file.content.number (file.e_lfanew.toNat + 4) 2 = machine

/-- What the detection is meant to do. -/
structure Detected : Prop where
  x86 : file.readPeArchitecture.architecture = .x86 ↔ file.IsFor IMAGE_FILE_MACHINE_I386
  x64 : file.readPeArchitecture.architecture = .x64 ↔ file.IsFor IMAGE_FILE_MACHINE_AMD64
  fits : ∀ sum ∈ file.readPeArchitecture.sums, sum.Fits

/-- The header is checked, but the offset of its second part is too large for a `LONG`. -/
def HeaderBeyondLong : Prop :=
  file.content.number 0 2 = IMAGE_DOS_SIGNATURE ∧ 0x7FFFFFFC ≤ file.e_lfanew ∧
    file.e_lfanew + 24 ≤ file.size

end PeFile

section Exactness

variable {file : PeFile}

theorem number_shift (memory : Memory) (start offset length : Nat) :
    Memory.number (fun i => memory (start + i)) offset length =
      memory.number (start + offset) length := by
  induction length generalizing offset with
  | zero => simp only [Memory.number]
  | succ length ih => simp only [Memory.number, ih, Nat.add_assoc]

theorem number_from (memory : Memory) (start length : Nat) :
    Memory.number (fun i => memory (start + i)) 0 length = memory.number start length := by
  rw [number_shift, Nat.add_zero]

theorem long_range (value : Int) : -0x80000000 ≤ long value ∧ long value < 0x80000000 := by
  simp only [long, Int.bmod]
  omega

theorem long_eq_self_iff {value : Int} :
    long value = value ↔ -0x80000000 ≤ value ∧ value < 0x80000000 := by
  simp only [long, Int.bmod]
  omega

theorem longlong_eq {value : Int} (hlow : -0x80000000 ≤ value) (hhigh : value < 0x100000000) :
    longlong value = value := by
  simp only [longlong, Int.bmod]
  omega

theorem e_lfanew_range (file : PeFile) :
    -0x80000000 ≤ file.e_lfanew ∧ file.e_lfanew < 0x80000000 := long_range _

theorem readExactAt_inside {offset : Int} {size : Nat} (hstart : 0 ≤ offset)
    (hend : offset + size ≤ file.size) :
    file.readExactAt offset size = some fun i => file.content (offset.toNat + i) := by
  rw [PeFile.readExactAt, if_pos ⟨hstart, hend⟩]

structure Placed (file : PeFile) : Prop where
  magic : file.content.number 0 2 = IMAGE_DOS_SIGNATURE
  behind : 64 ≤ file.e_lfanew
  inside : file.e_lfanew + 24 ≤ file.size

theorem longlong_sum (file : PeFile) : longlong (file.e_lfanew + 24) = file.e_lfanew + 24 := by
  have hrange := e_lfanew_range file
  exact longlong_eq (by omega) (by omega)

theorem readPeArchitecture_eq (hsize : 64 ≤ file.size) : file.readPeArchitecture =
    if file.content.number 0 2 = IMAGE_DOS_SIGNATURE ∧ 64 ≤ file.e_lfanew then
      if file.e_lfanew + 24 ≤ file.size then file.readHeader file.e_lfanew
      else { sums := [⟨64, file.e_lfanew + 24⟩] }
    else { sums := [] } := by
  have hend : (0 : Int) + (64 : Nat) ≤ file.size := by omega
  have hread : file.readExactAt 0 64 = some file.content := by
    rw [readExactAt_inside (Int.le_refl 0) hend]
    simp only [Int.toNat_zero, Nat.zero_add]
  have hsum := longlong_sum file
  rw [PeFile.e_lfanew] at hsum
  simp only [PeFile.readPeArchitecture, hread, PeFile.e_lfanew, hsum]
  rfl

theorem readPeArchitecture_placed (h : Placed file) :
    file.readPeArchitecture = file.readHeader file.e_lfanew := by
  have hbehind := h.behind
  have hinside := h.inside
  rw [readPeArchitecture_eq (by omega), if_pos ⟨h.magic, hbehind⟩, if_pos hinside]

/-- Elsewhere nothing is found, and the one sum that may have been formed fits. -/
theorem readPeArchitecture_misplaced (h : ¬ Placed file) :
    file.readPeArchitecture.architecture = .unknown ∧
      ∀ sum ∈ file.readPeArchitecture.sums, sum = ⟨64, file.e_lfanew + 24⟩ := by
  by_cases hsize : 64 ≤ file.size
  · rw [readPeArchitecture_eq hsize]
    by_cases hmagic : file.content.number 0 2 = IMAGE_DOS_SIGNATURE ∧ 64 ≤ file.e_lfanew
    · have houtside : ¬ file.e_lfanew + 24 ≤ file.size :=
        fun hinside => h ⟨hmagic.1, hmagic.2, hinside⟩
      rw [if_pos hmagic, if_neg houtside]
      simp
    · rw [if_neg hmagic]
      simp
  · have hnone : file.readExactAt 0 64 = none := by
      rw [PeFile.readExactAt, if_neg]
      omega
    simp [PeFile.readPeArchitecture, hnone]

theorem readHeader_eq (h : Placed file) (hlong : file.e_lfanew < 0x7FFFFFFC) :
    file.readHeader file.e_lfanew =
      { architecture := PeFile.architectureOf
          (fun i => file.content (file.e_lfanew.toNat + i))
          (fun i => file.content (file.e_lfanew.toNat + 4 + i))
        sums := [⟨64, file.e_lfanew + 24⟩, ⟨32, file.e_lfanew + 4⟩] } := by
  have hbehind := h.behind
  have hinside := h.inside
  have hsum : long (file.e_lfanew + 4) = file.e_lfanew + 4 := long_eq_self_iff.mpr (by omega)
  have hoffset : (file.e_lfanew + 4).toNat = file.e_lfanew.toNat + 4 := by omega
  have hfirst := @readExactAt_inside file file.e_lfanew 4 (by omega) (by omega)
  have hsecond := @readExactAt_inside file (file.e_lfanew + 4) 20 (by omega) (by omega)
  rw [PeFile.readHeader, hsum, hfirst, hsecond, hoffset]

/-- Past that, the sum turns negative and the second seek fails. -/
theorem readHeader_beyond (h : Placed file) (hlong : 0x7FFFFFFC ≤ file.e_lfanew) :
    file.readHeader file.e_lfanew =
      { sums := [⟨64, file.e_lfanew + 24⟩, ⟨32, file.e_lfanew + 4⟩] } := by
  have hrange := e_lfanew_range file
  have hinside := h.inside
  have hnegative : long (file.e_lfanew + 4) < 0 := by
    simp only [long, Int.bmod]
    omega
  have hnone : file.readExactAt (long (file.e_lfanew + 4)) 20 = none := by
    rw [PeFile.readExactAt, if_neg]
    omega
  have hfirst := @readExactAt_inside file file.e_lfanew 4 (by omega) (by omega)
  rw [PeFile.readHeader, hfirst, hnone]

theorem isFor_iff {machine : Nat} : file.IsFor machine ↔ Placed file ∧
    file.content.number file.e_lfanew.toNat 4 = IMAGE_NT_SIGNATURE ∧
    file.content.number (file.e_lfanew.toNat + 4) 2 = machine := by
  constructor
  · intro h
    exact ⟨⟨h.magic, h.behind, h.inside⟩, h.signature, h.machine⟩
  · intro h
    exact ⟨h.1.magic, h.1.behind, h.1.inside, h.2.1, h.2.2⟩

theorem architectureOf_iff {signature header : Memory} :
    (PeFile.architectureOf signature header = .x86 ↔ signature.number 0 4 = IMAGE_NT_SIGNATURE ∧
      header.number 0 2 = IMAGE_FILE_MACHINE_I386) ∧
    (PeFile.architectureOf signature header = .x64 ↔ signature.number 0 4 = IMAGE_NT_SIGNATURE ∧
      header.number 0 2 = IMAGE_FILE_MACHINE_AMD64) := by
  have hne : IMAGE_FILE_MACHINE_I386 ≠ IMAGE_FILE_MACHINE_AMD64 := by decide
  simp only [PeFile.architectureOf]
  by_cases hsignature : signature.number 0 4 = IMAGE_NT_SIGNATURE
  · by_cases hx86 : header.number 0 2 = IMAGE_FILE_MACHINE_I386
    · simp [hsignature, hx86, hne]
    · by_cases hx64 : header.number 0 2 = IMAGE_FILE_MACHINE_AMD64
      · simp [hsignature, hx64, hne.symm]
      · simp [hsignature, hx86, hx64]
  · simp [hsignature]

theorem fits_longlong (value : Int) : (OffsetSum.mk 64 value).Fits ↔ longlong value = value := Iff.rfl

theorem fits_long (value : Int) : (OffsetSum.mk 32 value).Fits ↔ long value = value := Iff.rfl

theorem placed_of_beyond (h : file.HeaderBeyondLong) : Placed file where
  magic := h.1
  behind := by
    have hstart := h.2.1
    omega
  inside := h.2.2

theorem detected_of_placed (h : Placed file) (hlong : file.e_lfanew < 0x7FFFFFFC) : file.Detected := by
  have hbehind := h.behind
  have hread := (readPeArchitecture_placed h).trans (readHeader_eq h hlong)
  obtain ⟨hx86, hx64⟩ := @architectureOf_iff (fun i => file.content (file.e_lfanew.toNat + i))
    (fun i => file.content (file.e_lfanew.toNat + 4 + i))
  rw [number_from, number_from] at hx86 hx64
  constructor
  · rw [hread, isFor_iff, and_iff_right h]
    exact hx86
  · rw [hread, isFor_iff, and_iff_right h]
    exact hx64
  · intro sum hsum
    rw [hread] at hsum
    cases hsum with
    | head => exact (fits_longlong _).mpr (longlong_sum file)
    | tail _ hsum =>
      obtain rfl := List.mem_singleton.mp hsum
      have hlow : -0x80000000 ≤ file.e_lfanew + 4 := by omega
      have hhigh : file.e_lfanew + 4 < 0x80000000 := by omega
      exact (fits_long _).mpr (long_eq_self_iff.mpr ⟨hlow, hhigh⟩)

theorem detected_of_misplaced (h : ¬ Placed file) : file.Detected := by
  obtain ⟨hunknown, hsums⟩ := readPeArchitecture_misplaced h
  constructor
  · rw [hunknown, isFor_iff]
    exact ⟨nofun, fun hfor => absurd hfor.1 h⟩
  · rw [hunknown, isFor_iff]
    exact ⟨nofun, fun hfor => absurd hfor.1 h⟩
  · intro sum hsum
    rw [hsums sum hsum]
    exact (fits_longlong _).mpr (longlong_sum file)

/-- The detection is exact, and its sums fit, unless a checked header starts within the last four
bytes that a `LONG` counts. -/
theorem detected_iff (file : PeFile) : file.Detected ↔ ¬ file.HeaderBeyondLong := by
  constructor
  · intro h hbeyond
    have hplaced := placed_of_beyond hbeyond
    have hfits := h.fits ⟨32, file.e_lfanew + 4⟩ (by
      rw [readPeArchitecture_placed hplaced, readHeader_beyond hplaced hbeyond.2.1]
      simp)
    have hlong := (long_eq_self_iff.mp ((fits_long _).mp hfits)).2
    have hstart := hbeyond.2.1
    omega
  · intro h
    by_cases hplaced : Placed file
    · have hlong : file.e_lfanew < 0x7FFFFFFC := by
        by_contra hlarge
        exact h ⟨hplaced.magic, Int.not_lt.mp hlarge, hplaced.inside⟩
      exact detected_of_placed hplaced hlong
    · exact detected_of_misplaced hplaced

end Exactness

/-- A file of a little more than 2 GiB whose PE header for x86 starts at `0x7FFFFFFC`. -/
def hugeFile : PeFile where
  size := 0x80000014
  size_lt := by decide
  content offset := BitVec.ofNat 8 (([(0, 0x4D), (1, 0x5A), (60, 0xFC), (61, 0xFF), (62, 0xFF),
    (63, 0x7F), (0x7FFFFFFC, 0x50), (0x7FFFFFFD, 0x45), (0x80000000, 0x4C), (0x80000001, 0x01)].lookup
      offset).getD 0)

theorem hugeFile_not_detected : ¬ hugeFile.Detected := by
  intro h
  have hfor : hugeFile.IsFor IMAGE_FILE_MACHINE_I386 := by
    constructor <;> decide +kernel
  have hunknown : hugeFile.readPeArchitecture.architecture = .unknown := by decide +kernel
  have hx86 := h.x86.mpr hfor
  rw [hunknown] at hx86
  cases hx86

end FfbInterceptor.Launcher
