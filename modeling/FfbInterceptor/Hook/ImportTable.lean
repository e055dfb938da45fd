import FfbInterceptor.Library.ByteMemory
import FfbInterceptor.Library.Traced

/-! The patching of the import address tables of a mapped module, in the 64-bit build. Offsets count from
the base of the module; sums of `size_t` are taken modulo `2 ^ 64`. -/
namespace FfbInterceptor.Hook
open FfbInterceptor.Library

abbrev Pointer := BitVec 64

structure Access where
  offset : Nat
  length : Nat
deriving DecidableEq

/-- The memory seen from the base of the module, and the answers `VirtualProtect` is going to give. -/
structure Process where
  memory : Memory
  protections : Nat → Bool

abbrev Walk := Traced Process Access

def load (offset length : Nat) : Walk Nat := fun process =>
  ⟨process.memory.number offset length, process, [⟨offset, length⟩]⟩

def virtualProtect : Walk Bool := fun process =>
  ⟨process.protections 0, { process with protections := fun n => process.protections (n + 1) }, []⟩

def interlockedCompareExchangePointer (slot : Nat) (exchange comparand : Pointer) : Walk Nat :=
  fun process =>
    let observed := process.memory.number slot 8
    ⟨observed,
      if observed = comparand.toNat then
        { process with memory := process.memory.put slot 8 exchange.toNat }
      else process,
      [⟨slot, 8⟩]⟩

def sizeT (n : Nat) : Nat := n % 2 ^ 64

def rangeIsValid (imageSize rva length : Nat) : Bool := rva < imageSize && length ≤ imageSize - rva

def folded (byte : Byte) : Byte := if 0x41 ≤ byte ∧ byte ≤ 0x5A then byte + 32 else byte

/-- The expected text is walked with the value; behind it stands its zero. -/
def boundedAsciiEqualCi : (value available : Nat) → (expected : List Byte) → Walk Bool
  | _, 0, _ => pure false
  | value, available + 1, expected => do
    let left := BitVec.ofNat 8 (← load value 1)
    let right := expected.headD 0
    if left = 0 ∨ right = 0 then pure (left = right)
    else if folded left ≠ folded right then pure false
    else boundedAsciiEqualCi (value + 1) available expected.tail

/-- The slot is a place in the module and never null. -/
def patchPointer (slot : Nat) (original replacement : Pointer) : Walk Bool :=
  if original = 0 ∨ replacement = 0 ∨ original = replacement then pure false
  else do
    if !(← virtualProtect) then pure false
    else do
      let observed ← interlockedCompareExchangePointer slot replacement original
      let _ ← virtualProtect
      pure (observed = original.toNat)

def text (value : String) : List Byte := value.toList.map fun c => BitVec.ofNat 8 c.toNat

def directInput8Create : List Byte := text "DirectInput8Create"

def dinput8Dll : List Byte := text "dinput8.dll"

def patchSlot (slot : Nat) (original replacement : Pointer) (patched : Nat) :
    Walk (ForInStep Nat) := do
  if ← patchPointer slot original replacement then pure (.yield (patched + 1))
  else pure (.yield patched)

def imageSnapByOrdinal (lookup : Nat) : Bool := 2 ^ 63 ≤ lookup

def imageOrdinal (lookup : Nat) : Nat := lookup % 2 ^ 16

/-- Whether a lookup entry is the wanted one; where it is not, the loop goes on. -/
def isDirectInput8Create (imageSize lookup : Nat) : Walk Bool :=
  if imageSnapByOrdinal lookup then pure (imageOrdinal lookup = 1)
  else if !rangeIsValid imageSize lookup 4 then pure false
  else
    let importNameRva := sizeT (lookup + 2)
    if importNameRva ≥ imageSize then pure false
    else boundedAsciiEqualCi (lookup + 2) (imageSize - importNameRva) directInput8Create

/-- One pass of the loop over a table. The descriptor is a reference into the module, so its field
is read again in every pass; where the addresses begin was taken before the loop. -/
def patchEntry (imageSize descriptor addresses lookupRva : Nat) (original replacement : Pointer)
    (index patched : Nat) : Walk (ForInStep Nat) := do
  let addressRva := sizeT ((← load (descriptor + 16) 4) + index * 8)
  if !rangeIsValid imageSize addressRva 8 then pure (.done patched)
  else
    let slot := addresses + index * 8
    if lookupRva = 0 then do
      if (← load slot 8) = 0 then pure (.done patched)
      else patchSlot slot original replacement patched
    else
      let lookupEntryRva := sizeT (lookupRva + index * 8)
      if !rangeIsValid imageSize lookupEntryRva 8 then pure (.done patched)
      else do
        let lookup ← load (lookupRva + index * 8) 8
        if lookup = 0 then pure (.done patched)
        else if ← isDirectInput8Create imageSize lookup then
          patchSlot slot original replacement patched
        else pure (.yield patched)

def patchImportDescriptor (imageSize descriptor : Nat) (original replacement : Pointer) :
    Walk Nat := do
  let firstThunk ← load (descriptor + 16) 4
  if !rangeIsValid imageSize firstThunk 8 then pure 0
  else do
    let lookupRva ← load descriptor 4
    let maximumEntries := (imageSize - firstThunk) / 8
    Traced.loop (patchEntry imageSize descriptor firstThunk lookupRva original replacement)
      maximumEntries 0 0

structure Headers where
  ntHeaders : Nat
  imageSize : Nat
deriving DecidableEq

def toLong (n : Nat) : Int := if n < 2 ^ 31 then n else n - 2 ^ 32

def readHeaders (module original replacement : Pointer) : Walk (Option Headers) :=
  if module = 0 ∨ original = 0 ∨ replacement = 0 then pure none
  else do
    let magic ← load 0 2
    let lfanew := toLong (← load 60 4)
    if magic ≠ 0x5A4D ∨ lfanew ≤ 0 ∨ lfanew > 1024 * 1024 then pure none
    else do
      let ntHeaders := lfanew.toNat
      let signature ← load ntHeaders 4
      let optionalMagic ← load (ntHeaders + 24) 2
      if signature ≠ 0x4550 ∨ optionalMagic ≠ 0x20B then pure none
      else do
        let imageSize ← load (ntHeaders + 80) 4
        if imageSize < 64 ∨ sizeT (ntHeaders + 264) > imageSize then pure none
        else pure (some ⟨ntHeaders, imageSize⟩)

/-- Where the import descriptors stand, and how many fit the directory. -/
structure ImportTable where
  imageSize : Nat
  address : Nat
  count : Nat
deriving DecidableEq

def readDirectory (headers : Headers) : Walk (Option ImportTable) := do
  let virtualAddress ← load (headers.ntHeaders + 144) 4
  let size ← load (headers.ntHeaders + 148) 4
  if virtualAddress = 0 ∨ size < 20 ∨ !rangeIsValid headers.imageSize virtualAddress size then
    pure none
  else pure (some ⟨headers.imageSize, virtualAddress, size / 20⟩)

/-- The last descriptor has neither name nor addresses; those are read only where the name is zero. -/
def isTerminator (descriptor name : Nat) : Walk Bool :=
  if name = 0 then do pure ((← load (descriptor + 16) 4) == 0) else pure false

def patchDescriptor (table : ImportTable) (original replacement : Pointer) (index patched : Nat) :
    Walk (ForInStep Nat) := do
  let descriptor := table.address + index * 20
  let name ← load (descriptor + 12) 4
  if ← isTerminator descriptor name then pure (.done patched)
  else if !rangeIsValid table.imageSize name 1 then pure (.yield patched)
  else do
    if !(← boundedAsciiEqualCi name (table.imageSize - name) dinput8Dll) then
      pure (.yield patched)
    else do
      let lookupRva ← load descriptor 4
      if lookupRva ≠ 0 ∧ !rangeIsValid table.imageSize lookupRva 8 then pure (.yield patched)
      else do
        let changed ← patchImportDescriptor table.imageSize descriptor original replacement
        pure (.yield (patched + changed))

def patchImports (headers : Headers) (original replacement : Pointer) : Walk Nat := do
  match ← readDirectory headers with
  | none => pure 0
  | some table => Traced.loop (patchDescriptor table original replacement) table.count 0 0

def patchDirectInput8ImportsUnchecked (module original replacement : Pointer) : Walk Nat := do
  match ← readHeaders module original replacement with
  | none => pure 0
  | some headers => patchImports headers original replacement

/-- Around it stands a handler for exceptions of the processor; an image that can be read and written
raises none. -/
def patchDirectInput8Imports (module original replacement : Pointer) : Walk Nat :=
  patchDirectInput8ImportsUnchecked module original replacement

end FfbInterceptor.Hook
