import FfbInterceptor.Library.Deciding
import FfbInterceptor.Library.Layout
import FfbInterceptor.Library.Scanning
import FfbInterceptor.Manager.Manifest

/-! The check of the build policy that is embedded in the stable manager
(`Test-ManagerBuildPolicy.ps1`). -/
namespace FfbInterceptor.Release
open FfbInterceptor.Library
open FfbInterceptor.Manager (ascii)

inductive PolicyRefusal where
  | invalidSize
  | markerCount (found : Nat)
  | malformedMarker
  | notPeImage
  | truncatedField
  | invalidSignature
  | invalidSectionCount
  | invalidOptionalHeader
  | notPe32
  | truncatedSectionTable
  | invalidSectionRange (name : List UInt8)
  | notOneSection
  | notConstantData
  deriving DecidableEq

def PolicyRefusal.message : PolicyRefusal → String
  | invalidSize => "Stable Manager changed to an invalid file size while it was being read."
  | markerCount found => "Stable Manager must contain exactly one build-policy marker; found " ++
      toString found ++ "."
  | malformedMarker => "Stable Manager build-policy marker is missing, malformed, unpinned, or not " ++
      "NUL-terminated."
  | notPeImage => "Stable Manager is not a valid PE image."
  | truncatedField => "Stable Manager has a truncated PE field."
  | invalidSignature => "Stable Manager has an invalid PE signature."
  | invalidSectionCount => "Stable Manager has an invalid PE section count."
  | invalidOptionalHeader => "Stable Manager has an invalid PE optional header."
  | notPe32 => "Stable Manager is not a PE32 or PE32+ image."
  | truncatedSectionTable => "Stable Manager has a truncated PE section table."
  | invalidSectionRange name => "Stable Manager PE section has an invalid file range: " ++
      String.ofList (name.map fun byte => Char.ofNat byte.toNat)
  | notOneSection => "Stable Manager build-policy marker is not contained in exactly one PE section."
  | notConstantData => "Stable Manager build-policy marker must be mapped initialized data inside " ++
      "the read-only, non-executable .rdata PE section."

/-- `outside` is a read behind the end of the bytes, which no check of the script has kept away. -/
inductive PolicyError where
  | refused (refusal : PolicyRefusal)
  | outside
  deriving DecidableEq

abbrev Check := Except PolicyError

def require (condition : Prop) [Decidable condition] (refusal : PolicyRefusal) : Check Unit :=
  if condition then .ok () else .error (.refused refusal)

section Reads

variable (bytes : List UInt8) (offset : Int)

def readFFBUInt16 : Check Nat :=
  if offset < 0 ∨ offset > bytes.length - 2 then .error (.refused .truncatedField)
  else .ok (word16At bytes offset.toNat).toNat

def readFFBUInt32 : Check Nat :=
  if offset < 0 ∨ offset > bytes.length - 4 then .error (.refused .truncatedField)
  else .ok (word32At bytes offset.toNat).toNat

def byteAt : Check UInt8 :=
  if 0 ≤ offset ∧ offset < bytes.length then .ok (bytes.getD offset.toNat 0) else .error .outside

/-- `Encoding.ASCII.GetString`: one character for each byte. -/
def asciiString : List UInt8 := bytes.map fun byte => if byte < 0x80 then byte else 0x3F

def sectionNameAt (place : Nat) : List UInt8 :=
  (asciiString (sliceAt bytes place 8)).rdropWhile (· = 0)

def readSectionName : Check (List UInt8) :=
  if 0 ≤ offset ∧ offset + 8 ≤ bytes.length then .ok (sectionNameAt bytes offset.toNat)
  else .error .outside

end Reads

section Marker

def policyPrefix : List UInt8 := ascii "FFB_MANAGER_BUILD_POLICY_V1|"

def markerHead : List UInt8 := policyPrefix ++ ascii "MODE=STABLE|SIGNER_SHA256="

def markerTail : List UInt8 := ascii "|END" ++ [0]

def isUpperHex (byte : UInt8) : Bool := (0x41 ≤ byte && byte ≤ 0x46) || (0x30 ≤ byte && byte ≤ 0x39)

def markerText (signer : List UInt8) : List UInt8 := markerHead ++ signer ++ markerTail

def markerLength : Nat := markerHead.length + 64 + markerTail.length

def matchPrefix (text : List UInt8) : Option Unit :=
  if policyPrefix.isPrefixOf text then some () else none

def matchMarker (text : List UInt8) : Option (List UInt8) :=
  let signer := sliceAt text markerHead.length 64
  if (markerText signer).isPrefixOf text && signer.length = 64 && signer.all isUpperHex then some signer
  else none

def findMarker (bytes : List UInt8) : Check (Nat × List UInt8) :=
  let text := asciiString bytes
  match Scanning.allMatches matchPrefix policyPrefix.length 0 0 text with
  | [(place, ())] =>
    match Scanning.allMatches matchMarker markerLength 0 0 text with
    | [(found, signer)] =>
      if found = place then .ok (found, signer) else .error (.refused .malformedMarker)
    | _ => .error (.refused .malformedMarker)
  | places => .error (.refused (.markerCount places.length))

end Marker

section Headers

def readHeaders (bytes : List UInt8) : Check (Nat × Int) := do
  require (64 ≤ bytes.length) .notPeImage
  let m ← byteAt bytes 0
  let z ← byteAt bytes 1
  require (m = 0x4D ∧ z = 0x5A) .notPeImage
  let peOffset ← readFFBUInt32 bytes 0x3C
  require ((peOffset : Int) ≤ bytes.length - 24) .invalidSignature
  let p ← byteAt bytes peOffset
  let e ← byteAt bytes (peOffset + 1)
  let zero ← byteAt bytes (peOffset + 2)
  let zero' ← byteAt bytes (peOffset + 3)
  require (p = 0x50 ∧ e = 0x45 ∧ zero = 0 ∧ zero' = 0) .invalidSignature
  let sectionCount ← readFFBUInt16 bytes (peOffset + 6)
  require (1 ≤ sectionCount ∧ sectionCount ≤ 96) .invalidSectionCount
  let optionalHeaderSize ← readFFBUInt16 bytes (peOffset + 20)
  require (2 ≤ optionalHeaderSize ∧ (peOffset : Int) + 24 ≤ bytes.length - optionalHeaderSize)
    .invalidOptionalHeader
  let optionalMagic ← readFFBUInt16 bytes (peOffset + 24)
  require (optionalMagic = 0x10B ∨ optionalMagic = 0x20B) .notPe32
  require ((peOffset : Int) + 24 + optionalHeaderSize ≤ bytes.length - sectionCount * 40)
    .truncatedSectionTable
  return (sectionCount, (peOffset : Int) + 24 + optionalHeaderSize)

structure SectionHeader where
  name : List UInt8
  virtualSize : Nat
  rawSize : Nat
  rawOffset : Nat
  characteristics : Nat
  deriving DecidableEq

def readSection (bytes : List UInt8) (offset : Int) : Check SectionHeader := do
  let name ← readSectionName bytes offset
  let virtualSize ← readFFBUInt32 bytes (offset + 8)
  let rawSize ← readFFBUInt32 bytes (offset + 16)
  let rawOffset ← readFFBUInt32 bytes (offset + 20)
  let characteristics ← readFFBUInt32 bytes (offset + 36)
  return { name, virtualSize, rawSize, rawOffset, characteristics }

/-- The whole marker lies in the raw and in the virtual range. -/
def SectionHeader.contains (header : SectionHeader) (markerOffset markerEnd : Int) : Bool :=
  0 < header.rawSize && 0 < header.virtualSize && 0 ≤ markerOffset - header.rawOffset &&
    markerEnd - header.rawOffset ≤ header.rawSize && markerEnd - header.rawOffset ≤ header.virtualSize

def containingSections (bytes : List UInt8) (markerOffset markerEnd : Int) :
    (remaining : Nat) → (offset : Int) → Check (List SectionHeader)
  | 0, _ => .ok []
  | remaining + 1, offset => do
    let header ← readSection bytes offset
    require (header.rawSize = 0 ∨ (header.rawOffset : Int) ≤ bytes.length - header.rawSize)
      (.invalidSectionRange header.name)
    let rest ← containingSections bytes markerOffset markerEnd remaining (offset + 40)
    return if header.contains markerOffset markerEnd then header :: rest else rest

def imageScnCntInitializedData : Nat := 0x00000040
def imageScnMemExecute : Nat := 0x20000000
def imageScnMemRead : Nat := 0x40000000
def imageScnMemWrite : Nat := 0x80000000

/-- PowerShell's `-ceq` of two ASCII texts is the equality of the invariant culture: a NUL has no
weight in it, and printable texts are equal where they are the same. -/
structure InvariantCulture where
  ceq : List UInt8 → List UInt8 → Bool
  ignoresNul : ∀ a b, ceq a b = ceq (a.filter (· ≠ 0)) (b.filter (· ≠ 0))
  printable : ∀ a b, (∀ c ∈ a ++ b, 0x20 ≤ c ∧ c ≤ 0x7E) → (ceq a b ↔ a = b)

/-- Initialised data that is only read. -/
def SectionHeader.constantData (ceq : List UInt8 → List UInt8 → Bool) (header : SectionHeader) : Bool :=
  ceq header.name (ascii ".rdata") &&
    header.characteristics &&& imageScnCntInitializedData ≠ 0 &&
    header.characteristics &&& imageScnMemRead ≠ 0 &&
    header.characteristics &&& (imageScnMemWrite ||| imageScnMemExecute) = 0

/-- The one section that holds the marker is constant data. -/
def acceptPolicySection (ceq : List UInt8 → List UInt8 → Bool) (signer : List UInt8)
    (sections : List SectionHeader) : Check (List UInt8) :=
  match sections with
  | [policySection] => do
    require (policySection.constantData ceq) .notConstantData
    return signer
  | _ => .error (.refused .notOneSection)

def acceptImage (ceq : List UInt8 → List UInt8 → Bool) (bytes : List UInt8) (markerOffset : Nat)
    (signer : List UInt8) : Check (List UInt8) := do
  let (sectionCount, sectionTableOffset) ← readHeaders bytes
  let sections ← containingSections bytes markerOffset (markerOffset + markerLength) sectionCount
    sectionTableOffset
  acceptPolicySection ceq signer sections

/-- The signer that is printed. -/
def testManagerBuildPolicy (ceq : List UInt8 → List UInt8 → Bool) (bytes : List UInt8) :
    Check (List UInt8) := do
  require (0 < bytes.length ∧ bytes.length ≤ 33554432) .invalidSize
  let (markerOffset, signer) ← findMarker bytes
  acceptImage ceq bytes markerOffset signer

end Headers

end FfbInterceptor.Release
