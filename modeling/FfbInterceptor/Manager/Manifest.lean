import Mathlib.Data.List.DropRight
import FfbInterceptor.Launcher.Arguments

/-! The manifest of a package and its parser (`manager_model.cpp`). -/
namespace FfbInterceptor.Manager
open FfbInterceptor.Launcher

section Characters

def slash : UInt8 := 0x2F
def backslashByte : UInt8 := 0x5C
def dot : UInt8 := 0x2E
def spaceByte : UInt8 := 0x20
def colon : UInt8 := 0x3A
def lineFeed : UInt8 := 0x0A
def carriageReturn : UInt8 := 0x0D

def toUpper (c : UInt8) : UInt8 := if 0x61 ≤ c && c ≤ 0x7A then c - 0x20 else c

/-- `towupper` and `towlower` of the C locale. -/
def wideUpper (c : UInt16) : UInt16 := if 0x61 ≤ c && c ≤ 0x7A then c - 0x20 else c

def wideLower (c : UInt16) : UInt16 := if 0x41 ≤ c && c ≤ 0x5A then c + 0x20 else c

def lowerCopy (value : WString) : WString := value.map wideLower

def isHexCharacter (c : UInt8) : Bool :=
  (0x30 ≤ c && c ≤ 0x39) || (0x61 ≤ c && c ≤ 0x66) || (0x41 ≤ c && c ≤ 0x46)

def asciiToWide (value : List UInt8) : WString := value.map UInt8.toUInt16

def ascii (text : String) : List UInt8 := text.toList.map fun c => c.toNat.toUInt8

/-- Only letters have another small letter. -/
theorem wideLower_eq_iff {c d : UInt16} (h : d < 0x41 ∨ 0x7A < d) : wideLower c = d ↔ c = d := by
  rw [wideLower]
  split
  · next hupper =>
    simp only [Bool.and_eq_true, decide_eq_true_eq, UInt16.le_iff_toNat_le] at hupper
    rw [UInt16.lt_iff_toNat_lt, UInt16.lt_iff_toNat_lt] at h
    rw [← UInt16.toNat_inj, ← UInt16.toNat_inj, UInt16.toNat_add]
    simp only [UInt16.reduceToNat] at hupper h ⊢
    omega
  · exact Iff.rfl

theorem lowerCopy_cString (value : WString) : lowerCopy (cString value) = cString (lowerCopy value) := by
  rw [cString, cString, lowerCopy, lowerCopy, List.takeWhile_map]
  congr 2
  funext c
  have hzero : wideLower c = 0 ↔ c = 0 := wideLower_eq_iff (Or.inl (by decide))
  simp only [Function.comp_apply, ne_eq, hzero]

theorem wideLower_wideUpper (c : UInt16) : wideLower (wideUpper c) = wideLower c := by
  simp only [wideUpper, wideLower, Bool.and_eq_true, decide_eq_true_eq, UInt16.le_iff_toNat_le]
  split
  · next hsmall =>
    have hdifference : (c - 0x20).toNat = c.toNat - 32 := by
      rw [UInt16.toNat_sub_of_le]
      · rfl
      · rw [UInt16.le_iff_toNat_le]
        simp only [UInt16.reduceToNat] at hsmall ⊢
        omega
    simp only [hdifference, UInt16.reduceToNat] at hsmall ⊢
    rw [if_pos (by omega), if_neg (by omega)]
    exact UInt16.sub_add_cancel c 0x20
  · rfl

end Characters

section Paths

/-- The name that decides whether a segment names a device. -/
def deviceName (segment : List UInt8) : List UInt8 :=
  ((segment.takeWhile (· ≠ dot)).rdropWhile (· = spaceByte)).map toUpper

def isNumberedDevice (name : List UInt8) : Bool :=
  name.length = 4 && ((ascii "COM").isPrefixOf name || (ascii "LPT").isPrefixOf name) &&
    0x31 ≤ name.getD 3 0 && name.getD 3 0 ≤ 0x39

def isDevice (name : List UInt8) : Bool :=
  name = ascii "CON" || name = ascii "PRN" || name = ascii "AUX" || name = ascii "NUL" ||
    name = ascii "CONIN$" || name = ascii "CONOUT$" || isNumberedDevice name

def isForbidden (c : UInt8) : Bool :=
  c < 0x20 || 0x7F ≤ c || c = 0x3C || c = 0x3E || c = 0x22 || c = 0x7C || c = 0x3F || c = 0x2A

def flushSegment (output : WString) (segment : List UInt8) : Option WString :=
  if segment.isEmpty || 255 < segment.length || segment = [dot] || segment = [dot, dot] ||
      segment.getLast? = some dot || segment.getLast? = some spaceByte then none
  else if isDevice (deviceName segment) then none
  else if segment.any isForbidden then none
  else some ((if output.isEmpty then output else output ++ [backslash]) ++ asciiToWide segment)

/-- The loop over the characters of a path. -/
def normalizeLoop (output : WString) (segment : List UInt8) : List UInt8 → Option WString
  | [] => flushSegment output segment
  | c :: rest =>
    if c = slash || c = backslashByte then
      match flushSegment output segment with
      | none => none
      | some output => normalizeLoop output [] rest
    else normalizeLoop output (segment ++ [c]) rest

def normalizeManifestPath (input : List UInt8) : Option WString :=
  if input.isEmpty || 1024 < input.length || input.head? = some slash ||
      input.head? = some backslashByte || input.contains colon then none
  else normalizeLoop [] [] input

end Paths

def kMaximumManifestBytes : Nat := 4 * 1024 * 1024
def kMaximumManifestEntries : Nat := 256

structure ManifestEntry where
  relativePath : WString
  sha256 : WString
  deriving DecidableEq, Repr

inductive ManifestError where
  | emptyOrTooLarge
  | malformedLine
  | unsafePath
  | duplicateOrTooMany
  | noFiles
  deriving DecidableEq, Repr

def ManifestError.text : ManifestError → String
  | .emptyOrTooLarge => "套件 manifest 為空或超過大小上限。"
  | .malformedLine => "套件 manifest 含有格式錯誤的資料列。"
  | .unsafePath => "套件 manifest 含有不安全的相對路徑。"
  | .duplicateOrTooMany => "套件 manifest 含有重複路徑或項目過多。"
  | .noFiles => "套件 manifest 沒有任何檔案。"

structure Parsed where
  succeeded : Bool
  entries : List ManifestEntry
  error : Option ManifestError
  deriving DecidableEq, Repr

def Parsed.failed (error : ManifestError) : Parsed := ⟨false, [], some error⟩

/-- A carriage return at the end of a line belongs to its end. -/
def popCarriageReturn (line : List UInt8) : List UInt8 :=
  if line.getLast? = some carriageReturn then line.dropLast else line

def parseLine (line : List UInt8) (entries : List ManifestEntry) :
    Except ManifestError (List ManifestEntry) :=
  if line.length < 67 || line.getD 64 0 ≠ spaceByte || line.getD 65 0 ≠ spaceByte ||
      !(line.take 64).all isHexCharacter then .error .malformedLine
  else match normalizeManifestPath (line.drop 66) with
    | none => .error .unsafePath
    | some path =>
      if (entries.map fun entry => lowerCopy entry.relativePath).contains (lowerCopy path) ||
          kMaximumManifestEntries ≤ entries.length then .error .duplicateOrTooMany
      else .ok (entries ++ [⟨path, (asciiToWide (line.take 64)).map wideUpper⟩])

/-- The loop over the lines of a text. Every round takes at least one byte, so that the length of the
text is fuel enough. -/
def parseLines : Nat → List UInt8 → List ManifestEntry → Except ManifestError (List ManifestEntry)
  | 0, _, entries => .ok entries
  | fuel + 1, text, entries =>
    if text.isEmpty then .ok entries
    else
      let line := text.takeWhile (· ≠ lineFeed)
      let rest := text.drop (line.length + 1)
      if (popCarriageReturn line).isEmpty then parseLines fuel rest entries
      else match parseLine (popCarriageReturn line) entries with
        | .error error => .error error
        | .ok entries => parseLines fuel rest entries

def parseManifestText (text : List UInt8) : Parsed :=
  if text.isEmpty || kMaximumManifestBytes < text.length then .failed .emptyOrTooLarge
  else match parseLines text.length text [] with
    | .error error => .failed error
    | .ok [] => .failed .noFiles
    | .ok entries => ⟨true, entries, none⟩

end FfbInterceptor.Manager
