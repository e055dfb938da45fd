import FfbInterceptor.Engine.Settings
import FfbInterceptor.Library.Mirrors
import FfbInterceptor.Library.Utf8
import Mathlib.Data.List.Lex
import Mathlib.Data.List.Sort

/-! The canonical ZIP archive of a release: how it is collected, written and verified. -/
namespace FfbInterceptor.Release
open FfbInterceptor.Library
open FfbInterceptor.Engine (utf16Units)
open FfbInterceptor.Server (isWhiteSpace)

section Crc

/-- One bit of the checksum: the polynomial is taken away where the lowest bit is set. -/
def crcBit (crc : UInt32) : UInt32 := (crc >>> 1) ^^^ (0xEDB88320 &&& (0 - (crc &&& 1)))

def crcByte (crc : UInt32) (byte : UInt8) : UInt32 :=
  crcBit (crcBit (crcBit (crcBit (crcBit (crcBit (crcBit (crcBit (crc ^^^ byte.toUInt32))))))))

def ReleaseArchiveCrc32.compute (data : List UInt8) : UInt32 := ~~~(data.foldl crcByte 0xFFFFFFFF)

def streamReads (size : Nat) : Nat → List UInt8 → List (List UInt8)
  | 0, _ => []
  | fuel + 1, data => if data = [] then [] else data.take size :: streamReads size fuel (data.drop size)

def ArchiveCrc32.compute (data : List UInt8) : UInt32 :=
  ~~~((streamReads 81920 data.length data).foldl (fun crc buffer => buffer.foldl crcByte crc) 0xFFFFFFFF)

end Crc

section Source

structure Attributes where
  reparsePoint : Bool := false
  lastWriteTime : Nat := 0
  deriving DecidableEq, Repr

inductive Item where
  | file (name : String) (attributes : Attributes) (content : List UInt8)
  | directory (name : String) (attributes : Attributes) (items : List Item)

structure SourceTree where
  sourceRoot : String
  attributes : Attributes := {}
  items : List Item

structure Entry where
  name : String
  content : List UInt8
  deriving DecidableEq, Repr

/-- How the runtime compares texts: the folding behind `StringComparer.OrdinalIgnoreCase` and
PowerShell's `-eq`. -/
structure TextRules where
  ignoreCase : List UInt16 → List UInt16
  equal : String → String → Bool

variable (rules : TextRules)

/-- `StringComparer.Ordinal` compares code units. -/
def ordinalKey (name : String) : List Nat := (utf16Units name).map UInt16.toNat

def ignoreCaseKey (name : String) : List UInt16 := rules.ignoreCase (utf16Units name)

def isControlCharacter (c : Char) : Bool := c.toNat ≤ 0x1F || c.toNat = 0x7F

def isCanonicalSegment (segment : List Char) : Bool :=
  !(segment.all isWhiteSpace || rules.equal (String.ofList segment) "." ||
    rules.equal (String.ofList segment) ".." || segment.contains ':' ||
    segment.getLast? = some '.' || segment.getLast? = some ' ')

def isCanonicalEntryName (entryName : String) : Bool :=
  !(entryName.toList.all isWhiteSpace || entryName.toList.head? = some '/' ||
    entryName.toList.contains '\\' || entryName.toList.any isControlCharacter) &&
    (entryName.toList.splitOn '/').all (isCanonicalSegment rules)

def getFileName (path : String) : String :=
  String.ofList (path.toList.reverse.takeWhile fun c => c != '\\' && c != '/' && c != ':').reverse

/-- The name of a file below the root, behind the name of the root where it is included. -/
def entryNameOf (root : String) (path : List String) : String :=
  let relative := (String.intercalate "\\" path).map fun c => if c = '\\' then '/' else c
  if root = "" then relative else root ++ "/" ++ relative

/-- What the collecting loop keeps: the directories to visit, the sorted entries and their names. -/
structure Collected where
  pendingDirectories : List (List String × List Item) := []
  entries : List Entry := []
  seenEntries : List (List UInt16) := []

def addEntry (entry : Entry) : List Entry → List Entry :=
  List.orderedInsert (fun a b => ordinalKey a.name ≤ ordinalKey b.name) entry

def collectItem (root : String) (path : List String) (collected : Collected) :
    Item → Except String Collected
  | .directory name attributes items =>
    if attributes.reparsePoint then
      .error ("Refusing a reparse-point archive source: " ++ String.intercalate "\\" (path ++ [name]))
    else .ok { collected with
      pendingDirectories := (path ++ [name], items) :: collected.pendingDirectories }
  | .file name attributes content =>
    if attributes.reparsePoint then
      .error ("Refusing a reparse-point archive source: " ++ String.intercalate "\\" (path ++ [name]))
    else
      let entryName := entryNameOf root (path ++ [name])
      if ¬ isCanonicalEntryName rules entryName then
        .error ("Refusing a non-canonical archive entry name: " ++ entryName)
      else if ignoreCaseKey rules entryName ∈ collected.seenEntries ∨
          (∃ entry ∈ collected.entries, ordinalKey entry.name = ordinalKey entryName) then
        .error ("Refusing a duplicate archive entry name: " ++ entryName)
      else .ok { collected with
        entries := addEntry ⟨entryName, content⟩ collected.entries
        seenEntries := ignoreCaseKey rules entryName :: collected.seenEntries }

def collectItems (root : String) (path : List String) :
    List Item → Collected → Except String Collected
  | [], collected => .ok collected
  | item :: items, collected =>
    match collectItem rules root path collected item with
    | .error message => .error message
    | .ok collected => collectItems root path items collected

def collectDirectories (root : String) : Nat → Collected → Except String Collected
  | 0, collected => .ok collected
  | fuel + 1, collected =>
    match collected.pendingDirectories with
    | [] => .ok collected
    | (path, items) :: pending =>
      match collectItems rules root path items { collected with pendingDirectories := pending } with
      | .error message => .error message
      | .ok collected => collectDirectories root fuel collected

mutual

def Item.directories : Item → Nat
  | .file _ _ _ => 0
  | .directory _ _ items => directoriesIn items + 1

def directoriesIn : List Item → Nat
  | [] => 0
  | item :: items => item.directories + directoriesIn items

end

def archiveRoot (source : SourceTree) (includeBaseDirectory : Bool) : Except String String :=
  if includeBaseDirectory then
    let root := getFileName source.sourceRoot
    if root.toList.all isWhiteSpace || root.toList.any (fun c => c = '/' || c = '\\' || c = ':') then
      .error ("Archive source has an unsafe base name: " ++ source.sourceRoot)
    else .ok root
  else .ok ""

def collectEntries (source : SourceTree) (includeBaseDirectory : Bool) : Except String (List Entry) :=
  if source.attributes.reparsePoint then
    .error ("Refusing a reparse-point archive root: " ++ source.sourceRoot)
  else
    match archiveRoot source includeBaseDirectory with
    | .error message => .error message
    | .ok root =>
      match collectDirectories rules root (directoriesIn source.items + 1)
          { pendingDirectories := [([], source.items)] } with
      | .error message => .error message
      | .ok collected =>
        if collected.entries.length = 0 then
          .error ("Archive source contains no files: " ++ source.sourceRoot)
        else .ok collected.entries

end Source

section Writer

structure CentralEntry where
  nameBytes : List UInt8
  crc32 : UInt32
  size : UInt32
  localOffset : UInt32
  deriving DecidableEq, Repr

def dosTime : UInt16 := 0
def dosDate : UInt16 := 0x2821

def uint16MaxValue : Nat := 0xFFFF
def uint32MaxValue : Nat := 0xFFFFFFFF

def localRecord (entry : CentralEntry) (content : List UInt8) : List UInt8 :=
  uint32Bytes 0x04034B50 ++ uint16Bytes 20 ++ uint16Bytes 0x0800 ++ uint16Bytes 0 ++
    uint16Bytes dosTime ++ uint16Bytes dosDate ++ uint32Bytes entry.crc32 ++ uint32Bytes entry.size ++
    uint32Bytes entry.size ++ uint16Bytes entry.nameBytes.length.toUInt16 ++ uint16Bytes 0 ++
    entry.nameBytes ++ content

def centralRecord (entry : CentralEntry) : List UInt8 :=
  uint32Bytes 0x02014B50 ++ uint16Bytes 20 ++ uint16Bytes 20 ++ uint16Bytes 0x0800 ++ uint16Bytes 0 ++
    uint16Bytes dosTime ++ uint16Bytes dosDate ++ uint32Bytes entry.crc32 ++ uint32Bytes entry.size ++
    uint32Bytes entry.size ++ uint16Bytes entry.nameBytes.length.toUInt16 ++ uint16Bytes 0 ++
    uint16Bytes 0 ++ uint16Bytes 0 ++ uint16Bytes 0 ++ uint32Bytes 0 ++
    uint32Bytes entry.localOffset ++ entry.nameBytes

def endRecord (entryCount : UInt16) (centralSize centralOffset : UInt32) : List UInt8 :=
  uint32Bytes 0x06054B50 ++ uint16Bytes 0 ++ uint16Bytes 0 ++ uint16Bytes entryCount ++
    uint16Bytes entryCount ++ uint32Bytes centralSize ++ uint32Bytes centralOffset ++ uint16Bytes 0

structure Written where
  fileStream : List UInt8 := []
  centralEntries : List CentralEntry := []

def writeEntry (written : Written) (entry : Entry) : Except String Written :=
  let nameBytes := utf8Bytes entry.name.toList
  if uint16MaxValue < nameBytes.length then
    .error ("Archive entry name is too long: " ++ entry.name)
  else if uint32MaxValue ≤ written.fileStream.length then
    .error "Archive exceeds the classic ZIP offset limit."
  else if uint32MaxValue ≤ entry.content.length then
    .error ("Archive entry exceeds the classic ZIP size limit: " ++ entry.name)
  else
    let central : CentralEntry :=
      { nameBytes, crc32 := ArchiveCrc32.compute entry.content, size := entry.content.length.toUInt32
        localOffset := written.fileStream.length.toUInt32 }
    .ok { fileStream := written.fileStream ++ localRecord central entry.content
          centralEntries := written.centralEntries ++ [central] }

def writeEntries : List Entry → Written → Except String Written
  | [], written => .ok written
  | entry :: entries, written =>
    match writeEntry written entry with
    | .error message => .error message
    | .ok written => writeEntries entries written

def writeArchive (entries : List Entry) : Except String (List UInt8) :=
  match writeEntries entries {} with
  | .error message => .error message
  | .ok written =>
    if uint16MaxValue ≤ written.centralEntries.length then
      .error "Archive has too many entries for classic ZIP."
    else if uint32MaxValue ≤ written.fileStream.length then
      .error "Archive exceeds the classic ZIP offset limit."
    else
      let centralOffset := written.fileStream.length.toUInt32
      let fileStream := written.centralEntries.foldl (fun out entry => out ++ centralRecord entry)
        written.fileStream
      let centralSizeValue := fileStream.length - centralOffset.toNat
      if uint32MaxValue ≤ centralSizeValue then
        .error "Archive central directory exceeds the classic ZIP size limit."
      else
        .ok (fileStream ++ endRecord written.centralEntries.length.toUInt16 centralSizeValue.toUInt32
          centralOffset)

def newCanonicalZipArchive (rules : TextRules) (source : SourceTree) (includeBaseDirectory : Bool) :
    Except String (List UInt8) :=
  match collectEntries rules source includeBaseDirectory with
  | .error message => .error message
  | .ok entries => writeArchive entries

end Writer

section Verifier

abbrev ZipReader (α : Type) := Reader UInt8 String α

def readUInt16 : ZipReader UInt16 := word16Reader "Unable to read beyond the end of the stream."
def readUInt32 : ZipReader UInt32 := word32Reader "Unable to read beyond the end of the stream."
def readBytes (count : Nat) : ZipReader (List UInt8) := upTo count

structure EndRecord where
  entriesOnDisk : UInt16
  entryCount : UInt16
  centralSize : UInt32
  centralOffset : UInt32
  commentLength : UInt16
  deriving DecidableEq, Repr

def readEndRecord : ZipReader EndRecord := do
  let entriesOnDisk ← readUInt16
  let entryCount ← readUInt16
  let centralSize ← readUInt32
  let centralOffset ← readUInt32
  let commentLength ← readUInt16
  return { entriesOnDisk, entryCount, centralSize, centralOffset, commentLength }

structure LocalHeader where
  versionNeeded : UInt16
  flags : UInt16
  method : UInt16
  dosTime : UInt16
  dosDate : UInt16
  crc32 : UInt32
  compressedSize : UInt32
  uncompressedSize : UInt32
  nameLength : UInt16
  extraLength : UInt16
  deriving DecidableEq, Repr

def readLocalHeader : ZipReader LocalHeader := do
  let versionNeeded ← readUInt16
  let flags ← readUInt16
  let method ← readUInt16
  let dosTime ← readUInt16
  let dosDate ← readUInt16
  let crc32 ← readUInt32
  let compressedSize ← readUInt32
  let uncompressedSize ← readUInt32
  let nameLength ← readUInt16
  let extraLength ← readUInt16
  return { versionNeeded, flags, method, dosTime, dosDate, crc32, compressedSize, uncompressedSize,
           nameLength, extraLength }

structure CentralHeader where
  versionMadeBy : UInt16
  versionNeeded : UInt16
  flags : UInt16
  method : UInt16
  dosTime : UInt16
  dosDate : UInt16
  crc32 : UInt32
  compressedSize : UInt32
  uncompressedSize : UInt32
  nameLength : UInt16
  extraLength : UInt16
  entryCommentLength : UInt16
  diskNumber : UInt16
  internalAttributes : UInt16
  externalAttributes : UInt32
  localOffset : UInt32
  deriving DecidableEq, Repr

def readCentralHeader : ZipReader CentralHeader := do
  let versionMadeBy ← readUInt16
  let versionNeeded ← readUInt16
  let flags ← readUInt16
  let method ← readUInt16
  let dosTime ← readUInt16
  let dosDate ← readUInt16
  let crc32 ← readUInt32
  let compressedSize ← readUInt32
  let uncompressedSize ← readUInt32
  let nameLength ← readUInt16
  let extraLength ← readUInt16
  let entryCommentLength ← readUInt16
  let diskNumber ← readUInt16
  let internalAttributes ← readUInt16
  let externalAttributes ← readUInt32
  let localOffset ← readUInt32
  return { versionMadeBy, versionNeeded, flags, method, dosTime, dosDate, crc32, compressedSize,
           uncompressedSize, nameLength, extraLength, entryCommentLength, diskNumber,
           internalAttributes, externalAttributes, localOffset }

/-- What the verifier keeps of a local record; the source drops `data` after its checksum. -/
structure Local where
  name : String
  nameBytes : List UInt8
  crc32 : UInt32
  size : UInt32
  offset : UInt32
  data : List UInt8
  deriving DecidableEq, Repr

def Local.entry (l : Local) : Entry := ⟨l.name, l.data⟩

/-- `[Text.UTF8Encoding]::GetString`, which throws on what is not UTF-8. -/
def getString (bytes : List UInt8) : ZipReader String :=
  match String.fromUTF8? bytes.toByteArray with
  | some text => return text
  | none => throw "Release package local entry name is not strict UTF-8."

section Loops

variable (length : Nat) (centralOffset : UInt32)

def readLocal (totalPayload : Nat) : ZipReader Local := do
  let localOffset ← position length
  throwIf (centralOffset.toNat ≤ localOffset)
    "Release package has fewer local records than its EOCD declares."
  let signature ← readUInt32
  throwIf (signature ≠ 0x04034B50) "Release package local records are not contiguous and canonical."
  let header ← readLocalHeader
  throwIf (header.versionNeeded ≠ 20 ∨ header.flags ≠ 0x0800 ∨ header.method ≠ 0 ∨
      header.dosTime ≠ 0 ∨ header.dosDate ≠ 0x2821 ∨
      header.compressedSize ≠ header.uncompressedSize ∨ 134217728 < header.compressedSize.toNat ∨
      header.nameLength < 1 ∨ header.extraLength ≠ 0)
    "Release package local header is not canonical stored UTF-8 ZIP."
  let nameBytes ← readBytes header.nameLength.toNat
  throwIf (nameBytes.length ≠ header.nameLength.toNat)
    "Release package local entry name is truncated."
  let name ← getString nameBytes
  let data ← readBytes header.compressedSize.toNat
  let reached ← position length
  throwIf (data.length ≠ header.compressedSize.toNat ∨ centralOffset.toNat < reached)
    ("Release package local payload is truncated or overlaps metadata: " ++ name)
  throwIf (536870912 < totalPayload + header.compressedSize.toNat ∨
      ReleaseArchiveCrc32.compute data ≠ header.crc32)
    ("Release package local payload size or CRC is invalid: " ++ name)
  return { name, nameBytes, crc32 := header.crc32, size := header.compressedSize
           offset := localOffset.toUInt32, data }

def readLocals : Nat → Nat → ZipReader (List Local)
  | 0, _ => return []
  | count + 1, totalPayload => do
    let l ← readLocal length centralOffset totalPayload
    let locals ← readLocals count (totalPayload + l.size.toNat)
    return l :: locals

end Loops

def readCentral (l : Local) : ZipReader PUnit := do
  let signature ← readUInt32
  throwIf (signature ≠ 0x02014B50)
    "Release package central directory is truncated or non-canonical."
  let header ← readCentralHeader
  throwIf (header.versionMadeBy ≠ 20 ∨ header.versionNeeded ≠ 20 ∨ header.flags ≠ 0x0800 ∨
      header.method ≠ 0 ∨ header.dosTime ≠ 0 ∨ header.dosDate ≠ 0x2821 ∨ header.crc32 ≠ l.crc32 ∨
      header.compressedSize ≠ l.size ∨ header.uncompressedSize ≠ l.size ∨ header.extraLength ≠ 0 ∨
      header.entryCommentLength ≠ 0 ∨ header.diskNumber ≠ 0 ∨ header.internalAttributes ≠ 0 ∨
      header.externalAttributes ≠ 0 ∨ header.localOffset ≠ l.offset)
    ("Release package central/local metadata mismatch: " ++ l.name)
  let nameBytes ← readBytes header.nameLength.toNat
  throwIf (header.nameLength < 1 ∨ nameBytes.length ≠ header.nameLength.toNat ∨
      nameBytes ≠ l.nameBytes)
    ("Release package central/local entry-name mismatch: " ++ l.name)

def readCentrals : List Local → ZipReader PUnit
  | [] => return
  | l :: locals => do
    readCentral l
    readCentrals locals

/-- The end record where the stream is placed, with the checks in front of the loops. -/
def readEnd (eocdOffset : Nat) : ZipReader EndRecord := do
  let signature ← readUInt32
  let diskNumber ← readUInt16
  let centralDisk ← readUInt16
  throwIf (signature ≠ 0x06054B50 ∨ diskNumber ≠ 0 ∨ centralDisk ≠ 0)
    "Release package has no canonical single-disk EOCD."
  let record ← readEndRecord
  throwIf (record.entryCount < 1 ∨ 64 < record.entryCount ∨
      record.entriesOnDisk ≠ record.entryCount ∨ record.commentLength ≠ 0 ∨
      record.centralOffset.toNat + record.centralSize.toNat ≠ eocdOffset)
    "Release package EOCD is not canonical or has trailing/overlapping data."
  return record

def readRecords (length eocdOffset : Nat) (record : EndRecord) : ZipReader (List Local) := do
  let locals ← readLocals length record.centralOffset record.entryCount.toNat 0
  let reached ← position length
  throwIf (reached ≠ record.centralOffset.toNat)
    "Release package has undeclared data between local records and central directory."
  readCentrals locals
  let reached ← position length
  throwIf (reached ≠ eocdOffset)
    "Release package central directory size/count does not match the EOCD."
  return locals

def assertFFBCanonicalStoredZip (bytes : List UInt8) : Except String (List Local) :=
  if bytes.length < 22 ∨ 268435456 < bytes.length then
    .error "Release package is outside the canonical ZIP size bounds."
  else
    let eocdOffset := bytes.length - 22
    match (readEnd eocdOffset).run (bytes.drop eocdOffset) with
    | .error message => .error message
    | .ok (record, _) =>
      match (readRecords bytes.length eocdOffset record).run bytes with
      | .error message => .error message
      | .ok (locals, _) => .ok locals

end Verifier

end FfbInterceptor.Release
