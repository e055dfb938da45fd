import FfbInterceptor.Engine.Settings
import FfbInterceptor.Library.TreeWalk
import FfbInterceptor.Library.Utf8
import FfbInterceptor.Manager.PackageTree

/-! The manifest checks of the installer: the manifest and file set of
`Enter-FFBStandalonePackageBoundary` (`Install-SimHubPlugin.ps1`) and `Assert-FFBPackageManifest`
(`FFBInterceptor.Common.ps1`). Both look at a package that does not change meanwhile. -/
namespace FfbInterceptor.Installer
open FfbInterceptor.Launcher FfbInterceptor.Library FfbInterceptor.Manager

section Runtime

/-- What the checks use of .NET and is not computed here: the tables of letters beyond ASCII, full paths,
and texts that a mark at their start declares to be in another encoding than UTF-8. -/
structure Runtime where
  toLower : UInt16 → UInt16
  toUpper : UInt16 → UInt16
  getFullPath : WString → Option WString
  decodeMarked : List UInt8 → Option WString
  toLower_ascii : ∀ c, c ≤ 0x7E → toLower c = wideLower c
  toUpper_ascii : ∀ c, c ≤ 0x7E → toUpper c = wideUpper c
  toUpper_beyond : ∀ c, 0x7E < c → 0x7E < toUpper c

variable (runtime : Runtime)

def Runtime.toLowerInvariant (value : WString) : WString := value.map runtime.toLower

def Runtime.toUpperInvariant (value : WString) : WString := value.map runtime.toUpper

/-- `Equals` and `StartsWith` with `OrdinalIgnoreCase`. -/
def Runtime.equals (left right : WString) : Bool :=
  runtime.toUpperInvariant left = runtime.toUpperInvariant right

def Runtime.startsWith (value start : WString) : Bool :=
  (runtime.toUpperInvariant start).isPrefixOf (runtime.toUpperInvariant value)

def isMarked (bytes : List UInt8) : Bool :=
  [0xFE, 0xFF].isPrefixOf bytes || [0xFF, 0xFE].isPrefixOf bytes ||
    [0x00, 0x00, 0xFE, 0xFF].isPrefixOf bytes

def unmarked (bytes : List UInt8) : List UInt8 :=
  if [0xEF, 0xBB, 0xBF].isPrefixOf bytes then bytes.drop 3 else bytes

/-- A `StreamReader` over `UTF8Encoding(false, true)`, which refuses what is not UTF-8. -/
def Runtime.decodeStrict (bytes : List UInt8) : Option WString :=
  if isMarked bytes then runtime.decodeMarked bytes
  else (String.fromUTF8? (unmarked bytes).toByteArray).map wide

/-- `File.ReadAllLines` with `Encoding.UTF8`, which replaces it. -/
def Runtime.decodeReplacing (bytes : List UInt8) : Option WString :=
  if isMarked bytes then runtime.decodeMarked bytes
  else some (wide (String.ofList (decodeReplace (unmarked bytes))))

def wideReturn : UInt16 := 0x0D
def wideFeed : UInt16 := 0x0A
def wideBlank : UInt16 := 0x20
def wideDot : UInt16 := 0x2E

/-- The lines that `ReadLine` returns one after the other: a line ends in a carriage return, a line feed
or both. The flag tells of a carriage return just read. -/
def readLinesFrom (returned : Bool) (line : WString) : WString → List WString
  | [] => if line.isEmpty then [] else [line]
  | c :: rest =>
    if c = wideFeed && returned then readLinesFrom false line rest
    else if c = wideReturn then line :: readLinesFrom true [] rest
    else if c = wideFeed then line :: readLinesFrom false [] rest
    else readLinesFrom false (line ++ [c]) rest

def readLines (text : WString) : List WString := readLinesFrom false [] text

def trimEnd (path : WString) : WString := path.rdropWhile isWideSeparator

end Runtime

section Lines

/-- A row of `$expected`. The records of `Assert-FFBPackageManifest` lack `relative`. -/
structure PackageRecord where
  key : WString
  relative : WString
  path : WString
  hash : WString
  deriving DecidableEq, Repr

inductive BoundaryError where
  | notLocal (path : WString)
  | noFullPath
  | noManifest
  | unsafeOrEmptyManifest
  | missingManifest (path : WString)
  | unsafeManifest
  | undecodable
  | invalidLine (line : WString)
  | unsafePath (relative : WString)
  | nonCanonical (relative : WString)
  | duplicateOrExcessive (relative : WString)
  | escapes (relative : WString)
  | emptyManifest
  | missingRequired (path : WString)
  | reparsePoint (fullName : WString)
  | tooManyDirectories
  | tooManyFiles
  | inexact
  | reparseFile (fullName : WString)
  | unlisted (fullName : WString)
  | unverified (fullName : WString)
  deriving DecidableEq, Repr

/-- The texts of the scripts. What .NET or a cmdlet throws by itself has another text. -/
def BoundaryError.text : BoundaryError → WString
  | .notLocal path => wide "Only an absolute local drive path is allowed: " ++ path
  | .noFullPath => []
  | .noManifest => []
  | .unsafeOrEmptyManifest => wide "Package manifest is unsafe, empty, or too large."
  | .missingManifest path => wide "Package manifest is missing: " ++ path
  | .unsafeManifest => wide "Package manifest is unsafe or too large."
  | .undecodable => []
  | .invalidLine line => wide "Invalid package manifest line: " ++ line
  | .unsafePath relative => wide "Unsafe package manifest path: " ++ relative
  | .nonCanonical relative => wide "Non-canonical package manifest path: " ++ relative
  | .duplicateOrExcessive relative =>
    wide "Duplicate or excessive package manifest entry: " ++ relative
  | .escapes relative => wide "Package manifest entry escapes the package: " ++ relative
  | .emptyManifest => wide "Package manifest is empty."
  | .missingRequired path => wide "Package manifest is missing a required file: " ++ path
  | .reparsePoint fullName => wide "Package entry cannot be a reparse point: " ++ fullName
  | .tooManyDirectories => wide "Package contains too many directories."
  | .tooManyFiles => wide "Package contains too many files."
  | .inexact => wide "Package manifest does not cover the exact extracted file set."
  | .reparseFile fullName => wide "Package file cannot be a reparse point: " ++ fullName
  | .unlisted fullName => wide "Package contains a file not listed in its manifest: " ++ fullName
  | .unverified fullName => wide "Package manifest verification failed: " ++ fullName

def isHexUnit (c : UInt16) : Bool :=
  (0x41 ≤ c && c ≤ 0x46) || (0x61 ≤ c && c ≤ 0x66) || (0x30 ≤ c && c ≤ 0x39)

/-- `-match '^([A-Fa-f0-9]{64})  (.+)$'` on a single line: the two groups. -/
def matchLine (line : WString) : Option (WString × WString) :=
  if (line.take 64).all isHexUnit && [wideBlank, wideBlank].isPrefixOf (line.drop 64) &&
      67 ≤ line.length then some (line.take 64, line.drop 66)
  else none

def isPathRooted (path : WString) : Bool :=
  path.head?.any isWideSeparator || path.tail.head? = some wideColon

/-- A segment that is not its own spelling. -/
def isNonCanonical (segment : WString) : Bool :=
  segment.all Engine.isWhiteSpaceUnit || segment = [wideDot] || segment = [wideDot, wideDot] ||
    segment.getLast? = some wideDot || segment.getLast? = some wideBlank

def replaceSlashes (path : WString) : WString :=
  path.map fun c => if c = wideSlash then backslash else c

variable (runtime : Runtime) (root : WString)

def testChildPath (path : WString) : Bool := runtime.startsWith path (trimEnd root ++ [backslash])

def testPathWithinOrEqual (path : WString) : Bool :=
  if runtime.equals path root then true
  else runtime.startsWith path (trimEnd root ++ [backslash])

/-- `$expected.ContainsKey`: the names of a hash table do not tell capital from small letters. -/
def Runtime.containsKey (expected : List PackageRecord) (key : WString) : Bool :=
  expected.any fun record => runtime.equals record.key key

/-- What a line adds; `within` is the check by which a path must not leave the package. -/
def addLine (within : WString → Bool) (expected : List PackageRecord) (line : WString) :
    Except BoundaryError (List PackageRecord) :=
  match matchLine line with
  | none => .error (.invalidLine line)
  | some (hash, path) =>
    let relative := replaceSlashes path
    if isPathRooted relative || relative.contains wideColon then .error (.unsafePath relative)
    else
      let segments := relative.splitOn backslash
      if segments.isEmpty || segments.any isNonCanonical then .error (.nonCanonical relative)
      else
        let key := runtime.toLowerInvariant relative
        if runtime.containsKey expected key || 128 ≤ expected.length then
          .error (.duplicateOrExcessive relative)
        else match runtime.getFullPath (joinPath root relative) with
          | none => .error .noFullPath
          | some candidate =>
            if !within candidate then .error (.escapes relative)
            else .ok (expected ++ [⟨key, relative, candidate, runtime.toUpperInvariant hash⟩])

end Lines

section Files

def fullName (found : Found) : WString := joinPath found.directory.fullPath found.name

structure Discovery where
  directoryCount : Nat
  discoveredFiles : List Found

def discover (discovery : Discovery) (child : Found) : Except BoundaryError Discovery :=
  if child.item.attributes.reparsePoint then .error (.reparsePoint (fullName child))
  else if child.item.attributes.directory then
    if 128 < discovery.directoryCount + 1 then .error .tooManyDirectories
    else .ok { discovery with directoryCount := discovery.directoryCount + 1 }
  else if 129 ≤ discovery.discoveredFiles.length then .error .tooManyFiles
  else .ok { discovery with discoveredFiles := discovery.discoveredFiles ++ [child] }

def children (folder : Directory × List (WString × Item)) : List Found := direct folder.1 folder.2

/-- The loop over the folders; every round lists one folder of the package. -/
def discoverFiles (package : Manager.Package) : Except BoundaryError (List Found) :=
  match walk children Found.folder? discover (package.folders.length + 1)
      [(package.directory, package.items)] ⟨0, []⟩ with
  | .error error => .error error
  | .ok discovery => .ok discovery.discoveredFiles

end Files

variable (runtime : Runtime)

section Boundary

def requiredRelativePaths : List WString :=
  [wide "FFBInterceptor.Common.ps1",
    wide "Install-SimHubPlugin.ps1",
    wide "simhub\\FFBInterceptor.SimHub.dll",
    wide "simhub\\FFBInterceptor.Core.dll"]

def enterManifest (package : Manager.Package) (root : WString) (required : List WString) :
    Except BoundaryError (List PackageRecord) :=
  match package.resolve kManifestName with
  | none => .error .noManifest
  | some manifest =>
    match manifest.item with
    | .file contents =>
      if contents.length = 0 || 1048576 < contents.length then .error .unsafeOrEmptyManifest
      else match runtime.decodeStrict contents with
        | none => .error .undecodable
        | some text =>
          match (readLines text).foldlM (addLine runtime root (testChildPath runtime root)) [] with
          | .error error => .error error
          | .ok expected =>
            if expected.isEmpty then .error .emptyManifest
            else
              match required.find? fun path => !runtime.containsKey expected
                  (runtime.toLowerInvariant (replaceSlashes path)) with
              | some path => .error (.missingRequired path)
              | none => .ok expected
    | _ => .error .unsafeOrEmptyManifest

/-- What the file-set stage finds wrong with a file. -/
def fileFault (root : WString) (expected : List PackageRecord) (file : Found) : Option BoundaryError :=
  if file.item.attributes.reparsePoint then some (.reparseFile (fullName file))
  else if runtime.containsKey expected
      (runtime.toLowerInvariant ((fullName file).drop (root.length + 1))) then none
  else some (.unlisted (fullName file))

def enterFileSet (package : Manager.Package) (root : WString) (expected : List PackageRecord) :
    Except BoundaryError Unit :=
  match discoverFiles package with
  | .error error => .error error
  | .ok discoveredFiles =>
    let actualFiles := discoveredFiles.filter fun file =>
      !runtime.equals (fullName file) (joinPath root kManifestName)
    if actualFiles.length ≠ expected.length then .error .inexact
    else match actualFiles.findSome? (fileFault runtime root expected) with
      | some error => .error error
      | none => .ok ()

/-- `Enter-FFBStandalonePackageBoundary` up to the locking of the files. -/
def enterPackageBoundary (package : Manager.Package) (required : List WString) :
    Except BoundaryError (List PackageRecord) :=
  match runtime.getFullPath package.root with
  | none => .error .noFullPath
  | some fullRoot =>
    match enterManifest runtime package (trimEnd fullRoot) required with
    | .error error => .error error
    | .ok expected =>
      match enterFileSet runtime package (trimEnd fullRoot) expected with
      | .error error => .error error
      | .ok () => .ok expected

end Boundary

section Assertion

/-- `Get-FFBNormalizedLocalPath`. The root of a path on a drive has three characters. -/
def getNormalizedLocalPath (path : WString) : Except BoundaryError WString :=
  match path with
  | letter :: second :: third :: _ =>
    if isDriveLetter letter && second = wideColon && isWideSeparator third then
      match runtime.getFullPath path with
      | none => .error .noFullPath
      | some full => .ok (if 3 < full.length then trimEnd full else full)
    else .error (.notLocal path)
  | _ => .error (.notLocal path)

/-- `Get-ChildItem -File -Recurse`. What lies behind a link to a folder is not part of the package. -/
def filesBelow (behind : Found → List Found) (package : Manager.Package) : List Found :=
  package.all.flatMap fun found =>
    if found.item.attributes.directory then
      if found.item.attributes.reparsePoint then behind found else []
    else [found]

variable (sha256 : List UInt8 → Digest) (behind : Found → List Found)

def packageFileSha256 : Item → WString
  | .file contents => digestText (sha256 contents)
  | _ => []

/-- What `Assert-FFBPackageManifest` finds wrong with a file. -/
def assertFault (root : WString) (expected : List PackageRecord) (file : Found) : Option BoundaryError :=
  if file.item.attributes.reparsePoint then some (.reparseFile (fullName file))
  else
    let relative := runtime.toLowerInvariant ((fullName file).drop (root.length + 1))
    match expected.find? fun record => runtime.equals record.key relative with
    | none => some (.unverified (fullName file))
    | some record =>
      if !runtime.equals record.path (fullName file) ||
          packageFileSha256 sha256 file.item ≠ record.hash then some (.unverified (fullName file))
      else none

/-- `Assert-FFBPackageManifest`, with the records it has verified. -/
def assertPackageManifest (package : Manager.Package) : Except BoundaryError (List PackageRecord) :=
  match getNormalizedLocalPath runtime package.root with
  | .error error => .error error
  | .ok root =>
    match package.resolve kManifestName with
    | none => .error (.missingManifest (joinPath root kManifestName))
    | some manifest =>
      match manifest.item with
      | .folder _ | .link true => .error (.missingManifest (joinPath root kManifestName))
      | .link false => .error .unsafeManifest
      | .file contents =>
        if 1048576 < contents.length then .error .unsafeManifest
        else match runtime.decodeReplacing contents with
          | none => .error .undecodable
          | some text =>
            match (readLines text).foldlM (addLine runtime root (testPathWithinOrEqual runtime root))
                [] with
            | .error error => .error error
            | .ok expected =>
              let actualFiles := (filesBelow behind package).filter fun file =>
                !runtime.equals (fullName file) (joinPath root kManifestName)
              if actualFiles.length ≠ expected.length then .error .inexact
              else match actualFiles.findSome? (assertFault runtime sha256 root expected) with
                | some error => .error error
                | none => .ok expected

end Assertion

end FfbInterceptor.Installer
