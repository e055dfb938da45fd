import FfbInterceptor.Manager.Manifest
import FfbInterceptor.Manager.Paths

/-! Files as the manager opens and reads them (`manager_model.cpp`). Windows answers as it likes: every
attempt to open has a number, and what a handle tells depends on the attempt it comes from. -/
namespace FfbInterceptor.Manager
open FfbInterceptor.Launcher

/-- The arguments of `CreateFileW` that differ between calls. All calls share reading, open existing
files only and open reparse points as such. -/
structure OpenRequest where
  path : WString
  readsData : Bool
  sharesWriting : Bool
  sharesDeletion : Bool
  backupSemantics : Bool
  deriving DecidableEq, Repr

structure Handle where
  number : Nat
  request : OpenRequest
  deriving DecidableEq, Repr

structure FileAttributes where
  directory : Bool
  reparsePoint : Bool
  deriving DecidableEq, Repr

structure System where
  createFile : Nat → OpenRequest → Bool
  fileInformation : Handle → Option FileAttributes
  finalPathLength : Handle → Nat
  finalPathName : Handle → WString
  fileSize : Handle → Option Int
  readFile : Handle → Nat → Nat → Option (List UInt8)
  getDriveType : WString → DriveType

structure World where
  attempts : Nat
  live : List Handle
  fresh : ∀ handle ∈ live, handle.number < attempts

def World.initial : World := ⟨0, [], fun _ h => absurd h List.not_mem_nil⟩

/-- `_wcsicmp(left.c_str(), right.c_str()) == 0`. -/
def equalIgnoringCase (left right : WString) : Bool :=
  lowerCopy (cString left) = lowerCopy (cString right)

section Opening

variable (system : System) (world : World)

def World.createFile (request : OpenRequest) : Option Handle × World :=
  if system.createFile world.attempts request then
    (some ⟨world.attempts, request⟩,
      { attempts := world.attempts + 1
        live := ⟨world.attempts, request⟩ :: world.live
        fresh := List.forall_mem_cons.mpr ⟨Nat.lt_succ_self _,
          fun handle hmem => Nat.lt_succ_of_lt (world.fresh handle hmem)⟩ })
  else
    (none, { world with
      attempts := world.attempts + 1
      fresh := fun handle hmem => Nat.lt_succ_of_lt (world.fresh handle hmem) })

def World.close (handle : Handle) : World :=
  { world with
    live := world.live.filter (· ≠ handle)
    fresh := fun other hmem => world.fresh other (List.mem_of_mem_filter hmem) }

def World.closeAll (handles : List Handle) : World := handles.foldl World.close world

def stripExtendedStart (path : WString) : WString :=
  if (wide "\\\\?\\UNC\\").isPrefixOf path then wide "\\\\" ++ path.drop 8
  else if (wide "\\\\?\\").isPrefixOf path then path.drop 4
  else path

def finalPathForHandle (handle : Handle) : Option WString :=
  let required := system.finalPathLength handle
  let written := system.finalPathName handle
  if required = 0 || 32768 < required then none
  else if written.length = 0 || required + 1 ≤ written.length then none
  else some (stripExtendedStart written)

def openRegularFile (path : WString) : Option Handle × World :=
  match world.createFile system ⟨path, true, true, true, false⟩ with
  | (none, world) => (none, world)
  | (some handle, world) =>
    match system.fileInformation handle with
    | none => (none, world.close handle)
    | some attributes =>
      if attributes.directory || attributes.reparsePoint then (none, world.close handle)
      else (some handle, world)

end Opening

section Reading

inductive ReadError where
  | notRegular
  | tooLarge
  | incomplete
  deriving DecidableEq, Repr

def ReadError.text : ReadError → String
  | .notRegular => "找不到一般檔案，或檔案是重新導向連結。"
  | .tooLarge => "檔案大小超過安全上限。"
  | .incomplete => "無法完整讀取檔案。"

variable (system : System)

/-- The loop of `read_file_limited`. Every round reads at least one byte. -/
def readLoop (handle : Handle) (size : Nat) : Nat → List UInt8 → Option (List UInt8)
  | 0, contents => some contents
  | fuel + 1, contents =>
    if size ≤ contents.length then some contents
    else
      let requested := min (size - contents.length) 0xFFFFFFFF
      match system.readFile handle contents.length requested with
      | none | some [] => none
      | some bytes => readLoop handle size fuel (contents ++ bytes.take requested)

def readFileLimited (world : World) (path : WString) (limit : Nat) :
    Except ReadError (List UInt8) × World :=
  match openRegularFile system world path with
  | (none, world) => (.error .notRegular, world)
  | (some handle, world) =>
    match system.fileSize handle with
    | none => (.error .tooLarge, world.close handle)
    | some size =>
      if size < 0 || (limit : Int) < size then (.error .tooLarge, world.close handle)
      else match readLoop system handle size.toNat size.toNat [] with
        | none => (.error .incomplete, world.close handle)
        | some contents => (.ok contents, world.close handle)

end Reading

def kManifestName : WString := wide "SHA256SUMS.txt"

/-- The parts of a package's layout that its checks use. -/
structure PackageLayout where
  root : WString
  manifestPath : WString
  deriving DecidableEq, Repr

def makePackageLayout (root : WString) : PackageLayout := ⟨root, joinPath root kManifestName⟩

/-- The manifest is there and can be parsed. -/
def HasManifest (system : System) (world : World) (layout : PackageLayout)
    (entries : List ManifestEntry) : Prop :=
  ∃ contents, (readFileLimited system world layout.manifestPath kMaximumManifestBytes).1 =
      .ok contents ∧
    parseManifestText contents = ⟨true, entries, none⟩

end FfbInterceptor.Manager
