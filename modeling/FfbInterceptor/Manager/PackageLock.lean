import FfbInterceptor.Manager.Files

/-! The read lock on a package: handles that keep its files from being replaced (`manager_model.cpp`). -/
namespace FfbInterceptor.Manager
open FfbInterceptor.Launcher

inductive LockError where
  | invalidRoot
  | cannotLock (path : WString)
  | cannotInspect (path : WString)
  | wrongKind (path : WString)
  | cannotResolve (path : WString)
  | outsideRoot (path : WString)
  | rootNotLocal
  | read (error : ReadError)
  | manifest (error : Option ManifestError)
  deriving DecidableEq, Repr

def LockError.text : LockError → WString
  | .invalidRoot => wide "套件讀取鎖的根目錄無效。"
  | .cannotLock path => wide "無法鎖定套件檔案以避免執行前遭替換：" ++ path
  | .cannotInspect path => wide "無法檢查套件鎖定路徑：" ++ path
  | .wrongKind path => wide "套件含有缺漏、類型錯誤或重新導向的路徑：" ++ path
  | .cannotResolve path => wide "無法解析套件鎖定路徑：" ++ path
  | .outsideRoot path => wide "套件鎖定路徑解析到根目錄之外：" ++ path
  | .rootNotLocal => wide "套件根目錄解析後不是本機磁碟。"
  | .read error => wide error.text
  | .manifest error => (error.map fun error => wide error.text).getD []

section Within

/-- `_wcsnicmp(left.c_str(), right.c_str(), count) == 0`. -/
def equalIgnoringCaseUpTo (count : Nat) (left right : WString) : Bool :=
  lowerCopy (cString (left.take count)) = lowerCopy (cString (right.take count))

def startsWithCaseInsensitive (value start : WString) : Bool :=
  start.length ≤ value.length && equalIgnoringCaseUpTo start.length value start

def isWideSeparator (c : UInt16) : Bool := c = backslash || c = wideSlash

def pathWithinOrEqual (path directory : WString) : Bool :=
  equalIgnoringCase path directory ||
    startsWithCaseInsensitive path (directory.rdropWhile isWideSeparator ++ [backslash])

end Within

section Locking

variable (system : System)

/-- The lock's handles, the root it was taken on, and the world around it. -/
structure Locking where
  world : World
  handles : List Handle
  lockedRoot : WString

structure Locked where
  error : Option LockError
  locking : Locking

def Locking.clear (locking : Locking) : Locking :=
  { locking with world := locking.world.closeAll locking.handles, handles := [] }

/-- The handle that `lock_path` opens. -/
def lockRequest (path : WString) (directory : Bool) : OpenRequest :=
  ⟨path, !directory, false, false, directory⟩

def lockPath (locking : Locking) (path : WString) (directory requireWithinRoot : Bool) : Locked :=
  match locking.world.createFile system (lockRequest path directory) with
  | (none, world) => ⟨some (.cannotLock path), { locking with world }⟩
  | (some candidate, world) =>
    let failed (error : LockError) : Locked :=
      ⟨some error, { locking with world := world.close candidate }⟩
    match system.fileInformation candidate with
    | none => failed (.cannotInspect path)
    | some information =>
      if information.reparsePoint || information.directory ≠ directory then failed (.wrongKind path)
      else match finalPathForHandle system candidate with
        | none => failed (.cannotResolve path)
        | some finalPath =>
          if requireWithinRoot then
            if locking.lockedRoot.isEmpty || !pathWithinOrEqual finalPath locking.lockedRoot then
              failed (.outsideRoot path)
            else ⟨none, { locking with world, handles := locking.handles ++ [candidate] }⟩
          else if !pathIsAbsoluteLocal system.getDriveType finalPath then failed .rootNotLocal
          else ⟨none, ⟨world, locking.handles ++ [candidate], finalPath⟩⟩

/-- The folders of a relative path: what stands in front of each of its separators. -/
def foldersFrom (front : WString) : WString → List WString
  | [] => []
  | c :: rest =>
    if c = backslash then front :: foldersFrom (front ++ [c]) rest
    else foldersFrom (front ++ [c]) rest

def foldersOf (relativePath : WString) : List WString := foldersFrom [] relativePath

/-- The loop over the folders of an entry. `lockedDirectories` holds the folders that are locked. -/
def lockFolders (root : WString) (lockedDirectories : List WString) (locking : Locking) :
    List WString → List WString × Locked
  | [] => (lockedDirectories, ⟨none, locking⟩)
  | folder :: folders =>
    if lockedDirectories.contains (lowerCopy folder) then
      lockFolders root lockedDirectories locking folders
    else
      let lockedDirectories := lockedDirectories ++ [lowerCopy folder]
      match lockPath system locking (joinPath root folder) true true with
      | ⟨some error, locking⟩ => (lockedDirectories, ⟨some error, locking⟩)
      | ⟨none, locking⟩ => lockFolders root lockedDirectories locking folders

def lockEntries (root : WString) (lockedDirectories : List WString) (locking : Locking) :
    List ManifestEntry → Locked
  | [] => ⟨none, locking⟩
  | entry :: entries =>
    match lockFolders system root lockedDirectories locking (foldersOf entry.relativePath) with
    | (_, ⟨some error, locking⟩) => ⟨some error, locking⟩
    | (lockedDirectories, ⟨none, locking⟩) =>
      match lockPath system locking (joinPath root entry.relativePath) false true with
      | ⟨some error, locking⟩ => ⟨some error, locking⟩
      | ⟨none, locking⟩ => lockEntries root lockedDirectories locking entries

/-- A failure behind the first lock clears the lock. -/
def Locked.clearFailed (locked : Locked) : Locked :=
  if locked.error.isSome then { locked with locking := locked.locking.clear } else locked

/-- What follows once the lock is cleared, up to the clearing of a failed lock. -/
def lockPackage (layout : PackageLayout) (locking : Locking) : Locked :=
  match lockPath system locking layout.root true false with
  | ⟨some error, locking⟩ => ⟨some error, locking⟩
  | ⟨none, locking⟩ =>
    match lockPath system locking layout.manifestPath false true with
    | ⟨some error, locking⟩ => ⟨some error, locking⟩
    | ⟨none, locking⟩ =>
      match readFileLimited system locking.world layout.manifestPath kMaximumManifestBytes with
      | (.error error, world) => ⟨some (.read error), { locking with world }⟩
      | (.ok contents, world) =>
        let parsed := parseManifestText contents
        if parsed.succeeded then
          lockEntries system layout.root [] { locking with world } parsed.entries
        else ⟨some (.manifest parsed.error), { locking with world }⟩

def acquirePackageReadLock (layout : PackageLayout) (world : World) (handles : List Handle) : Locked :=
  if !pathIsAbsoluteLocal system.getDriveType layout.root then
    ⟨some .invalidRoot, ⟨world, handles, []⟩⟩
  else (lockPackage system layout (Locking.clear ⟨world, handles, []⟩)).clearFailed

end Locking

end FfbInterceptor.Manager
