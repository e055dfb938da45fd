import FfbInterceptor.Installer.Files
import FfbInterceptor.Manager.PackageLock
import FfbInterceptor.Manager.Signatures

/-! The check of a package folder against its manifest (`manager_model.cpp`). -/
namespace FfbInterceptor.Manager
open FfbInterceptor.Launcher

def kMaximumHashedFileBytes : UInt64 := 536870912
def kMaximumPackageBytes : UInt64 := 1073741824

structure FindData where
  name : WString
  attributes : FileAttributes
  deriving DecidableEq, Repr

structure FileAttributeData where
  attributes : FileAttributes
  fileSizeHigh : UInt32
  fileSizeLow : UInt32
  deriving DecidableEq, Repr

/-- The rest of what Windows answers. A search tells what it found and whether it ended with
`ERROR_NO_MORE_FILES`; `finalRoot` is where the package root is found to lie while a file is open;
`hashes` is whether every call of BCrypt succeeds for a file. -/
structure PackageSystem extends System where
  findFiles : WString → Option (List FindData × Bool)
  getFileAttributesEx : WString → Option FileAttributeData
  finalRoot : Handle → Option WString
  hashes : Handle → Bool
  sha256 : List UInt8 → Installer.Digest

section Enumerating

structure Directory where
  fullPath : WString
  relativePath : WString
  deriving DecidableEq, Repr

inductive EnumerationError where
  | cannotList
  | reparsePoint (relative : WString)
  | tooManyFolders
  | tooManyFiles
  | interrupted
  deriving DecidableEq, Repr

def EnumerationError.text : EnumerationError → WString
  | .cannotList => wide "無法列舉套件內容。"
  | .reparsePoint relative => wide "套件含有重新導向連結：" ++ relative
  | .tooManyFolders => wide "套件資料夾數量超過安全上限。"
  | .tooManyFiles => wide "套件檔案數量超過安全上限。"
  | .interrupted => wide "列舉套件內容時發生錯誤。"

def Directory.relative (directory : Directory) (name : WString) : WString :=
  if directory.relativePath.isEmpty then name else joinPath directory.relativePath name

def Directory.child (directory : Directory) (name : WString) : Directory :=
  ⟨joinPath directory.fullPath name, directory.relative name⟩

structure Enumeration where
  pending : List Directory
  folders : Nat
  relativePaths : List WString

def Directory.skips (directory : Directory) (name : WString) : Bool :=
  directory.relativePath.isEmpty && equalIgnoringCase name kManifestName

def isDots (name : WString) : Bool := name = wide "." || name = wide ".."

def visit (directory : Directory) (enumeration : Enumeration) (data : FindData) :
    Except EnumerationError Enumeration :=
  if isDots data.name then .ok enumeration
  else if data.attributes.reparsePoint then .error (.reparsePoint (directory.relative data.name))
  else if data.attributes.directory then
    if kMaximumManifestEntries + 1 ≤ enumeration.folders then .error .tooManyFolders
    else .ok { enumeration with
      pending := enumeration.pending ++ [directory.child data.name]
      folders := enumeration.folders + 1 }
  else if directory.skips data.name then .ok enumeration
  else if kMaximumManifestEntries ≤ enumeration.relativePaths.length then .error .tooManyFiles
  else .ok { enumeration with
    relativePaths := enumeration.relativePaths ++ [directory.relative data.name] }

def visitAll (directory : Directory) :
    Enumeration → List FindData → Except EnumerationError Enumeration
  | enumeration, [] => .ok enumeration
  | enumeration, data :: found =>
    match visit directory enumeration data with
    | .error error => .error error
    | .ok enumeration => visitAll directory enumeration found

variable (system : PackageSystem)

/-- The loop over the folders. Every round lists one, and there are at most
`kMaximumManifestEntries + 1`. -/
def enumerateLoop : Nat → Enumeration → Except EnumerationError (List WString)
  | 0, enumeration => .ok enumeration.relativePaths
  | fuel + 1, enumeration =>
    match enumeration.pending with
    | [] => .ok enumeration.relativePaths
    | directory :: pending =>
      match system.findFiles (joinPath directory.fullPath (wide "*")) with
      | none => .error .cannotList
      | some (found, finished) =>
        match visitAll directory { enumeration with pending } found with
        | .error error => .error error
        | .ok enumeration =>
          if finished then enumerateLoop fuel enumeration else .error .interrupted

def enumeratePackageFiles (root : WString) : Except EnumerationError (List WString) :=
  enumerateLoop system (kMaximumManifestEntries + 1) ⟨[⟨root, []⟩], 1, []⟩

end Enumerating

section Hashing

inductive HashError where
  | notRegular
  | tooLarge
  | outsideRoot
  | failed
  deriving DecidableEq, Repr

def HashError.text : HashError → WString
  | .notRegular => wide "檔案不存在、不是一般檔案，或是重新導向連結。"
  | .tooLarge => wide "檔案超過完整性驗證的 512 MiB 安全上限。"
  | .outsideRoot => wide "檔案解析後位於套件資料夾之外。"
  | .failed => wide "Windows SHA-256 驗證失敗。"

/-- The result of `sha256_file`: two capital hexadecimal digits for a byte. -/
def digestText (digest : Installer.Digest) : WString := digest.toHex.map fun c => c.toNat.toUInt16

variable (system : PackageSystem)

/-- The reading loop of `sha256_file`: all that is read up to the first read of nothing. -/
def hashLoop (handle : Handle) : Nat → List UInt8 → Option (List UInt8)
  | 0, _ => none
  | fuel + 1, contents =>
    match system.readFile handle contents.length 65536 with
    | none => none
    | some [] => some contents
    | some bytes => hashLoop handle fuel (contents ++ bytes)

/-- What `sha256_file` does with the open file. A file of `size` bytes is read in at most as many
reads and one of nothing. -/
def hashOpened (file : Handle) : Except HashError WString :=
  match finalPathForHandle system.toSystem file with
  | none => .error .notRegular
  | some finalFile =>
    match system.fileSize file with
    | none => .error .tooLarge
    | some size =>
      if size < 0 || kMaximumHashedFileBytes.toNat < size then .error .tooLarge
      else match system.finalRoot file with
        | none => .error .outsideRoot
        | some finalRoot =>
          if !pathWithinOrEqual finalFile finalRoot then .error .outsideRoot
          else if !system.hashes file then .error .failed
          else match hashLoop system file (size.toNat + 1) [] with
            | none => .error .failed
            | some contents => .ok (digestText (system.sha256 contents))

/-- `sha256_file` below a package root. -/
def sha256File (world : World) (path : WString) : Except HashError WString × World :=
  match openRegularFile system.toSystem world path with
  | (none, world) => (.error .notRegular, world)
  | (some file, world) => (hashOpened system file, world.close file)

end Hashing

section Verifying

structure IntegrityReport where
  valid : Bool := false
  verifiedFiles : Nat := 0
  issues : List IntegrityIssue := []
  deriving DecidableEq, Repr

def IntegrityReport.refused (detail : WString) : IntegrityReport :=
  { issues := [⟨kManifestName, detail⟩] }

def required : List WString :=
  [wide "FFBInterceptor.Manager.exe",
    wide "Install-SimHubPlugin.ps1",
    wide "Uninstall-SimHubPlugin.ps1",
    wide "FFBInterceptor.Common.ps1",
    wide "launcher\\x86\\FFBInterceptor.Launcher.exe",
    wide "launcher\\x86\\FFBInterceptor.Hook.dll",
    wide "launcher\\x64\\FFBInterceptor.Launcher.exe",
    wide "launcher\\x64\\FFBInterceptor.Hook.dll",
    wide "simhub\\FFBInterceptor.Core.dll",
    wide "simhub\\FFBInterceptor.SimHub.dll",
    wide "Start-FFBInterceptor.ps1"]

def lists (entries : List ManifestEntry) (path : WString) : Bool :=
  (entries.map fun entry => lowerCopy entry.relativePath).contains (lowerCopy path)

structure Checking where
  world : World
  packageBytes : UInt64
  verifiedFiles : Nat
  issues : List IntegrityIssue

def Checking.report (checking : Checking) (path detail : WString) : Checking :=
  { checking with issues := checking.issues ++ [⟨path, detail⟩] }

/-- `nFileSizeHigh` and `nFileSizeLow` as one number. -/
def FileAttributeData.fileBytes (data : FileAttributeData) : UInt64 :=
  data.fileSizeHigh.toUInt64 <<< 32 ||| data.fileSizeLow.toUInt64

variable (system : PackageSystem)

def checkDigest (root : WString) (checking : Checking) (entry : ManifestEntry) : Checking :=
  match sha256File system checking.world (joinPath root entry.relativePath) with
  | (.error error, world) => Checking.report { checking with world } entry.relativePath error.text
  | (.ok actual, world) =>
    if equalIgnoringCase actual entry.sha256 then
      { checking with world, verifiedFiles := checking.verifiedFiles + 1 }
    else
      Checking.report { checking with world } entry.relativePath
        (wide "SHA-256 不符，檔案可能損毀或遭修改。")

/-- An entry of the loop; the second component is whether the loop is left in any case. -/
def checkEntry (root : WString) (checking : Checking) (entry : ManifestEntry) : Checking × Bool :=
  let notRegular :=
    (checking.report entry.relativePath (wide "檔案不存在、不是一般檔案，或是重新導向連結。"), false)
  match system.getFileAttributesEx (joinPath root entry.relativePath) with
  | none => notRegular
  | some data =>
    if data.attributes.directory || data.attributes.reparsePoint then notRegular
    else if kMaximumHashedFileBytes < data.fileBytes ||
        kMaximumPackageBytes - data.fileBytes < checking.packageBytes then
      (checking.report entry.relativePath (wide "套件檔案總量超過 1 GiB 完整性驗證安全上限。"), true)
    else
      (checkDigest system root { checking with packageBytes := checking.packageBytes + data.fileBytes }
        entry, false)

def checkEntries (root : WString) (checking : Checking) : List ManifestEntry → Checking
  | [] => checking
  | entry :: entries =>
    match checkEntry system root checking entry with
    | (checking, left) =>
      if left || 32 ≤ checking.issues.length then checking else checkEntries root checking entries

def verifyEntries (world : World) (root : WString) (entries : List ManifestEntry) : IntegrityReport :=
  match enumeratePackageFiles system root with
  | .error error => .refused error.text
  | .ok actualFiles =>
    if actualFiles.length ≠ entries.length then
      .refused (wide "manifest 未精確涵蓋解壓縮後的所有檔案。")
    else
      let unlisted := actualFiles.filter fun path => !lists entries path
      let missing := required.filter fun path => !lists entries path
      if !unlisted.isEmpty then
        { issues := (unlisted.take 32).map fun path => ⟨path, wide "套件含有 manifest 未列出的檔案。"⟩ }
      else if !missing.isEmpty then
        { issues := missing.map fun path => ⟨path, wide "manifest 未列出這個啟動必要檔案。"⟩ }
      else
        let checking := checkEntries system root ⟨world, 0, 0, []⟩ entries
        { valid := checking.issues.isEmpty && checking.verifiedFiles = entries.length
          verifiedFiles := checking.verifiedFiles
          issues := checking.issues }

def verifyPackageIntegrity (world : World) (layout : PackageLayout) : IntegrityReport :=
  if layout.root.isEmpty then .refused (wide "找不到完整套件根目錄；請勿單獨移動管理器。")
  else if !pathIsAbsoluteLocal system.getDriveType layout.root then
    .refused (wide "套件必須解壓縮到本機磁碟，不能從網路路徑執行。")
  else match readFileLimited system.toSystem world layout.manifestPath kMaximumManifestBytes with
    | (.error error, _) => .refused (wide error.text)
    | (.ok contents, world) =>
      let parsed := parseManifestText contents
      if parsed.succeeded then verifyEntries system world layout.root parsed.entries
      else .refused ((parsed.error.map fun error => wide error.text).getD [])

end Verifying

end FfbInterceptor.Manager
