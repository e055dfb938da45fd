import FfbInterceptor.Installer.Files

/-! `Install-FFBInterceptor.ps1` of the portable package: two files beside SimHub, the proxy beside the
game, then the record, any one step of which may fail. -/
namespace FfbInterceptor.Installer.Portable
open FfbInterceptor.Library

inductive PackageFile where
  | simHub
  | core
  | proxy
  deriving DecidableEq, Repr

def PackageFile.name : PackageFile → FileName
  | .simHub => "FFBInterceptor.SimHub.dll".toList
  | .core => "FFBInterceptor.Core.dll".toList
  | .proxy => "dinput8.dll".toList

/-- The steps of the script that may fail, the roll-back apart. -/
inductive Step where
  | hashSource (file : PackageFile)
  | hashDestination (file : PackageFile)
  | setAside (file : PackageFile)
  | copy (file : PackageFile)
  | publish (file : PackageFile)
  | createDirectory
  | write
  deriving DecidableEq, Repr

/-- The steps of `Save-InstallState`. -/
def Step.saves : Step → Bool
  | createDirectory | write => true
  | _ => false

/-- A record of `Install-ManagedFile`. -/
structure ManagedFile where
  destination : Path
  backup : Option Path
  installedSha256 : List Char
  changed : Bool
  deriving DecidableEq, Repr

structure SimHubRecord where
  installPath : List FileName
  files : List ManagedFile
  deriving DecidableEq, Repr

inductive Architecture where
  | x86
  | x64
  deriving DecidableEq, Repr

def Architecture.name : Architecture → FileName
  | .x86 => "x86".toList
  | .x64 => "x64".toList

structure GameRecord where
  gameExecutable : Path
  architecture : Architecture
  proxy : ManagedFile
  deriving DecidableEq, Repr

structure InstallState where
  schemaVersion : Nat
  installedAtUtc : String
  simHub : Option SimHubRecord
  games : List GameRecord
  deriving DecidableEq, Repr

inductive Content (γ : Type) where
  | bytes (bytes : γ)
  | state (state : InstallState)
  deriving DecidableEq, Repr

structure Setup (γ : Type) extends Host (Content γ) where
  package : FileSystem (Content γ)
  bundleRoot : List FileName
  gamePath : Path
  architecture : Architecture
  stateDirectory : List FileName
  skipSimHub : Bool
  /-- The parameter `SimHubInstallPath`, and what `Resolve-SimHubInstallPath` makes of it. -/
  simHubInstallPath : Option (List FileName)
  resolvedSimHub : Except Refusal (List FileName)
  simHubRunning : Bool
  /-- `$PID`. -/
  processId : FileName
  now : String

abbrev PortableScript (γ α : Type) := FileScript (Content γ) (Option Step) ManagedFile α

variable {γ : Type}

namespace Setup
variable (setup : Setup γ)

def statePath : Path := ⟨setup.stateDirectory, "install-state.json".toList⟩

def source : PackageFile → Path
  | .proxy => ⟨setup.bundleRoot ++ ["runtime".toList, setup.architecture.name], PackageFile.proxy.name⟩
  | file => ⟨setup.bundleRoot ++ ["simhub".toList], file.name⟩

end Setup

section Files

/-- A step of the script: it fails if it is the one to fail, and leaves what `torn` says. -/
def step {α : Type} (label : Step) (path : Path)
    (torn : FileSystem (Content γ) → FileSystem (Content γ))
    (effect : FileSystem (Content γ) → Option (α × FileSystem (Content γ))) : PortableScript γ α :=
  ExceptT.mk fun w =>
    if w.state.rest = some label then
      (.error (.io path), { w with state := { w.state with files := torn w.state.files, rest := none } })
    else
      match effect w.state.files with
      | some (a, fs) => (.ok a, { w with state := { w.state with files := fs } })
      | none => (.error (.io path), w)

def inside (folder : Path) (name : FileName) : Path := ⟨folder.folder ++ [folder.name], name⟩

/-- `Move-Item` of a file, into a folder that stands at the destination. -/
def moveItem (fs : FileSystem (Content γ)) (source destination : Path) :
    Option (FileSystem (Content γ)) :=
  if fs.isFolder destination then fs.move source (inside destination source.name)
  else fs.move source destination

def copyTarget (fs : FileSystem (Content γ)) (source destination : Path) : Path :=
  if fs.isFolder destination then inside destination source.name else destination

variable (setup : Setup γ)

def hashSource (file : PackageFile) : PortableScript γ (List Char) :=
  step (.hashSource file) (setup.source file) id fun fs =>
    (setup.package.read (setup.source file)).map fun content => (setup.sha256 content, fs)

def hashDestination (file : PackageFile) (destination : Path) : PortableScript γ (List Char) :=
  step (.hashDestination file) destination id fun fs =>
    (fs.read destination).map fun content => (setup.sha256 content, fs)

def temporaryFile (destination : Path) : Path :=
  destination.append (".ffb-interceptor-new-".toList ++ setup.processId)

def setAside (file : PackageFile) (destination : Path) : Option Path → PortableScript γ PUnit
  | some backup =>
    step (.setAside file) destination id fun fs =>
      (moveItem fs destination backup).map fun fs => (⟨⟩, fs)
  | none => pure ⟨⟩

/-- A copy that fails leaves what the host leaves. -/
def copyItem (file : PackageFile) (destination : Path) : PortableScript γ PUnit :=
  let source := setup.source file
  step (.copy file) source (fun fs => setup.tear (copyTarget fs source destination) fs) fun fs =>
    (setup.package.read source).bind fun content =>
      (fs.write (copyTarget fs source destination) content).map fun fs => (⟨⟩, fs)

def publishFile (file : PackageFile) (destination temporary : Path) (backup : Option Path) :
    PortableScript γ PUnit := do
  setAside file destination backup
  copyItem setup file temporary
  step (.publish file) temporary id fun fs =>
    (moveItem fs temporary destination).map fun fs => (⟨⟩, fs)

def undoFile (destination temporary : Path) (backup : Option Path) : PortableScript γ PUnit := do
  discard temporary
  takeBack destination backup

def holdsAlready (file : PackageFile) (destination : Path) (sourceHash : List Char) :
    PortableScript γ Bool :=
  holdsSha256 destination (hashDestination setup file destination) sourceHash

def installManagedFile (file : PackageFile) (destination : Path) : PortableScript γ ManagedFile := do
  check (setup.package.testLeaf (setup.source file))
    (.thrownAt "Package file is missing: " (setup.source file))
  let sourceHash ← hashSource setup file
  if ← holdsAlready setup file destination sourceHash then
    pure ⟨destination, none, sourceHash, false⟩
  else
    let temporary := temporaryFile setup destination
    let backup ← ask fun fs =>
      if fs.testLeaf destination then some (getBackupPath fs destination) else none
    Script.onError (publishFile setup file destination temporary backup)
      (undoFile destination temporary backup)
    pure ⟨destination, backup, sourceHash, true⟩

def removeInstalled (record : ManagedFile) : PortableScript γ PUnit :=
  removeUnchanged setup.toHost record.destination record.installedSha256

def moveBackupBack (destination backup : Path) : PortableScript γ PUnit := do
  if ← ask fun fs => fs.testPath backup && !fs.testPath destination then
    moveFile backup destination
  else pure ⟨⟩

def restoreManagedFile (record : ManagedFile) : PortableScript γ PUnit :=
  if !record.changed then pure ⟨⟩
  else do
    removeInstalled setup record
    match record.backup with
    | some backup => moveBackupBack record.destination backup
    | none => pure ⟨⟩

end Files

section Body
variable (setup : Setup γ)

def readInstallState : PortableScript γ (Option InstallState) := do
  if ← ask fun fs => fs.testLeaf setup.statePath then
    match ← ask fun fs => fs.read setup.statePath with
    | some (.state state) => pure (some state)
    | _ => refuse (.thrownAt "The existing installation state is invalid: " setup.statePath)
  else pure none

def settle {α : Type} : Except Refusal α → PortableScript γ α
  | .ok a => pure a
  | .error refusal => refuse refusal

def installFile (file : PackageFile) (folder : List FileName) : PortableScript γ ManagedFile := do
  let record ← installManagedFile setup file ⟨folder, file.name⟩
  note record
  pure record

/-- The first part of the inner `try` block: the record of SimHub afterwards. -/
def installSimHub (simHubRecord : Option SimHubRecord) : PortableScript γ (Option SimHubRecord) :=
  match simHubRecord with
  | none =>
    if setup.skipSimHub then pure none
    else do
      let simHubPath ← settle setup.resolvedSimHub
      check (!setup.simHubRunning) (.thrown "Close SimHub before installing the plug-in.")
      let simHub ← installFile setup .simHub simHubPath
      let core ← installFile setup .core simHubPath
      pure (some ⟨simHubPath, [simHub, core]⟩)
  | some record =>
    if !setup.skipSimHub && setup.simHubInstallPath.isSome then do
      let simHubPath ← settle setup.resolvedSimHub
      check (record.installPath = simHubPath)
        (.thrown <| "A different SimHub installation is already managed. " ++
          "Uninstall the existing game before changing SimHub paths.")
      pure (some record)
    else pure (some record)

def installAll (simHubRecord : Option SimHubRecord) :
    PortableScript γ (Option SimHubRecord × ManagedFile) := do
  let simHub ← installSimHub setup simHubRecord
  let proxy ← installFile setup .proxy setup.gamePath.folder
  pure (simHub, proxy)

def restoreChanges : PortableScript γ PUnit := do
  let changes ← Script.look fun s => s.journal
  changes.reverse.forM (restoreManagedFile setup)

/-- The folder is not among the files. -/
def saveInstallState (state : InstallState) : PortableScript γ PUnit := do
  step .createDirectory setup.statePath id fun fs => some (⟨⟩, fs)
  step .write setup.statePath
    (fun fs => if fs.isFolder setup.statePath then fs else setup.tear setup.statePath fs) fun fs =>
      (fs.write setup.statePath (.state state)).map fun fs => (⟨⟩, fs)

def installFiles : PortableScript γ InstallState := do
  let state ← readInstallState setup
  let existingGames := (state.map InstallState.games).getD []
  check (existingGames.all fun game => game.gameExecutable ≠ setup.gamePath)
    (.thrown <| "This game is already managed by FFB Interceptor. " ++
      "Run Uninstall-FFBInterceptor.cmd before changing versions.")
  let (simHub, proxy) ←
    Script.onError (installAll setup (state.bind InstallState.simHub)) (restoreChanges setup)
  pure ⟨1, setup.now, simHub, existingGames ++ [⟨setup.gamePath, setup.architecture, proxy⟩]⟩

/-- The script from the reading of the record on. -/
def installFFBInterceptor : PortableScript γ PUnit := do
  let state ← installFiles setup
  saveInstallState setup state

end Body

end FfbInterceptor.Installer.Portable
