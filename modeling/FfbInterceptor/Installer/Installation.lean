import FfbInterceptor.Installer.State

/-! `Install-SimHubPlugin.ps1`: two files, each set aside, copied and published, then the record,
and the way back from every point at which this stops. -/
namespace FfbInterceptor.Installer
open FfbInterceptor.Library

/-- The unpacked package, whose files the script holds open, and what the script makes up. -/
structure Package (γ : Type) where
  files : FileSystem (Content γ)
  bundleRoot : List FileName
  manifestVerified : Bool
  defaultSimHub : List FileName
  newGuid : Path → FileName
  stateGuid : FileName
  now : String

variable {γ ρ : Type}

def Package.source (package : Package γ) (name : FileName) : Path :=
  ⟨package.bundleRoot ++ ["simhub".toList], name⟩

abbrev InstallScript (γ α : Type) := PluginScript γ ManagedFile α

inductive InstallOutcome where
  | alreadyInstalled
  | installed
  deriving DecidableEq, Repr

section Files

def getPackageSha256 (setup : Setup γ) (package : Package γ) (source : Path) :
    PluginScript γ ρ (List Char) :=
  Script.operation (.io source) id fun s =>
    match package.files.read source with
    | some content => .ok (setup.sha256 content, s)
    | none => .error (.io source)

def sourceSha256 (setup : Setup γ) (package : Package γ) (source : Path) :
    PluginScript γ ρ (List Char) :=
  if !package.files.testLeaf source then refuse (.thrownAt "Package file is missing: " source)
  else do
    let sourceHash ← getPackageSha256 setup package source
    if package.files.isIrregular source then
      refuse (.thrownAt "Package file cannot be a reparse point: " source)
    else pure sourceHash

def refuseIrregular (destination : Path) : PluginScript γ ρ PUnit :=
  refuseIf (fun fs => fs.isIrregular destination)
    (.thrownAt "Refusing to replace a non-regular file: " destination)

def holdsAlready (setup : Setup γ) (destination : Path) (sourceHash : List Char) :
    PluginScript γ ρ Bool :=
  holdsSha256 destination (getFileSha256 setup.toHost destination) sourceHash

/-- `$backup` and `$backupHash`, which stay empty when nothing has to be set aside. -/
def chooseBackup (setup : Setup γ) (destination : Path) :
    PluginScript γ ρ (Option Path × List Char) := do
  if ← ask fun fs => fs.testLeaf destination then
    refuseIrregular destination
    let backupHash ← getFileSha256 setup.toHost destination
    let backup ← ask fun fs => getBackupPath fs destination
    pure (some backup, backupHash)
  else pure (none, [])

def setAside (destination : Path) : Option Path → PluginScript γ ρ PUnit
  | some backup => moveFile destination backup
  | none => pure ⟨⟩

def copyFile (setup : Setup γ) (package : Package γ) (source destination : Path) :
    PluginScript γ ρ PUnit :=
  match package.files.read source with
  | some content => createFile setup.toHost destination content
  | none => refuse (.io source)

def publishFile (setup : Setup γ) (package : Package γ) (source destination temporary : Path)
    (backup : Option Path) : PluginScript γ ρ PUnit := do
  setAside destination backup
  copyFile setup package source temporary
  moveFile temporary destination

def undoFile (destination temporary : Path) (backup : Option Path) : PluginScript γ ρ PUnit := do
  deleteIfLeaf temporary
  takeBack destination backup

def temporaryFile (package : Package γ) (destination : Path) : Path :=
  destination.append (".ffb-interceptor-new-".toList ++ package.newGuid destination)

/-- `$backup` is empty in the handler until it is chosen, hence the two handlers. -/
def installManagedFile (setup : Setup γ) (package : Package γ) (source destination : Path) :
    PluginScript γ ρ ManagedFile := do
  let sourceHash ← sourceSha256 setup package source
  refuseIrregular destination
  if ← holdsAlready setup destination sourceHash then
    pure ⟨destination, none, [], sourceHash, false⟩
  else
    let temporary := temporaryFile package destination
    let (backup, backupHash) ←
      Script.onError (chooseBackup setup destination) (undoFile destination temporary none)
    Script.onError (publishFile setup package source destination temporary backup)
      (undoFile destination temporary backup)
    pure ⟨destination, backup, backupHash, sourceHash, true⟩

def removeInstalled (setup : Setup γ) (record : ManagedFile) : PluginScript γ ρ PUnit :=
  removeUnchanged setup.toHost record.destination record.installedSha256

def moveBackupBack (setup : Setup γ) (record : ManagedFile) (backup : Path) :
    PluginScript γ ρ PUnit := do
  if ← ask fun fs => fs.testPath backup && !fs.testPath record.destination then
    let hash ← getFileSha256 setup.toHost backup
    if hash ≠ record.backupSha256 then
      refuse (.thrownAt "Refusing to restore a changed backup: " backup)
    else moveFile backup record.destination
  else pure ⟨⟩

def restoreManagedFile (setup : Setup γ) (record : ManagedFile) : PluginScript γ ρ PUnit :=
  if !record.changed then pure ⟨⟩
  else do
    removeInstalled setup record
    match record.backup with
    | some backup => moveBackupBack setup record backup
    | none => pure ⟨⟩

end Files

section Existing

def testStateValid (setup : Setup γ) : List ManagedFile → PluginScript γ ρ Bool
  | [] => pure true
  | file :: files => do
    if ← ask fun fs => fs.testLeaf file.destination then
      let hash ← getFileSha256 setup.toHost file.destination
      if hash = file.installedSha256 then testStateValid setup files else pure false
    else pure false

def testStateMatchesPackage (setup : Setup γ) (package : Package γ) (files : List ManagedFile) :
    List FileName → PluginScript γ ρ Bool
  | [] => pure true
  | name :: names =>
    if !package.files.testLeaf (package.source name) then
      refuse (.thrownAt "Package file is missing: " (package.source name))
    else if package.files.isIrregular (package.source name) then
      refuse (.thrownAt "Package file cannot be a reparse point: " (package.source name))
    else
      match files.reverse.find? fun file => file.destination.name = name with
      | none => pure false
      | some record => do
        let hash ← getPackageSha256 setup package (package.source name)
        if hash = record.installedSha256 then testStateMatchesPackage setup package files names
        else pure false

def reportExisting (setup : Setup γ) (package : Package γ) (requested : Option (List FileName))
    (simHubPath : List FileName) : PluginScript γ ρ InstallOutcome := do
  enterFFBStateMutationBoundary setup (some simHubPath) false
  let existing ← readFFBPluginState setup false true
  match existing with
  | none => refuse (.io setup.statePath)
  | some state =>
    if state.installPath ≠ simHubPath then
      refuse (.thrown "The protected plug-in state changed its SimHub destination while locks were being acquired.")
    else if requested.any fun path => path ≠ state.installPath then
      refuse (.thrown "FFB Interceptor is already installed in a different SimHub directory. Uninstall it before switching directories.")
    else if ← testStateValid setup state.files then
      if ← testStateMatchesPackage setup package state.files managedNames then
        pure .alreadyInstalled
      else
        refuse (.thrown "A different FFB Interceptor SimHub plug-in version is installed. Run Uninstall-SimHubPlugin.cmd, then start this package again.")
    else
      refuse (.thrown "The recorded SimHub plug-in files changed or are missing. Run Uninstall-SimHubPlugin.cmd before reinstalling.")

end Existing

section Body

def restoreChanges (setup : Setup γ) : InstallScript γ PUnit := do
  let changes ← Script.look fun s => s.journal
  changes.reverse.forM (restoreManagedFile setup)

def installFile (setup : Setup γ) (package : Package γ) (simHubPath : List FileName)
    (name : FileName) : InstallScript γ PUnit := do
  let record ← installManagedFile setup package (package.source name) ⟨simHubPath, name⟩
  note record

def installFiles (setup : Setup γ) (package : Package γ) (simHubPath : List FileName) :
    InstallScript γ PUnit :=
  managedNames.forM (installFile setup package simHubPath)

def installPlugin (setup : Setup γ) (package : Package γ) (simHubPath : List FileName) :
    InstallScript γ InstallOutcome := do
  check (!setup.simHubRunning) (.thrown "Close SimHub before installing the plug-in.")
  Script.onError (installFiles setup package simHubPath) (restoreChanges setup)
  let changes ← Script.look fun s => s.journal
  Script.onError
    (saveFFBPluginState setup package.stateGuid ⟨1, package.now, simHubPath, changes⟩)
    (restoreChanges setup)
  pure .installed

def resolveSimHubPath (setup : Setup γ) (path : List FileName) :
    PluginScript γ ρ (List FileName) := do
  assertFFBSimHubRoot setup path true
  pure path

def chooseSimHubPath (setup : Setup γ) (package : Package γ) (existing : Option PluginState)
    (requested : Option (List FileName)) : PluginScript γ ρ (List FileName) :=
  match existing, requested with
  | some state, _ => pure state.installPath
  | none, some path => pure path
  | none, none => resolveSimHubPath setup package.defaultSimHub

def resolveRequested (setup : Setup γ) :
    Option (List FileName) → PluginScript γ ρ (Option (List FileName))
  | some path => do
    let resolved ← resolveSimHubPath setup path
    pure (some resolved)
  | none => pure none

def installSimHubPlugin (setup : Setup γ) (package : Package γ)
    (simHubInstallPath : Option (List FileName)) : InstallScript γ InstallOutcome := do
  check package.manifestVerified (.thrown "Package manifest verification failed.")
  let before ← readFFBPluginState setup true true
  let requested ← resolveRequested setup simHubInstallPath
  let simHubPath ← chooseSimHubPath setup package before requested
  enterFFBSimHubMutationBoundary setup none simHubPath true
  let existing ← readFFBPluginState setup true true
  match existing with
  | some _ => reportExisting setup package requested simHubPath
  | none =>
    if before.isSome then
      refuse (.thrown "The protected plug-in state changed while the destination lock was being acquired. Retry the operation.")
    else installPlugin setup package simHubPath

end Body

end FfbInterceptor.Installer
