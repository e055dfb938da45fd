import FfbInterceptor.Installer.Portable

/-! `Uninstall-FFBInterceptor.ps1` of the portable package: one game is removed, with the last one also
the files beside SimHub. -/
namespace FfbInterceptor.Installer.Portable
open FfbInterceptor.Library

variable {γ : Type}

/-- What the scripts of one user share: the folder of the record, and the machine. -/
structure Machine (γ : Type) extends Host (Content γ) where
  stateDirectory : List FileName

namespace Machine
variable (machine : Machine γ)

def statePath : Path := ⟨machine.stateDirectory, "install-state.json".toList⟩

def on (setup : Setup γ) : Setup γ :=
  { setup with toHost := machine.toHost, stateDirectory := machine.stateDirectory }

end Machine

section Files

def refuseChanged (fs : FileSystem (Content γ)) (record : ManagedFile) : Bool :=
  match record.backup with
  | some backup => fs.testPath backup
  | none => true

/-- The second half of `Remove-ManagedFile`. -/
def restoreBackup (record : ManagedFile) : PortableScript γ PUnit :=
  match record.backup with
  | some backup => do
    if ← ask fun fs => fs.testPath backup then
      if ← ask fun fs => fs.testPath record.destination then
        refuse (.thrownAt "Refusing to overwrite a file while restoring backup: " record.destination)
      else moveFile backup record.destination
    else pure ⟨⟩
  | none => pure ⟨⟩

/-- A changed file whose backup is gone has been restored before. -/
def removeManagedFile (host : Host (Content γ)) (record : ManagedFile) : PortableScript γ PUnit := do
  if ← ask fun fs => fs.testLeaf record.destination then
    let hash ← getFileSha256 host record.destination
    if hash ≠ record.installedSha256 then
      refuseIf (refuseChanged · record)
        (.thrownAt "Refusing to remove a changed file: " record.destination)
    else do
      deleteFile record.destination
      restoreBackup record
  else restoreBackup record

end Files

section Body
variable (machine : Machine γ) (gamePath : Path)

def InstallState.gameRecord (state : InstallState) (gamePath : Path) : Option GameRecord :=
  state.games.find? fun game => game.gameExecutable = gamePath

def InstallState.remainingGames (state : InstallState) (gamePath : Path) : List GameRecord :=
  state.games.filter fun game => game.gameExecutable ≠ gamePath

def InstallState.simHubFiles (state : InstallState) : List ManagedFile :=
  (state.simHub.map SimHubRecord.files).getD []

def readRecord : PortableScript γ InstallState := do
  refuseIf (fun fs => !fs.testLeaf machine.statePath)
    (.thrown "No FFB Interceptor installation state was found for this Windows user.")
  match ← ask fun fs => fs.read machine.statePath with
  | some (.state state) => pure state
  | _ => refuse (.io machine.statePath)

/-- The record of the games that remain; without any the record goes. The folder is not among the
files. -/
def saveRemaining (state : InstallState) (remaining : List GameRecord) : PortableScript γ PUnit :=
  if remaining = [] then deleteFile machine.statePath
  else writeAllText machine.toHost machine.statePath
    (.state ⟨1, state.installedAtUtc, state.simHub, remaining⟩)

/-- With the last game the files beside SimHub go. -/
def removePlugIn (state : InstallState) (remaining : List GameRecord) : PortableScript γ PUnit :=
  if remaining = [] then state.simHubFiles.forM (removeManagedFile machine.toHost) else pure ⟨⟩

def uninstallFFBInterceptor : PortableScript γ PUnit := do
  let state ← readRecord machine
  match state.gameRecord gamePath with
  | none => refuse (.thrown "The selected game is not managed by this FFB Interceptor installation.")
  | some gameRecord =>
    removeManagedFile machine.toHost gameRecord.proxy
    removePlugIn machine state (state.remainingGames gamePath)
    saveRemaining machine state (state.remainingGames gamePath)

end Body

section Runs

/-- The files after a script, if it succeeds. -/
def filesAfter (script : PortableScript γ PUnit) (fs : FileSystem (Content γ)) :
    Option (FileSystem (Content γ)) :=
  match script.outcome ⟨⟨fs, none, []⟩, none⟩ with
  | (.ok _, w) => some w.state.files
  | (.error _, _) => none

inductive Action (γ : Type) where
  | install (setup : Setup γ)
  | uninstall (gamePath : Path)

def Action.perform (machine : Machine γ) : Action γ → FileSystem (Content γ) →
    Option (FileSystem (Content γ))
  | .install setup => filesAfter (installFFBInterceptor (machine.on setup))
  | .uninstall gamePath => filesAfter (uninstallFFBInterceptor machine gamePath)

end Runs

end FfbInterceptor.Installer.Portable
