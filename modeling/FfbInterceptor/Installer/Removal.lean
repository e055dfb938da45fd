import FfbInterceptor.Installer.State

/-! `Uninstall-SimHubPlugin.ps1`: what is recorded is checked, then staged and restored file by
file, and put back when that stops before the record is gone. -/
namespace FfbInterceptor.Installer
open FfbInterceptor.Library

/-- One file on its way out. An empty staging path is none. -/
structure RemovalOperation where
  destination : Path
  backup : Option Path
  staged : Option Path
  plugInStaged : Bool
  backupRestored : Bool
  deriving DecidableEq, Repr

inductive RemovalOutcome where
  | nothingInstalled
  | removed
  deriving DecidableEq, Repr

abbrev RemovalScript (γ α : Type) := PluginScript γ RemovalOperation α

/-- The GUIDs a run draws for a destination, in order. -/
abbrev Guids := Path → Nat → FileName

variable {γ ρ : Type}

def stagingCandidate (newGuid : Guids) (destination : Path) (n : Nat) : Path :=
  destination.append (".ffb-interceptor-remove-".toList ++ newGuid destination n)

/-- GUIDs do not repeat, so that the loop ends. -/
def getUninstallStagingPath (newGuid : Guids) (fs : FileSystem (Content γ)) (destination : Path) :
    Path :=
  stagingCandidate newGuid destination
    (firstFree (fun n => fs.testPath (stagingCandidate newGuid destination n)) fs.keys.card 0)

section Validation

def validateDestination (setup : Setup γ) (file : ManagedFile) : PluginScript γ ρ PUnit := do
  if ← ask fun fs => fs.testPath file.destination then
    if ← ask fun fs => fs.isIrregular file.destination then
      refuse (.thrownAt "Refusing to remove a changed, redirected, or non-regular file: "
        file.destination)
    else
      let hash ← getFileSha256 setup.toHost file.destination
      if hash ≠ file.installedSha256 then
        refuse (.thrownAt "Refusing to remove a changed, redirected, or non-regular file: "
          file.destination)
      else pure ⟨⟩
  else pure ⟨⟩

def validateBackup (setup : Setup γ) (file : ManagedFile) (backup : Path) :
    PluginScript γ ρ PUnit := do
  refuseIf (fun fs => !fs.testLeaf backup) (.thrownAt "The recorded backup is missing: " backup)
  if ← ask fun fs => fs.isIrregular backup then
    refuse (.thrownAt "Refusing to restore a changed or redirected backup: " backup)
  else
    let hash ← getFileSha256 setup.toHost backup
    if hash ≠ file.backupSha256 then
      refuse (.thrownAt "Refusing to restore a changed or redirected backup: " backup)
    else pure ⟨⟩

def validateFile (setup : Setup γ) (file : ManagedFile) : PluginScript γ ρ PUnit :=
  if !file.changed then pure ⟨⟩
  else do
    validateDestination setup file
    match file.backup with
    | some backup => validateBackup setup file backup
    | none => pure ⟨⟩

end Validation

section Transaction

def setOperation (done : List RemovalOperation) (operation : RemovalOperation) :
    RemovalScript γ PUnit :=
  Script.amend fun s => { s with journal := done ++ [operation] }

def stagePlugIn (newGuid : Guids) (done : List RemovalOperation) (operation : RemovalOperation) :
    RemovalScript γ RemovalOperation := do
  if ← ask fun fs => fs.testLeaf operation.destination then
    let staged ← ask fun fs => getUninstallStagingPath newGuid fs operation.destination
    setOperation done { operation with staged := some staged }
    moveFile operation.destination staged
    setOperation done { operation with staged := some staged, plugInStaged := true }
    pure { operation with staged := some staged, plugInStaged := true }
  else pure operation

def restoreBackup (done : List RemovalOperation) (operation : RemovalOperation) :
    RemovalScript γ PUnit :=
  match operation.backup with
  | some backup => do
    moveFile backup operation.destination
    setOperation done { operation with backupRestored := true }
  | none => pure ⟨⟩

def removeFile (newGuid : Guids) (file : ManagedFile) : RemovalScript γ PUnit :=
  if !file.changed then pure ⟨⟩
  else do
    let done ← Script.look fun s => s.journal
    setOperation done ⟨file.destination, file.backup, none, false, false⟩
    let operation ← stagePlugIn newGuid done ⟨file.destination, file.backup, none, false, false⟩
    restoreBackup done operation

def takeBackupAgain (operation : RemovalOperation) : RemovalScript γ PUnit :=
  match operation.backup with
  | some backup => do
    if ← ask fun fs => operation.backupRestored && fs.testLeaf operation.destination &&
        !fs.testPath backup then
      Script.swallow (moveFile operation.destination backup)
    else pure ⟨⟩
  | none => pure ⟨⟩

def unstagePlugIn (operation : RemovalOperation) : RemovalScript γ PUnit :=
  match operation.staged with
  | some staged => do
    if ← ask fun fs => operation.plugInStaged && fs.testLeaf staged &&
        !fs.testPath operation.destination then
      Script.swallow (moveFile staged operation.destination)
    else pure ⟨⟩
  | none => pure ⟨⟩

def rollbackOperation (operation : RemovalOperation) : RemovalScript γ PUnit := do
  takeBackupAgain operation
  unstagePlugIn operation

def rollback : RemovalScript γ PUnit := do
  let operations ← Script.look fun s => s.journal
  operations.reverse.forM rollbackOperation

def removeFiles (setup : Setup γ) (newGuid : Guids) (files : List ManagedFile) :
    RemovalScript γ PUnit := do
  files.forM (removeFile newGuid)
  deleteFile setup.statePath

def deleteStaged (operation : RemovalOperation) : RemovalScript γ PUnit :=
  match operation.staged with
  | some staged => do
    if ← ask fun fs => operation.plugInStaged && fs.testLeaf staged then
      Script.swallow (deleteFile staged)
    else pure ⟨⟩
  | none => pure ⟨⟩

def removePlugin (setup : Setup γ) (newGuid : Guids) (state : PluginState) :
    RemovalScript γ RemovalOutcome := do
  check (!setup.simHubRunning) (.thrown "Close SimHub before uninstalling the plug-in.")
  state.files.forM (validateFile setup)
  Script.onError (removeFiles setup newGuid state.files) rollback
  let operations ← Script.look fun s => s.journal
  operations.forM deleteStaged
  pure .removed

/-- The record, which a script that has asked for it without leave to miss it has. -/
def requireState (setup : Setup γ) : PluginScript γ ρ PluginState := do
  let state ← readFFBPluginState setup false false
  match state with
  | some state => pure state
  | none => refuse (.io setup.statePath)

def uninstallSimHubPlugin (setup : Setup γ) (newGuid : Guids) : RemovalScript γ RemovalOutcome := do
  if ← ask fun fs => fs.testLeaf setup.statePath then
    let before ← requireState setup
    enterFFBSimHubMutationBoundary setup none before.installPath false
    enterFFBStateMutationBoundary setup (some before.installPath) false
    let state ← requireState setup
    if state.installPath ≠ before.installPath then
      refuse (.thrown "The protected plug-in state changed its SimHub destination while locks were being acquired.")
    else removePlugin setup newGuid state
  else pure .nothingInstalled

end Transaction

section Rollback
variable {s : Session (Content γ) StateDirectory RemovalOperation}
  {fs fs₀ fs₁ fs₂ : FileSystem (Content γ)} {operation : RemovalOperation}
  {operations : List RemovalOperation} {staged backup : Path}

def RollsBack (fs₀ fs : FileSystem (Content γ)) (operations : List RemovalOperation) : Prop :=
  ∀ (rest : StateDirectory) (journal : List RemovalOperation),
    Script.Calmly (operations.reverse.forM rollbackOperation) ⟨fs, rest, journal⟩ (.ok ⟨⟩)
      ⟨fs₀, rest, journal⟩

def Undoes (fs fs' : FileSystem (Content γ)) (operation : RemovalOperation) : Prop :=
  ∀ (rest : StateDirectory) (journal : List RemovalOperation),
    Script.Calmly (rollbackOperation operation) ⟨fs', rest, journal⟩ (.ok ⟨⟩) ⟨fs, rest, journal⟩

theorem RollsBack.nil (fs : FileSystem (Content γ)) : RollsBack fs fs [] :=
  fun _ _ => Script.Calmly.pure _ _

theorem RollsBack.snoc (h : RollsBack fs₀ fs operations) (hlast : Undoes fs fs₁ operation) :
    RollsBack fs₀ fs₁ (operations ++ [operation]) :=
  fun rest journal => Script.Calmly.undo_snoc (hlast rest journal) (h rest journal)

theorem testLeaf_of_move {source destination : Path} (h : fs.move source destination = some fs₁) :
    fs₁.testLeaf destination = true := by
  obtain ⟨entry, -, hleaf, -, -⟩ := FileSystem.move_eq_some (FileSystem.move_back h)
  exact hleaf

theorem calmly_moveBack {source destination : Path} {rest : StateDirectory}
    {journal : List RemovalOperation} (h : fs.move source destination = some fs₁) :
    fs₁.testLeaf destination = true ∧ fs₁.testPath source = false ∧
      Script.Calmly (Script.swallow (moveFile destination source)) ⟨fs₁, rest, journal⟩ (.ok ⟨⟩)
        ⟨fs, rest, journal⟩ := by
  have hback := FileSystem.move_back h
  obtain ⟨entry, -, hleaf, habsent, -⟩ := FileSystem.move_eq_some hback
  exact ⟨hleaf, FileSystem.testPath_eq_false.mpr habsent,
    (calmly_moveFile (s := ⟨fs₁, rest, journal⟩) hback).swallow⟩

theorem calmly_takeBackupAgain_idle (h : operation.backupRestored = false) :
    Script.Calmly (takeBackupAgain operation) s (.ok ⟨⟩) s := by
  unfold takeBackupAgain
  split
  · apply calmly_ask
    rw [h]
    exact Script.Calmly.pure _ s
  · exact Script.Calmly.pure _ s

theorem calmly_unstagePlugIn_idle (h : operation.plugInStaged = false) :
    Script.Calmly (unstagePlugIn operation) s (.ok ⟨⟩) s := by
  unfold unstagePlugIn
  split
  · apply calmly_ask
    rw [h]
    exact Script.Calmly.pure _ s
  · exact Script.Calmly.pure _ s

theorem undoes_idle (hrestored : operation.backupRestored = false)
    (hstaged : operation.plugInStaged = false) : Undoes fs fs operation :=
  fun _ _ => (calmly_takeBackupAgain_idle hrestored).bind (calmly_unstagePlugIn_idle hstaged)

theorem calmly_unstagePlugIn {rest : StateDirectory} {journal : List RemovalOperation}
    (hstaged : operation.staged = some staged) (hflag : operation.plugInStaged = true)
    (hmove : fs.move operation.destination staged = some fs₁) :
    Script.Calmly (unstagePlugIn operation) ⟨fs₁, rest, journal⟩ (.ok ⟨⟩)
      ⟨fs, rest, journal⟩ := by
  obtain ⟨hleaf, habsent, hcalm⟩ := calmly_moveBack hmove
  rw [unstagePlugIn, hstaged]
  apply calmly_ask
  rw [hflag, hleaf, habsent]
  exact hcalm

theorem calmly_takeBackupAgain {rest : StateDirectory} {journal : List RemovalOperation}
    (hbackup : operation.backup = some backup) (hflag : operation.backupRestored = true)
    (hmove : fs.move backup operation.destination = some fs₁) :
    Script.Calmly (takeBackupAgain operation) ⟨fs₁, rest, journal⟩ (.ok ⟨⟩)
      ⟨fs, rest, journal⟩ := by
  obtain ⟨hleaf, habsent, hcalm⟩ := calmly_moveBack hmove
  rw [takeBackupAgain, hbackup]
  apply calmly_ask
  rw [hflag, hleaf, habsent]
  exact hcalm

theorem undoes_staged (hrestored : operation.backupRestored = false)
    (hstaged : operation.staged = some staged) (hflag : operation.plugInStaged = true)
    (hmove : fs.move operation.destination staged = some fs₁) : Undoes fs fs₁ operation :=
  fun _ _ => (calmly_takeBackupAgain_idle hrestored).bind
    (calmly_unstagePlugIn hstaged hflag hmove)

theorem Undoes.restored (h : Undoes fs fs₁ operation) (hflag : operation.backupRestored = false)
    (hbackup : operation.backup = some backup)
    (hmove : fs₁.move backup operation.destination = some fs₂) :
    Undoes fs fs₂ { operation with backupRestored := true } := by
  intro rest journal
  have hagain : Script.Calmly (takeBackupAgain { operation with backupRestored := true })
      ⟨fs₂, rest, journal⟩ (.ok ⟨⟩) ⟨fs₁, rest, journal⟩ :=
    calmly_takeBackupAgain hbackup rfl hmove
  have hunstage : Script.Calmly (unstagePlugIn operation) ⟨fs₁, rest, journal⟩ (.ok ⟨⟩)
      ⟨fs, rest, journal⟩ := by
    have hidle : Script.Calmly (takeBackupAgain operation) ⟨fs₁, rest, journal⟩ (.ok ⟨⟩)
        ⟨fs₁, rest, journal⟩ := calmly_takeBackupAgain_idle hflag
    have hall := h rest journal
    rw [Script.Calmly, rollbackOperation, Script.outcome_bind, hidle] at hall
    exact hall
  exact hagain.bind hunstage

end Rollback

section Removing
variable {newGuid : Guids} {file : ManagedFile} {setup : Setup γ}
  {fs fs' fs₀ fs₁ : FileSystem (Content γ)} {operations : List RemovalOperation}
  {s : Session (Content γ) StateDirectory RemovalOperation}

/-- What removing a recorded file has done, with the operation it has put on the list. -/
inductive Removed (newGuid : Guids) (file : ManagedFile) (fs : FileSystem (Content γ)) :
    List RemovalOperation → FileSystem (Content γ) → Prop
  | kept : file.changed = false → Removed newGuid file fs [] fs
  | gone : file.changed = true → fs.testLeaf file.destination = false → file.backup = none →
      Removed newGuid file fs [⟨file.destination, file.backup, none, false, false⟩] fs
  | goneRestored {backup : Path} {fs₁ : FileSystem (Content γ)} : file.changed = true →
      fs.testLeaf file.destination = false → file.backup = some backup →
      fs.move backup file.destination = some fs₁ →
      Removed newGuid file fs [⟨file.destination, file.backup, none, false, true⟩] fs₁
  | staged {fs₁ : FileSystem (Content γ)} : file.changed = true → file.backup = none →
      fs.move file.destination (getUninstallStagingPath newGuid fs file.destination) = some fs₁ →
      Removed newGuid file fs
        [⟨file.destination, file.backup,
          some (getUninstallStagingPath newGuid fs file.destination), true, false⟩] fs₁
  | replaced {backup : Path} {fs₁ fs₂ : FileSystem (Content γ)} : file.changed = true →
      file.backup = some backup →
      fs.move file.destination (getUninstallStagingPath newGuid fs file.destination) = some fs₁ →
      fs₁.move backup file.destination = some fs₂ →
      Removed newGuid file fs
        [⟨file.destination, file.backup,
          some (getUninstallStagingPath newGuid fs file.destination), true, true⟩] fs₂

/-- The list undoes what has been done since `fs₀`. -/
def Rollable (fs₀ : FileSystem (Content γ))
    (s : Session (Content γ) StateDirectory RemovalOperation) : Prop :=
  RollsBack fs₀ s.files s.journal

theorem ends_restoreBackup {done : List RemovalOperation} {operation : RemovalOperation}
    {Q : PUnit → Session (Content γ) StateDirectory RemovalOperation → Prop}
    (hdone : RollsBack fs₀ fs done) (hundoes : Undoes fs s.files operation)
    (hflag : operation.backupRestored = false) (hjournal : s.journal = done ++ [operation])
    (hnone : operation.backup = none → Q ⟨⟩ s)
    (hsome : ∀ backup fs₁, operation.backup = some backup →
      s.files.move backup operation.destination = some fs₁ →
      Q ⟨⟩ ⟨fs₁, s.rest, done ++ [{ operation with backupRestored := true }]⟩) :
    Script.Ends (restoreBackup done operation) s (fun _ s' => Rollable fs₀ s' ∧ Q ⟨⟩ s')
      (Rollable fs₀) := by
  have hnow : Rollable fs₀ s := by
    rw [Rollable, hjournal]
    exact hdone.snoc hundoes
  unfold restoreBackup
  split
  · next backup hbackup =>
    apply Script.Ends.bind (Q := fun _ s' => ∃ fs₁,
      s.files.move backup operation.destination = some fs₁ ∧ s' = { s with files := fs₁ })
    · exact ends_moveFile hnow fun fs₁ hmove => ⟨fs₁, hmove, rfl⟩
    rintro _ _ ⟨fs₁, hmove, rfl⟩
    exact Script.Ends.amend ⟨hdone.snoc (hundoes.restored hflag hbackup hmove),
      hsome backup fs₁ hbackup hmove⟩
  · next hbackup => exact Script.Ends.pure _ ⟨hnow, hnone hbackup⟩

/-- A step of the transaction: whatever it has done so far can be undone. -/
theorem ends_removeFile (h : Rollable fs₀ s) :
    Script.Ends (removeFile newGuid file) s
      (fun _ s' => Rollable fs₀ s' ∧ ∃ operations, s'.journal = s.journal ++ operations ∧
        Removed newGuid file s.files operations s'.files)
      (Rollable fs₀) := by
  apply Script.Ends.ite
  · intro hunchanged
    refine Script.Ends.pure _ ⟨h, [], (List.append_nil _).symm, .kept ?_⟩
    rwa [Bool.not_eq_true'] at hunchanged
  intro hchanged
  rw [Bool.not_eq_true', Bool.not_eq_false] at hchanged
  apply Script.Ends.look_bind
  apply Script.Ends.amend_bind
  apply Script.Ends.bind (Q := fun operation s' => ∃ fs₁,
    s' = ⟨fs₁, s.rest, s.journal ++ [operation]⟩ ∧ Undoes s.files fs₁ operation ∧
    ((operation = ⟨file.destination, file.backup, none, false, false⟩ ∧ fs₁ = s.files ∧
        s.files.testLeaf file.destination = false) ∨
      (operation = ⟨file.destination, file.backup,
          some (getUninstallStagingPath newGuid s.files file.destination), true, false⟩ ∧
        s.files.move file.destination
          (getUninstallStagingPath newGuid s.files file.destination) = some fs₁)))
  · -- staging
    apply ends_ask
    apply Script.Ends.ite
    · intro _
      apply ends_ask
      apply Script.Ends.amend_bind
      apply Script.Ends.bind (Q := fun _ s' => ∃ fs₁, s.files.move file.destination
        (getUninstallStagingPath newGuid s.files file.destination) = some fs₁ ∧
        s'.files = fs₁ ∧ s'.rest = s.rest)
      · exact ends_moveFile (h.snoc (undoes_idle rfl rfl)) fun fs₁ hmove => ⟨fs₁, hmove, rfl, rfl⟩
      rintro _ s' ⟨fs₁, hmove, hfiles, hrest⟩
      apply Script.Ends.amend_bind
      refine Script.Ends.pure _ ⟨fs₁, ?_, undoes_staged rfl rfl rfl hmove, .inr ⟨rfl, hmove⟩⟩
      rw [hfiles, hrest]
    · intro hleaf
      exact Script.Ends.pure _ ⟨s.files, rfl, undoes_idle rfl rfl,
        .inl ⟨rfl, rfl, Bool.eq_false_iff.mpr hleaf⟩⟩
  rintro operation _ ⟨fs₁, rfl, hundoes, ⟨rfl, rfl, hleaf⟩ | ⟨rfl, hmove⟩⟩
  · exact ends_restoreBackup (Q := fun (_ : Unit) s' => ∃ operations,
        s'.journal = s.journal ++ operations ∧ Removed newGuid file s.files operations s'.files)
      (s := ⟨s.files, s.rest, s.journal ++ [_]⟩) h hundoes rfl rfl
      (fun hnone => ⟨_, rfl, .gone hchanged hleaf hnone⟩)
      fun backup fs₁ hsome hmove => ⟨_, rfl, .goneRestored hchanged hleaf hsome hmove⟩
  · exact ends_restoreBackup (Q := fun (_ : Unit) s' => ∃ operations,
        s'.journal = s.journal ++ operations ∧ Removed newGuid file s.files operations s'.files)
      (s := ⟨fs₁, s.rest, s.journal ++ [_]⟩) h hundoes rfl rfl
      (fun hnone => ⟨_, rfl, .staged hchanged hnone hmove⟩)
      fun backup fs₂ hsome hback => ⟨_, rfl, .replaced hchanged hsome hmove hback⟩

inductive RemovedAll (newGuid : Guids) (fs : FileSystem (Content γ)) :
    List ManagedFile → List RemovalOperation → FileSystem (Content γ) → Prop
  | nil : RemovedAll newGuid fs [] [] fs
  | snoc {files : List ManagedFile} {file : ManagedFile} {fs₁ fs₂ : FileSystem (Content γ)}
      {operations last : List RemovalOperation} : RemovedAll newGuid fs files operations fs₁ →
      Removed newGuid file fs₁ last fs₂ →
      RemovedAll newGuid fs (files ++ [file]) (operations ++ last) fs₂

theorem ends_removeFiles (hempty : s.journal = []) (files : List ManagedFile) :
    Script.Ends (Script.onError (removeFiles setup newGuid files) rollback) s
      (fun _ s' => ∃ fs', RemovedAll newGuid s.files files s'.journal fs' ∧
        s'.files = fs'.erase setup.statePath)
      (fun s' => s'.files = s.files) := by
  apply Script.Ends.onError (F := Rollable s.files)
  · have hstart : Rollable s.files s ∧ RemovedAll newGuid s.files [] s.journal s.files := by
      rw [Rollable, hempty]
      exact ⟨RollsBack.nil _, .nil⟩
    have hloop : Script.Ends (files.forM (removeFile newGuid)) s
        (fun _ s' => Rollable s.files s' ∧ RemovedAll newGuid s.files files s'.journal s'.files)
        (Rollable s.files) := by
      apply Script.Ends.forM (I := fun done s' => Rollable s.files s' ∧
        RemovedAll newGuid s.files done s'.journal s'.files) files hstart
      rintro before file after s' - ⟨hrollable, hremoved⟩
      apply (ends_removeFile hrollable).weaken _ fun _ h => h
      rintro _ s'' ⟨hrollable', operations, hjournal, hlast⟩
      rw [hjournal]
      exact ⟨hrollable', hremoved.snoc hlast⟩
    apply hloop.bind
    rintro _ s' ⟨hrollable, hremoved⟩
    exact ends_deleteFile hrollable fun _ => ⟨s'.files, hremoved, rfl⟩
  · intro s' hrollable
    exact ⟨_, Script.Calmly.look_bind (hrollable s'.rest s'.journal), rfl⟩

end Removing

section Script
variable {newGuid : Guids} {setup : Setup γ}
  {s : Session (Content γ) StateDirectory RemovalOperation}

def StagedAt (operations : List RemovalOperation) (path : Path) : Prop :=
  ∃ operation ∈ operations, operation.staged = some path

/-- Nothing but staged files has gone since `fs`. -/
def Leaves (operations : List RemovalOperation) (fs : FileSystem (Content γ))
    (s' : Session (Content γ) StateDirectory RemovalOperation) : Prop :=
  ∀ path, ¬StagedAt operations path → s'.files.lookup path = fs.lookup path

theorem ends_deleteStaged {operations : List RemovalOperation} {operation : RemovalOperation}
    {fs : FileSystem (Content γ)} {E : Session (Content γ) StateDirectory RemovalOperation → Prop}
    (hmem : operation ∈ operations) (h : Leaves operations fs s) :
    Script.Ends (deleteStaged operation) s (fun _ => Leaves operations fs) E := by
  unfold deleteStaged
  split
  · next staged hstaged =>
    apply ends_ask
    apply Script.Ends.ite
    · intro _
      apply Script.Ends.swallow
      apply ends_deleteFile h
      intro _ path hpath
      have hne : path ≠ staged := by
        rintro rfl
        exact hpath ⟨operation, hmem, hstaged⟩
      exact (Finmap.lookup_erase_ne hne).trans (h path hpath)
    · intro _
      exact Script.Ends.pure _ h
  · exact Script.Ends.pure _ h

theorem ends_deleteAllStaged {E : Session (Content γ) StateDirectory RemovalOperation → Prop}
    (operations : List RemovalOperation) :
    Script.Ends (operations.forM deleteStaged) s (fun _ => Leaves operations s.files) E := by
  have hstart : Leaves operations s.files s := fun _ _ => rfl
  apply Script.Ends.forM (I := fun _ => Leaves operations s.files) operations hstart
  intro before operation after s' hsplit hs'
  have hmem : operation ∈ operations := by
    rw [← List.nil_append operations, hsplit]
    simp
  exact ends_deleteStaged hmem hs'

theorem reads_validateDestination (setup : Setup γ) (file : ManagedFile) :
    Script.Reads (validateDestination (ρ := ρ) setup file) := by
  apply Script.Reads.bind (Script.Reads.look _)
  intro present
  apply Script.Reads.ite
  · apply Script.Reads.bind (Script.Reads.look _)
    intro irregular
    apply Script.Reads.ite (Script.Reads.throw _)
    apply Script.Reads.bind (reads_getFileSha256 _ _)
    intro hash
    exact Script.Reads.ite (Script.Reads.throw _) (Script.Reads.pure _)
  · exact Script.Reads.pure _

theorem reads_validateBackup (setup : Setup γ) (file : ManagedFile) (backup : Path) :
    Script.Reads (validateBackup (ρ := ρ) setup file backup) := by
  apply Script.Reads.bind (reads_refuseIf _ _)
  intro _
  apply Script.Reads.bind (Script.Reads.look _)
  intro irregular
  apply Script.Reads.ite (Script.Reads.throw _)
  apply Script.Reads.bind (reads_getFileSha256 _ _)
  intro hash
  exact Script.Reads.ite (Script.Reads.throw _) (Script.Reads.pure _)

theorem reads_validateFile (setup : Setup γ) (file : ManagedFile) :
    Script.Reads (validateFile (ρ := ρ) setup file) := by
  apply Script.Reads.ite (Script.Reads.pure _)
  apply Script.Reads.bind (reads_validateDestination setup file)
  intro _
  split
  · exact reads_validateBackup setup file _
  · exact Script.Reads.pure _

theorem reads_validateFiles (setup : Setup γ) (files : List ManagedFile) :
    Script.Reads (files.forM (validateFile (ρ := ρ) setup)) := by
  induction files with
  | nil => exact Script.Reads.pure _
  | cons file files ih => exact Script.Reads.bind (reads_validateFile setup file) fun _ => ih

/-- The record in a file, as it comes out of its check. -/
def Holds (setup : Setup γ) (fs : FileSystem (Content γ)) (state : PluginState) : Prop :=
  ∃ raw shielded, fs.read setup.statePath = some (.record raw shielded) ∧
    assertFiles raw = .ok state

theorem ends_readFFBPluginState {allowMissing requireExecutable : Bool}
    {E : Session (Content γ) StateDirectory RemovalOperation → Prop} (hE : E s) :
    Script.Ends (readFFBPluginState setup allowMissing requireExecutable) s
      (fun found s' => s = s' ∧ ∀ state, found = some state → Holds setup s.files state) E := by
  apply ends_ask
  apply Script.Ends.ite
  · intro _
    apply Script.Ends.look_bind
    apply Script.Ends.ite
    · intro _
      apply Script.Ends.bind (Q := fun raw s' => s = s' ∧
        ∃ shielded, s.files.read setup.statePath = some (.record raw shielded))
      · unfold readRecord
        apply Script.Ends.operation hE
        · intro raw s' h
          split at h
          · next raw shielded hread =>
            cases h
            exact ⟨rfl, shielded, hread⟩
          · cases h
        · intro _ _
          exact hE
      rintro raw _ ⟨rfl, shielded, hread⟩
      apply Script.Ends.bind (Q := fun state s' => s = s' ∧ assertFiles raw = .ok state)
      · apply ends_assertFFBPluginState hE
        intro state hstate
        exact ⟨rfl, hstate⟩
      rintro state _ ⟨rfl, hstate⟩
      refine Script.Ends.pure _ ⟨rfl, ?_⟩
      rintro _ ⟨⟩
      exact ⟨raw, shielded, hread, hstate⟩
    · intro _
      exact Script.Ends.throw _ hE
  · intro _
    apply Script.Ends.ite
    · intro _
      refine Script.Ends.pure _ ⟨rfl, ?_⟩
      rintro _ ⟨⟩
    · intro _
      exact Script.Ends.throw _ hE

theorem ends_requireState {E : Session (Content γ) StateDirectory RemovalOperation → Prop}
    (hE : E s) :
    Script.Ends (requireState setup) s (fun state s' => s = s' ∧ Holds setup s.files state) E := by
  apply (ends_readFFBPluginState hE).bind
  rintro found _ ⟨rfl, hfound⟩
  cases found with
  | none => exact Script.Ends.throw _ hE
  | some state => exact Script.Ends.pure _ ⟨rfl, hfound state rfl⟩

/-- What a removal that ends well has done: every recorded file and the record are dealt with,
whatever of the staged copies is still there. -/
def RemovedAs (setup : Setup γ) (newGuid : Guids) (fs : FileSystem (Content γ))
    (state : PluginState) (s' : Session (Content γ) StateDirectory RemovalOperation) : Prop :=
  ∃ operations fs', RemovedAll newGuid fs state.files operations fs' ∧
    Leaves operations (fs'.erase setup.statePath) s'

theorem ends_removePlugin (hempty : s.journal = []) (state : PluginState) :
    Script.Ends (removePlugin setup newGuid state) s
      (fun outcome s' => outcome = .removed ∧ RemovedAs setup newGuid s.files state s')
      (fun s' => s'.files = s.files) := by
  apply (reads_check _ _).ends_bind
  · rfl
  intro _
  apply (reads_validateFiles setup state.files).ends_bind
  · rfl
  intro _
  apply (ends_removeFiles hempty state.files).bind
  rintro _ s₁ ⟨fs', hremoved, hfiles⟩
  apply Script.Ends.look_bind
  apply (ends_deleteAllStaged s₁.journal).bind
  intro _ s₂ hs₂
  refine Script.Ends.pure _ ⟨rfl, s₁.journal, fs', hremoved, ?_⟩
  rwa [hfiles] at hs₂

/-- Wherever the script stops with an error, the files are what they were. -/
theorem ends_uninstallSimHubPlugin (hempty : s.journal = []) :
    Script.Ends (uninstallSimHubPlugin setup newGuid) s
      (fun outcome s' => (outcome = .nothingInstalled ∧ s'.files = s.files) ∨
        (outcome = .removed ∧ ∃ state, Holds setup s.files state ∧
          RemovedAs setup newGuid s.files state s'))
      (fun s' => s'.files = s.files) := by
  apply ends_ask
  apply Script.Ends.ite
  · intro _
    apply Script.Ends.bind (Q := fun before s' => s = s' ∧ Holds setup s.files before)
    · apply ends_requireState
      rfl
    rintro before _ ⟨rfl, -⟩
    apply (reads_enterFFBSimHubMutationBoundary setup none _ _).ends_bind
    · rfl
    intro _
    apply Script.Ends.bind
      (Q := fun _ s' => s'.files = s.files ∧ s'.journal = s.journal)
    · exact (ends_enterFFBStateMutationBoundary false).weaken (fun _ _ h => h.1) fun _ h => h.1
    rintro _ s₁ ⟨hfiles, hjournal⟩
    apply Script.Ends.bind (Q := fun state s' => s₁ = s' ∧ Holds setup s₁.files state)
    · apply ends_requireState
      exact hfiles
    rintro state _ ⟨rfl, hholds⟩
    apply Script.Ends.ite
    · intro _
      exact Script.Ends.throw _ hfiles
    · intro _
      have hremove : Script.Ends (removePlugin setup newGuid state) s₁
          (fun outcome s' => outcome = .removed ∧ RemovedAs setup newGuid s₁.files state s')
          (fun s' => s'.files = s₁.files) := ends_removePlugin (hjournal.trans hempty) state
      rw [hfiles] at hremove hholds
      exact hremove.weaken (fun _ _ h => .inr ⟨h.1, state, hholds, h.2⟩) fun _ h => h
  · intro _
    exact Script.Ends.pure _ (.inl ⟨rfl, rfl⟩)

end Script

end FfbInterceptor.Installer
