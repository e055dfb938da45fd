import FfbInterceptor.Installer.Files

/-! The record of an installation: what a valid one is, how it is read and how it is saved. -/
namespace FfbInterceptor.Installer
open FfbInterceptor.Library

/-- A record of `Install-ManagedFile`. An empty backup path is none. -/
structure ManagedFile where
  destination : Path
  backup : Option Path
  backupSha256 : List Char
  installedSha256 : List Char
  changed : Bool
  deriving DecidableEq, Repr

structure PluginState where
  schemaVersion : Nat
  installedAtUtc : String
  installPath : List FileName
  files : List ManagedFile
  deriving DecidableEq, Repr

inductive Content (γ : Type) where
  | bytes (bytes : γ)
  | record (state : PluginState) (shielded : Bool)
  deriving DecidableEq, Repr

structure Setup (γ : Type) extends Host (Content γ) where
  stateDirectory : List FileName
  /-- Why a folder cannot hold SimHub or the state: a drive root, below Windows, a reparse point. -/
  rootRefusal : List FileName → Option Refusal
  administrator : Bool
  simHubRunning : Bool

abbrev StateDirectory := Option Bool

abbrev PluginScript (γ ρ α : Type) := FileScript (Content γ) StateDirectory ρ α

def managedNames : List FileName :=
  ["FFBInterceptor.SimHub.dll".toList, "FFBInterceptor.Core.dll".toList]

variable {γ ρ : Type}

def Setup.statePath (setup : Setup γ) : Path :=
  ⟨setup.stateDirectory, "simhub-plugin-state.json".toList⟩

section Assert

/-- `^..ffb-interceptor-backup(?:\.[1-9][0-9]*)?$`, from the suffix on. -/
def isBackupNumber : List Char → Bool
  | [] => true
  | '.' :: digit :: digits => '1' ≤ digit && digit ≤ '9' && digits.all Char.isDigit
  | _ => false

def isBackupPath (destination backup : Path) : Bool :=
  backup.folder = destination.folder &&
    (backup.name.dropPrefix? (destination.name ++ backupSuffix)).any isBackupNumber

def assertBackup (file : ManagedFile) : Except Refusal Unit :=
  let backupHash := file.backupSha256.map Char.toUpper
  match file.backup with
  | some backup =>
    if !file.changed then
      .error (.thrownAt "An unmanaged file cannot have a recorded backup: " file.destination)
    else if !isBackupPath file.destination backup then
      .error (.thrownAt "The plug-in state contains an unsafe backup path: " backup)
    else if !isSha256 backupHash then
      .error (.thrownAt "The plug-in state contains an invalid backup SHA-256: " backup)
    else .ok ()
  | none =>
    if !backupHash.all Char.isWhitespace then
      .error (.thrownAt "A missing backup cannot have a recorded SHA-256: " file.destination)
    else .ok ()

def assertManagedFile (installPath : List FileName) (seen : List FileName) (file : ManagedFile) :
    Except Refusal ManagedFile :=
  let name := file.destination.name
  let hash := file.installedSha256.map Char.toUpper
  if !managedNames.contains name || file.destination.folder ≠ installPath || seen.contains name then
    .error (.thrownAt "The plug-in state contains an unexpected or duplicate destination: "
      file.destination)
  else if !isSha256 hash then
    .error (.thrownAt "The plug-in state contains an invalid SHA-256: " file.destination)
  else
    (assertBackup file).map fun _ =>
      { file with backupSha256 := file.backupSha256.map Char.toUpper, installedSha256 := hash }

def assertManagedFiles (installPath : List FileName) :
    List FileName → List ManagedFile → Except Refusal (List ManagedFile)
  | _, [] => .ok []
  | seen, file :: files => do
    let validated ← assertManagedFile installPath seen file
    let rest ← assertManagedFiles installPath (file.destination.name :: seen) files
    pure (validated :: rest)

def assertFiles (state : PluginState) : Except Refusal PluginState :=
  if state.files.length ≠ managedNames.length then
    .error (.thrown "The plug-in state must contain exactly two managed files.")
  else
    (assertManagedFiles state.installPath [] state.files).map fun files =>
      { state with files := files }

def getFFBSimHubExecutablePath (root : List FileName) :
    List FileName → PluginScript γ ρ (Option Path)
  | [] => pure none
  | name :: names => do
    if ← ask fun fs => fs.testLeaf ⟨root, name⟩ then
      refuseIf (fun fs => fs.isIrregular ⟨root, name⟩)
        (.thrownAt "The SimHub executable cannot be a reparse point: " ⟨root, name⟩)
      pure (some ⟨root, name⟩)
    else getFFBSimHubExecutablePath root names

def simHubExecutables : List FileName := ["SimHubWPF.exe".toList, "SimHub.exe".toList]

def assertFFBSimHubRoot (setup : Setup γ) (root : List FileName) (requireExecutable : Bool) :
    PluginScript γ ρ PUnit :=
  match setup.rootRefusal root with
  | some refusal => refuse refusal
  | none => do
    if requireExecutable then
      let executable ← getFFBSimHubExecutablePath root simHubExecutables
      if executable.isNone then
        refuse (.thrown "SimHubWPF.exe or SimHub.exe was not found.")
      else pure ⟨⟩
    else pure ⟨⟩

def settle {α : Type} : Except Refusal α → PluginScript γ ρ α
  | .ok a => pure a
  | .error refusal => refuse refusal

def assertFFBPluginState (setup : Setup γ) (state : PluginState) (requireExecutable : Bool) :
    PluginScript γ ρ PluginState :=
  if state.schemaVersion ≠ 1 then refuse (.thrown "Unsupported SimHub plug-in state schema.")
  else do
    assertFFBSimHubRoot setup state.installPath requireExecutable
    settle (assertFiles state)

end Assert

section Boundaries

def leasePath (root : List FileName) : Path := ⟨root, ".ffb-interceptor-mutation.lock".toList⟩

/-- The lease is gone when the script ends, so that only its name being taken is of account, by a
file or by the boundary that is `held` already. -/
def enterFFBSimHubMutationBoundary (setup : Setup γ) (held : Option (List FileName))
    (root : List FileName) (requireExecutable : Bool) : PluginScript γ ρ PUnit := do
  fileOperation (leasePath root) id fun fs =>
    if fs.testPath (leasePath root) || held = some root then none else some fs
  assertFFBSimHubRoot setup root requireExecutable

/-- `[IO.Directory]::CreateDirectory` and the access rules, for the state directory. -/
def changeStateDirectory (setup : Setup γ) (permitted : Bool) (refusal : Refusal)
    (directory : StateDirectory) : PluginScript γ ρ PUnit :=
  Script.operation (.io ⟨setup.stateDirectory, []⟩) id fun s =>
    if permitted then .ok (⟨⟩, { s with rest := directory }) else .error refusal

def enterFFBStateMutationBoundary (setup : Setup γ) (held : Option (List FileName))
    (allowCreate : Bool) : PluginScript γ ρ PUnit := do
  let directory ← Script.look fun s => s.rest
  if directory.isNone then
    changeStateDirectory setup allowCreate
      (.thrown "The protected plug-in state directory was not found.") (some false)
    enterFFBSimHubMutationBoundary setup held setup.stateDirectory false
  else enterFFBSimHubMutationBoundary setup held setup.stateDirectory false

def setFFBProtectedDirectoryAcl (setup : Setup γ) : PluginScript γ ρ PUnit :=
  changeStateDirectory setup setup.administrator
    (.thrown "Administrator rights are required to protect installation state.") (some true)

def Content.shield : Content γ → Content γ
  | .record state _ => .record state true
  | content => content

def setFFBProtectedFileAcl (path : Path) : PluginScript γ ρ PUnit :=
  fileOperation path id fun fs =>
    match fs.lookup path with
    | some (.file content) => some (fs.insert path (.file content.shield))
    | _ => none

end Boundaries

section Store

def testFFBStateProtection (setup : Setup γ) : PluginScript γ ρ Bool :=
  Script.look fun s =>
    s.rest = some true &&
      match s.files.lookup setup.statePath with
      | some (.file (.record _ shielded)) => shielded
      | _ => false

def readRecord (setup : Setup γ) : PluginScript γ ρ PluginState :=
  Script.operation (.io setup.statePath) id fun s =>
    match s.files.read setup.statePath with
    | some (.record state _) => .ok (state, s)
    | _ => .error (.thrownAt "The SimHub plug-in state is invalid: " setup.statePath)

def readFFBPluginState (setup : Setup γ) (allowMissing requireExecutable : Bool) :
    PluginScript γ ρ (Option PluginState) := do
  if ← ask fun fs => fs.testLeaf setup.statePath then
    if ← testFFBStateProtection setup then
      let state ← readRecord setup
      let validated ← assertFFBPluginState setup state requireExecutable
      pure (some validated)
    else
      refuse (.thrownAt "The SimHub plug-in state is not administrator-protected: "
        setup.statePath)
  else if allowMissing then pure none
  else
    refuse (.thrownAt "No managed SimHub plug-in installation was found: " setup.statePath)

def temporaryState (setup : Setup γ) (guid : FileName) : Path :=
  ⟨setup.stateDirectory, ".simhub-plugin-state-".toList ++ guid ++ ".tmp".toList⟩

/-- The new record under its temporary name, made unchangeable and moved into place. -/
def publishState (setup : Setup γ) (temporary : Path) (state : PluginState) :
    PluginScript γ ρ PUnit := do
  writeAllText setup.toHost temporary (.record state false)
  setFFBProtectedFileAcl temporary
  moveFile temporary setup.statePath

def saveFFBPluginState (setup : Setup γ) (guid : FileName) (state : PluginState) :
    PluginScript γ ρ PUnit := do
  let validated ← assertFFBPluginState setup state true
  enterFFBStateMutationBoundary setup (some state.installPath) true
  refuseIf (fun fs => fs.testPath setup.statePath)
    (.thrownAt "Refusing to overwrite existing plug-in state: " setup.statePath)
  setFFBProtectedDirectoryAcl setup
  Script.always (publishState setup (temporaryState setup guid) validated)
    (discard (temporaryState setup guid))

end Store

section Names

theorem digitChar_pos : ∀ n < 10, 0 < n → ('1' ≤ n.digitChar && n.digitChar ≤ '9') = true := by
  decide

theorem toDigits_head {n : Nat} (hn : 0 < n) :
    ∃ d digits, Nat.toDigits 10 n = d :: digits ∧ ('1' ≤ d && d ≤ '9') = true := by
  induction n using Nat.strongRecOn with
  | ind n ih =>
    by_cases hsmall : n < 10
    · exact ⟨n.digitChar, [], Nat.toDigits_of_lt_base hsmall, digitChar_pos n hsmall hn⟩
    · have hdiv : 0 < n / 10 := by omega
      obtain ⟨d, digits, hdigits, hd⟩ := ih (n / 10) (by omega) hdiv
      refine ⟨d, digits ++ [(n % 10).digitChar], ?_, hd⟩
      rw [Nat.toDigits_of_base_le (by omega) (by omega), hdigits, List.cons_append]

theorem isBackupNumber_toDigits {n : Nat} (hn : 0 < n) :
    isBackupNumber ('.' :: Nat.toDigits 10 n) = true := by
  obtain ⟨d, digits, hdigits, hd⟩ := toDigits_head hn
  have hall : digits.all Char.isDigit = true := by
    rw [List.all_eq_true]
    intro c hc
    apply Nat.isDigit_of_mem_toDigits (b := 10) (n := n) (by omega) (by omega)
    rw [hdigits]
    exact List.mem_cons_of_mem _ hc
  rw [hdigits, isBackupNumber, hd, hall]
  rfl

theorem isBackupPath_append (destination : Path) (number : List Char)
    (h : isBackupNumber number = true) :
    isBackupPath destination (destination.append (backupSuffix ++ number)) = true := by
  have hdrop : ((destination.name ++ backupSuffix) ++ number).dropPrefix?
      (destination.name ++ backupSuffix) = some number :=
    List.dropPrefix?_append_of_beq _ (beq_self_eq_true _)
  rw [isBackupPath, Path.append, ← List.append_assoc, hdrop]
  simp only [decide_true, Bool.true_and, Option.any_some, h]

/-- Every name the search for a backup goes through is one of those a record may hold. -/
theorem isBackupPath_backupCandidate (destination : Path) (n : Nat) :
    isBackupPath destination (backupCandidate destination n) = true := by
  cases n with
  | zero =>
    have hfirst := isBackupPath_append destination [] rfl
    rwa [List.append_nil] at hfirst
  | succ n => exact isBackupPath_append destination _ (isBackupNumber_toDigits (Nat.succ_pos n))

end Names

section Records
variable {host : Host (Content γ)} {installPath : List FileName} {file : ManagedFile}

structure Recorded (host : Host (Content γ)) (destination : Path) (file : ManagedFile) : Prop where
  at_destination : file.destination = destination
  installed : ∃ content, file.installedSha256 = host.sha256 content
  backup : (file.backup = none ∧ file.backupSha256 = []) ∨
    (file.changed = true ∧ (∃ n, file.backup = some (backupCandidate destination n)) ∧
      ∃ content, file.backupSha256 = host.sha256 content)

theorem sha256_toUpper (host : Host γ) (content : γ) :
    (host.sha256 content).map Char.toUpper = host.sha256 content := map_toUpper_toHex _

theorem Recorded.assertBackup {destination : Path} (h : Recorded host destination file) :
    assertBackup file = .ok () := by
  rcases h.backup with ⟨hnone, hempty⟩ | ⟨hchanged, ⟨n, hsome⟩, content, hhash⟩
  · simp only [Installer.assertBackup, hnone, hempty, List.map_nil, List.all_nil, Bool.not_true,
      Bool.false_eq_true, if_false]
  · have hname : isBackupPath file.destination (backupCandidate destination n) = true := by
      rw [h.at_destination]
      exact isBackupPath_backupCandidate destination n
    have hhex : isSha256 (host.sha256 content) = true := isSha256_toHex _
    simp only [Installer.assertBackup, hsome, hhash, sha256_toUpper, hchanged, hname, hhex,
      Bool.not_true, Bool.false_eq_true, if_false]

theorem Recorded.map_toUpper {destination : Path} (h : Recorded host destination file) :
    file.backupSha256.map Char.toUpper = file.backupSha256 := by
  rcases h.backup with ⟨-, hempty⟩ | ⟨-, -, content, hhash⟩
  · rw [hempty]
    rfl
  · rw [hhash, sha256_toUpper]

theorem Recorded.assertManagedFile {name : FileName} (seen : List FileName)
    (h : Recorded host ⟨installPath, name⟩ file) (hname : managedNames.contains name = true)
    (hseen : seen.contains name = false) :
    assertManagedFile installPath seen file = .ok file := by
  obtain ⟨content, hinstalled⟩ := h.installed
  have hhex : isSha256 (host.sha256 content) = true := isSha256_toHex _
  have hbackup := h.assertBackup
  have hupper := h.map_toUpper
  obtain ⟨destination, backup, backupSha256, installedSha256, changed⟩ := file
  obtain rfl : destination = ⟨installPath, name⟩ := h.at_destination
  obtain rfl : installedSha256 = host.sha256 content := hinstalled
  simp only at hupper
  simp only [Installer.assertManagedFile, hname, hseen, hbackup, hhex, sha256_toUpper, hupper,
    Bool.not_true, ne_eq, not_true_eq_false, decide_false, Bool.or_false, Bool.false_eq_true,
    if_false, Except.map]

/-- What an installation writes passes the check and comes out of it as it was. -/
theorem assertFiles_recorded {state : PluginState} {simHub core : ManagedFile}
    (hfiles : state.files = [simHub, core])
    (hsimHub : Recorded host ⟨state.installPath, "FFBInterceptor.SimHub.dll".toList⟩ simHub)
    (hcore : Recorded host ⟨state.installPath, "FFBInterceptor.Core.dll".toList⟩ core) :
    assertFiles state = .ok state := by
  have hfirst := hsimHub.assertManagedFile [] (by decide) rfl
  have hsecond := hcore.assertManagedFile ["FFBInterceptor.SimHub.dll".toList] (by decide) (by decide)
  have hname : simHub.destination.name = "FFBInterceptor.SimHub.dll".toList := by
    rw [hsimHub.at_destination]
  have hmanaged : assertManagedFiles state.installPath [] state.files = .ok state.files := by
    rw [hfiles, assertManagedFiles, hfirst, hname]
    change (assertManagedFiles state.installPath ["FFBInterceptor.SimHub.dll".toList] [core]
      >>= _) = _
    rw [assertManagedFiles, hsecond]
    rfl
  have hlength : state.files.length = managedNames.length := by
    rw [hfiles]
    rfl
  rw [assertFiles, if_neg (not_not_intro hlength), hmanaged]
  rfl

end Records

section Readings
variable (setup : Setup γ)

theorem reads_getFFBSimHubExecutablePath (root names : List FileName) :
    Script.Reads (getFFBSimHubExecutablePath (γ := γ) (ρ := ρ) root names) := by
  induction names with
  | nil => exact Script.Reads.pure _
  | cons name names ih =>
    apply Script.Reads.bind (Script.Reads.look _)
    intro present
    apply Script.Reads.ite
    · exact Script.Reads.bind (reads_refuseIf _ _) fun _ => Script.Reads.pure _
    · exact ih

theorem reads_assertFFBSimHubRoot (root : List FileName) (requireExecutable : Bool) :
    Script.Reads (assertFFBSimHubRoot (ρ := ρ) setup root requireExecutable) := by
  unfold assertFFBSimHubRoot
  split
  · exact Script.Reads.throw _
  · apply Script.Reads.ite
    · apply Script.Reads.bind (reads_getFFBSimHubExecutablePath root _)
      intro executable
      exact Script.Reads.ite (Script.Reads.throw _) (Script.Reads.pure _)
    · exact Script.Reads.pure _

theorem reads_settle {α : Type} (result : Except Refusal α) :
    Script.Reads (settle (γ := γ) (ρ := ρ) result) := by
  cases result with
  | ok a => exact Script.Reads.pure a
  | error refusal => exact Script.Reads.throw refusal

theorem reads_assertFFBPluginState (state : PluginState) (requireExecutable : Bool) :
    Script.Reads (assertFFBPluginState (ρ := ρ) setup state requireExecutable) := by
  apply Script.Reads.ite
  · exact Script.Reads.throw _
  · exact Script.Reads.bind (reads_assertFFBSimHubRoot setup _ _) fun _ => reads_settle _

theorem reads_enterFFBSimHubMutationBoundary (held : Option (List FileName))
    (root : List FileName) (requireExecutable : Bool) :
    Script.Reads (enterFFBSimHubMutationBoundary (ρ := ρ) setup held root requireExecutable) := by
  refine Script.Reads.bind ?_ fun _ => reads_assertFFBSimHubRoot setup root requireExecutable
  apply reads_fileOperation
  intro fs fs' h
  split at h
  · cases h
  · cases h
    rfl

theorem reads_readRecord : Script.Reads (readRecord (ρ := ρ) setup) := by
  apply Script.Reads.operation
  intro s a s' h
  split at h
  · cases h
    rfl
  · cases h

theorem reads_readFFBPluginState (allowMissing requireExecutable : Bool) :
    Script.Reads (readFFBPluginState (ρ := ρ) setup allowMissing requireExecutable) := by
  apply Script.Reads.bind (Script.Reads.look _)
  intro present
  apply Script.Reads.ite
  · apply Script.Reads.bind (Script.Reads.look _)
    intro shielded
    apply Script.Reads.ite
    · apply Script.Reads.bind (reads_readRecord setup)
      intro state
      exact Script.Reads.bind (reads_assertFFBPluginState setup state _) fun _ =>
        Script.Reads.pure _
    · exact Script.Reads.throw _
  · exact Script.Reads.ite (Script.Reads.pure _) (Script.Reads.throw _)

end Readings

section Saving
variable {setup : Setup γ} {s : Session (Content γ) StateDirectory ρ}

/-- The state directory may have changed, nothing else has. -/
def SameFiles (s s' : Session (Content γ) StateDirectory ρ) : Prop :=
  s'.files = s.files ∧ s'.journal = s.journal

theorem SameFiles.trans {s s' s'' : Session (Content γ) StateDirectory ρ} (h : SameFiles s s')
    (h' : SameFiles s' s'') : SameFiles s s'' := ⟨h'.1.trans h.1, h'.2.trans h.2⟩

theorem ends_assertFFBPluginState {state : PluginState} {requireExecutable : Bool}
    {Q : PluginState → Session (Content γ) StateDirectory ρ → Prop}
    {E : Session (Content γ) StateDirectory ρ → Prop} (hE : E s)
    (hQ : ∀ validated, assertFiles state = .ok validated → Q validated s) :
    Script.Ends (assertFFBPluginState setup state requireExecutable) s Q E := by
  apply Script.Ends.ite
  · intro _
    exact Script.Ends.throw _ hE
  · intro _
    apply (reads_assertFFBSimHubRoot setup _ _).ends_bind hE
    intro _
    cases hresult : assertFiles state with
    | ok validated => exact Script.Ends.pure _ (hQ validated hresult)
    | error refusal => exact Script.Ends.throw _ hE

theorem ends_changeStateDirectory (permitted : Bool) (refusal : Refusal)
    (directory : StateDirectory) :
    Script.Ends (changeStateDirectory setup permitted refusal directory) s
      (fun _ s' => s' = { s with rest := directory }) (SameFiles s) := by
  unfold changeStateDirectory
  apply Script.Ends.operation ⟨rfl, rfl⟩
  · intro a s' h
    split at h
    · cases h
      rfl
    · cases h
  · intro _ _
    exact ⟨rfl, rfl⟩

/-- What a boundary asks for, the executable apart. -/
structure Enterable (setup : Setup γ) (held : Option (List FileName)) (root : List FileName)
    (fs : FileSystem (Content γ)) : Prop where
  lease : fs.lookup (leasePath root) = none
  not_held : held ≠ some root
  root : setup.rootRefusal root = none

variable {held : Option (List FileName)}

theorem ends_assertFFBSimHubRoot {root : List FileName} {requireExecutable : Bool}
    {Q : PUnit → Session (Content γ) StateDirectory ρ → Prop}
    {E : Session (Content γ) StateDirectory ρ → Prop} (hE : E s)
    (hQ : setup.rootRefusal root = none → Q ⟨⟩ s) :
    Script.Ends (assertFFBSimHubRoot setup root requireExecutable) s Q E := by
  unfold assertFFBSimHubRoot
  split
  · exact Script.Ends.throw _ hE
  · next hroot =>
    apply Script.Ends.ite
    · intro _
      apply (reads_getFFBSimHubExecutablePath root simHubExecutables).ends_bind hE
      intro executable
      apply Script.Ends.ite
      · intro _
        exact Script.Ends.throw _ hE
      · intro _
        exact Script.Ends.pure _ (hQ hroot)
    · intro _
      exact Script.Ends.pure _ (hQ hroot)

theorem ends_enterFFBSimHubMutationBoundary {root : List FileName} {requireExecutable : Bool}
    {Q : PUnit → Session (Content γ) StateDirectory ρ → Prop}
    {E : Session (Content γ) StateDirectory ρ → Prop} (hE : E s)
    (hQ : Enterable setup held root s.files → Q ⟨⟩ s) :
    Script.Ends (enterFFBSimHubMutationBoundary setup held root requireExecutable) s Q E := by
  apply Script.Ends.bind (Q := fun _ s' => s = s' ∧ s.files.lookup (leasePath root) = none ∧
    held ≠ some root)
  · apply ends_fileOperation hE hE
    intro fs h
    split at h
    · cases h
    · next hfree =>
      cases h
      simp only [Bool.or_eq_true, decide_eq_true_eq, not_or] at hfree
      exact ⟨rfl, FileSystem.testPath_eq_false.mp (Bool.eq_false_iff.mpr hfree.1), hfree.2⟩
  · rintro _ _ ⟨rfl, hlease, hheld⟩
    exact ends_assertFFBSimHubRoot hE fun hroot => hQ ⟨hlease, hheld, hroot⟩

theorem ends_enterFFBStateMutationBoundary (allowCreate : Bool) :
    Script.Ends (enterFFBStateMutationBoundary setup held allowCreate) s
      (fun _ s' => SameFiles s s' ∧ Enterable setup held setup.stateDirectory s.files)
      (SameFiles s) := by
  apply Script.Ends.look_bind
  apply Script.Ends.ite
  · intro _
    apply (ends_changeStateDirectory _ _ _).bind
    rintro _ s' rfl
    exact ends_enterFFBSimHubMutationBoundary ⟨rfl, rfl⟩ fun h => ⟨⟨rfl, rfl⟩, h⟩
  · intro _
    exact ends_enterFFBSimHubMutationBoundary ⟨rfl, rfl⟩ fun h => ⟨⟨rfl, rfl⟩, h⟩

/-- Only the files have changed, by one that is left at a path. -/
def Strewn (temporary : Path) (s s' : Session (Content γ) StateDirectory ρ) : Prop :=
  ∃ fs, s.files.Littered temporary fs ∧ s' = { s with files := fs }

theorem ends_publishState {temporary : Path} {state : PluginState}
    (hfresh : s.files.lookup temporary = none) (hne : setup.statePath ≠ temporary) :
    Script.Ends (publishState setup temporary state) s
      (fun _ s' => s.files.lookup setup.statePath = none ∧
        s' = { s with files := s.files.insert setup.statePath (.file (.record state true)) })
      (Strewn temporary s) := by
  have hinserted : ∀ content, Strewn temporary s
      { s with files := s.files.insert temporary (.file content) } :=
    fun content => ⟨_, FileSystem.littered_insert _ _ content, rfl⟩
  unfold publishState
  apply Script.Ends.bind (Q := fun _ s' =>
    s' = { s with files := s.files.insert temporary (.file (.record state false)) })
  · exact ends_writeAllText hfresh ⟨_, .inl rfl, rfl⟩
      ⟨_, setup.toHost.littered_tear temporary s.files, rfl⟩ rfl
  rintro _ _ rfl
  apply Script.Ends.bind (Q := fun _ s' =>
    s' = { s with files := s.files.insert temporary (.file (.record state true)) })
  · apply ends_fileOperation (hinserted _) (hinserted _)
    intro fs h
    rw [Finmap.lookup_insert] at h
    cases h
    rw [Finmap.insert_insert]
    rfl
  rintro _ _ rfl
  apply ends_moveFile (hinserted _)
  intro fs hmove
  obtain ⟨habsent, rfl⟩ := FileSystem.move_inserted hfresh hne hmove
  exact ⟨habsent, rfl⟩

theorem ends_saveFFBPluginState {guid : FileName} {state : PluginState}
    (hfresh : s.files.lookup (temporaryState setup guid) = none)
    (hne : setup.statePath ≠ temporaryState setup guid) :
    Script.Ends (saveFFBPluginState setup guid state) s
      (fun _ s' => Enterable setup (some state.installPath) setup.stateDirectory s.files ∧
        s.files.lookup setup.statePath = none ∧
        ∃ validated, assertFiles state = .ok validated ∧ s'.journal = s.journal ∧
          s'.rest = some true ∧
          s'.files = s.files.insert setup.statePath (.file (.record validated true)))
      (SameFiles s) := by
  unfold saveFFBPluginState
  apply Script.Ends.bind (Q := fun validated s' => assertFiles state = .ok validated ∧ s' = s)
  · exact ends_assertFFBPluginState ⟨rfl, rfl⟩ fun validated h => ⟨h, rfl⟩
  rintro validated s' ⟨hvalidated, hs⟩
  rw [hs]
  apply (ends_enterFFBStateMutationBoundary true).bind
  rintro _ s₁ ⟨hs₁, henter⟩
  apply (reads_refuseIf _ _).ends_bind hs₁
  intro _
  apply ((ends_changeStateDirectory _ _ _).weaken (fun _ _ h => h) fun _ => hs₁.trans).bind
  intro _ s₂ hdirectory
  have hs₂ : SameFiles s s₂ := hs₁.trans (hdirectory ▸ ⟨rfl, rfl⟩)
  have hrest : s₂.rest = some true := by rw [hdirectory]
  have hfresh₂ : s₂.files.lookup (temporaryState setup guid) = none := by rwa [hs₂.1]
  apply Script.Ends.always (ends_publishState hfresh₂ hne)
  · rintro s' ⟨fs, hlittered, rfl⟩
    exact ⟨_, calmly_discard hfresh₂ hlittered, hs₂⟩
  · rintro _ s' ⟨habsent, rfl⟩
    have hgone : (s₂.files.insert setup.statePath (.file (.record validated true))).lookup
        (temporaryState setup guid) = none := by
      rwa [Finmap.lookup_insert_of_ne _ hne.symm]
    apply ends_discard_absent hgone
    rw [hs₂.1] at habsent
    exact ⟨henter, habsent, validated, hvalidated, hs₂.2, hrest, by rw [← hs₂.1]⟩

end Saving

end FfbInterceptor.Installer
