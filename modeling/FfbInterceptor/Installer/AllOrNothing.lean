import FfbInterceptor.Installer.Rollback

/-! An installation comes to its end when nothing refuses it and no operation fails; else nothing
has happened. -/
namespace FfbInterceptor.Installer
open FfbInterceptor.Library

variable {γ ρ : Type} {setup : Setup γ} {package : Package γ}

section Checks
variable {s s' : Session (Content γ) StateDirectory ρ} {root : List FileName}

def HasExecutable (fs : FileSystem (Content γ)) (root : List FileName) : Prop :=
  (∃ content, fs.lookup ⟨root, "SimHubWPF.exe".toList⟩ = some (.file content)) ∨
    (fs.read ⟨root, "SimHubWPF.exe".toList⟩ = none ∧
      ∃ content, fs.lookup ⟨root, "SimHub.exe".toList⟩ = some (.file content))

theorem isIrregular_of_file {fs : FileSystem (Content γ)} {path : Path} {content : Content γ}
    (h : fs.lookup path = some (.file content)) : fs.isIrregular path = false := by
  rw [FileSystem.isIrregular, h]
  rfl

theorem isIrregular_of_absent {fs : FileSystem (Content γ)} {path : Path}
    (h : fs.lookup path = none) : fs.isIrregular path = false := by
  rw [FileSystem.isIrregular, h]
  rfl

theorem calmly_executable_found {name : FileName} {names : List FileName} {content : Content γ}
    (h : s.files.lookup ⟨root, name⟩ = some (.file content)) :
    Script.Calmly (getFFBSimHubExecutablePath root (name :: names)) s
      (.ok (some ⟨root, name⟩)) s := by
  apply calmly_ask
  rw [FileSystem.testLeaf_of_file h, if_pos rfl]
  exact (calmly_refuseIf (isIrregular_of_file h)).bind (Script.Calmly.pure _ s)

theorem calmly_executable_next {name : FileName} {names : List FileName}
    {result : Except Refusal (Option Path)} (h : s.files.read ⟨root, name⟩ = none)
    (hrest : Script.Calmly (getFFBSimHubExecutablePath root names) s result s') :
    Script.Calmly (getFFBSimHubExecutablePath root (name :: names)) s result s' := by
  apply calmly_ask
  rw [FileSystem.testLeaf_eq_false.mpr h, if_neg Bool.false_ne_true]
  exact hrest

theorem calmly_assertFFBSimHubRoot {requireExecutable : Bool}
    (hroot : setup.rootRefusal root = none)
    (hexecutable : requireExecutable = true → HasExecutable s.files root) :
    Script.Calmly (assertFFBSimHubRoot setup root requireExecutable) s (.ok ⟨⟩) s := by
  rw [assertFFBSimHubRoot, hroot]
  cases requireExecutable with
  | false => exact Script.Calmly.pure _ s
  | true =>
    have hfound : ∃ path, Script.Calmly
        (getFFBSimHubExecutablePath root simHubExecutables) s (.ok (some path)) s := by
      rcases hexecutable rfl with ⟨content, hfirst⟩ | ⟨hfirst, content, hsecond⟩
      · exact ⟨_, calmly_executable_found hfirst⟩
      · exact ⟨_, calmly_executable_next hfirst (calmly_executable_found hsecond)⟩
    obtain ⟨path, hcalm⟩ := hfound
    exact hcalm.bind (Script.Calmly.pure _ s)

theorem calmly_enterFFBSimHubMutationBoundary {held : Option (List FileName)}
    {requireExecutable : Bool} (h : Enterable setup held root s.files)
    (hexecutable : requireExecutable = true → HasExecutable s.files root) :
    Script.Calmly (enterFFBSimHubMutationBoundary setup held root requireExecutable) s
      (.ok ⟨⟩) s := by
  have hlease : Script.Calmly (fileOperation (leasePath root) id fun fs : FileSystem (Content γ) =>
      if fs.testPath (leasePath root) || held = some root then none else some fs) s (.ok ⟨⟩) s := by
    have hfree : (s.files.testPath (leasePath root) || held = some root) = false := by
      rw [FileSystem.testPath_eq_false.mpr h.lease, decide_eq_false h.not_held]
      rfl
    exact calmly_fileOperation (if_neg (Bool.eq_false_iff.mp hfree))
  exact hlease.bind (calmly_assertFFBSimHubRoot h.root hexecutable)

theorem calmly_readFFBPluginState_missing (requireExecutable : Bool)
    (h : s.files.lookup setup.statePath = none) :
    Script.Calmly (readFFBPluginState setup true requireExecutable) s (.ok none) s := by
  apply calmly_ask
  rw [FileSystem.testLeaf_eq_false.mpr (FileSystem.read_of_absent h), if_neg Bool.false_ne_true]
  exact Script.Calmly.pure _ s

theorem calmly_assertFFBPluginState {state : PluginState} {requireExecutable : Bool}
    (hversion : state.schemaVersion = 1) (hfiles : assertFiles state = .ok state)
    (hroot : setup.rootRefusal state.installPath = none)
    (hexecutable : requireExecutable = true → HasExecutable s.files state.installPath) :
    Script.Calmly (assertFFBPluginState setup state requireExecutable) s (.ok state) s := by
  rw [assertFFBPluginState, if_neg (not_not_intro hversion), hfiles]
  exact (calmly_assertFFBSimHubRoot hroot hexecutable).bind (Script.Calmly.pure _ s)

theorem calmly_readFFBPluginState {state : PluginState} (allowMissing : Bool)
    (hrest : s.rest = some true)
    (hsaved : s.files.lookup setup.statePath = some (.file (.record state true)))
    (hversion : state.schemaVersion = 1) (hfiles : assertFiles state = .ok state)
    (hroot : setup.rootRefusal state.installPath = none) :
    Script.Calmly (readFFBPluginState setup allowMissing false) s (.ok (some state)) s := by
  apply calmly_ask
  rw [FileSystem.testLeaf_of_file hsaved, if_pos rfl]
  apply Script.Calmly.look_bind
  rw [hrest, hsaved]
  have hread : Script.Calmly (readRecord setup) s (.ok state) s := by
    unfold readRecord
    apply Script.Calmly.operation
    rw [FileSystem.read_of_file hsaved]
  apply hread.bind
  have hassert : Script.Calmly (assertFFBPluginState setup state false) s (.ok state) s :=
    calmly_assertFFBPluginState hversion hfiles hroot fun h => absurd h Bool.false_ne_true
  exact hassert.bind (Script.Calmly.pure _ s)

end Checks

section Saving
variable {s : Session (Content γ) StateDirectory ρ}

theorem calmly_changeStateDirectory {refusal : Refusal} (directory : StateDirectory) :
    Script.Calmly (changeStateDirectory setup true refusal directory) s (.ok ⟨⟩)
      { s with rest := directory } := by
  unfold changeStateDirectory
  exact Script.Calmly.operation rfl

theorem calmly_enterFFBStateMutationBoundary {held : Option (List FileName)}
    (h : Enterable setup held setup.stateDirectory s.files) :
    ∃ directory, Script.Calmly (enterFFBStateMutationBoundary setup held true) s (.ok ⟨⟩)
      { s with rest := directory } := by
  have hnever : false = true → HasExecutable s.files setup.stateDirectory :=
    fun h => absurd h Bool.false_ne_true
  cases hrest : s.rest with
  | none =>
    refine ⟨some false, ?_⟩
    apply Script.Calmly.look_bind
    rw [hrest]
    exact (calmly_changeStateDirectory (some false)).bind
      (calmly_enterFFBSimHubMutationBoundary (s := { s with rest := some false }) h hnever)
  | some shielded =>
    refine ⟨some shielded, ?_⟩
    have hcalm := calmly_enterFFBSimHubMutationBoundary h hnever
    apply Script.Calmly.look_bind
    rw [← hrest]
    rw [if_neg (by rw [hrest]; exact Bool.false_ne_true)]
    exact hcalm

theorem calmly_publishState {temporary : Path} (state : PluginState)
    (hfresh : s.files.lookup temporary = none) (hne : setup.statePath ≠ temporary)
    (hunsaved : s.files.lookup setup.statePath = none) :
    Script.Calmly (publishState setup temporary state) s (.ok ⟨⟩)
      { s with files := s.files.insert setup.statePath (.file (.record state true)) } := by
  apply (calmly_writeAllText hfresh).bind
  have hshield : Script.Calmly (setFFBProtectedFileAcl temporary)
      { s with files := s.files.insert temporary (.file (.record state false)) } (.ok ⟨⟩)
      { s with files := s.files.insert temporary (.file (.record state true)) } := by
    apply calmly_fileOperation
    rw [Finmap.lookup_insert]
    simp only [Content.shield, Finmap.insert_insert]
  apply hshield.bind
  apply calmly_moveFile
  have hthere := Finmap.lookup_insert s.files (a := temporary)
    (b := Entry.file (Content.record state true))
  rw [FileSystem.move_of_lookup hthere (FileSystem.testLeaf_of_file hthere)
    (by rwa [Finmap.lookup_insert_of_ne _ hne]), FileSystem.erase_insert hfresh]

theorem returns_saveFFBPluginState {guid : FileName} {state : PluginState}
    (hfresh : s.files.lookup (temporaryState setup guid) = none)
    (hunsaved : s.files.lookup setup.statePath = none) (hadmin : setup.administrator = true)
    (hversion : state.schemaVersion = 1) (hfiles : assertFiles state = .ok state)
    (hroot : setup.rootRefusal state.installPath = none)
    (hexecutable : HasExecutable s.files state.installPath)
    (henter : Enterable setup (some state.installPath) setup.stateDirectory s.files) :
    Script.Returns (saveFFBPluginState setup guid state) s := by
  obtain ⟨directory, hboundary⟩ := calmly_enterFFBStateMutationBoundary henter
  have hassert : Script.Calmly (assertFFBPluginState setup state true) s (.ok state) s :=
    calmly_assertFFBPluginState hversion hfiles hroot fun _ => hexecutable
  have hpublish := calmly_publishState (s := { s with rest := some true }) state hfresh
    (statePath_ne_temporaryState guid) hunsaved
  have hgone : (s.files.insert setup.statePath (.file (.record state true))).lookup
      (temporaryState setup guid) = none := by
    rwa [Finmap.lookup_insert_of_ne _ (statePath_ne_temporaryState guid).symm]
  have hdiscard := calmly_discard (s := ⟨s.files.insert setup.statePath
    (.file (.record state true)), some true, s.journal⟩) hgone (.inl rfl)
  have hunwritten : Script.Calmly (refuseIf (fun fs => fs.testPath setup.statePath)
      (.thrownAt "Refusing to overwrite existing plug-in state: " setup.statePath))
      { s with rest := directory } (.ok ⟨⟩) { s with rest := directory } :=
    calmly_refuseIf (FileSystem.testPath_eq_false.mpr hunsaved)
  have hacl : Script.Calmly (setFFBProtectedDirectoryAcl setup) { s with rest := directory }
      (.ok ⟨⟩) { s with rest := some true } := by
    rw [setFFBProtectedDirectoryAcl, hadmin]
    exact calmly_changeStateDirectory _
  exact ⟨⟨⟩, _, hassert.bind <| hboundary.bind <| hunwritten.bind <| hacl.bind <|
    hpublish.always hdiscard⟩

end Saving

section File
variable {s : Session (Content γ) StateDirectory ρ} {source destination temporary : Path}
  {content : Content γ}

theorem calmly_sourceSha256 (h : package.files.lookup source = some (.file content)) :
    Script.Calmly (sourceSha256 setup package source) s (.ok (setup.sha256 content)) s := by
  have hhash : Script.Calmly (getPackageSha256 setup package source) s
      (.ok (setup.sha256 content)) s := by
    unfold getPackageSha256
    apply Script.Calmly.operation
    rw [FileSystem.read_of_file h]
  rw [sourceSha256, FileSystem.testLeaf_of_file h]
  apply hhash.bind
  rw [isIrregular_of_file h]
  exact Script.Calmly.pure _ s

theorem calmly_refuseIrregular (h : s.files.isIrregular destination = false) :
    Script.Calmly (refuseIrregular destination) s (.ok ⟨⟩) s := calmly_refuseIf h

theorem calmly_copyIn (setup : Setup γ) (hsource : package.files.lookup source = some (.file content))
    (hfresh : s.files.lookup temporary = none) (hne : destination ≠ temporary)
    (habsent : s.files.lookup destination = none) :
    Script.Calmly (do copyFile setup package source temporary; moveFile temporary destination) s
      (.ok ⟨⟩) { s with files := s.files.insert destination (.file content) } := by
  rw [copyFile, FileSystem.read_of_file hsource]
  apply (calmly_createFile hfresh).bind
  apply calmly_moveFile
  have hthere := Finmap.lookup_insert s.files (a := temporary) (b := Entry.file content)
  rw [FileSystem.move_of_lookup hthere (FileSystem.testLeaf_of_file hthere)
    (by rwa [Finmap.lookup_insert_of_ne _ hne]), FileSystem.erase_insert hfresh]

theorem returns_install_added (hsource : package.files.lookup source = some (.file content))
    (hfresh : s.files.lookup (temporaryFile package destination) = none)
    (habsent : s.files.lookup destination = none) :
    Script.Returns (installManagedFile setup package source destination) s := by
  have hleaf := FileSystem.testLeaf_eq_false.mpr (FileSystem.read_of_absent habsent)
  have hholds : Script.Calmly (holdsAlready setup destination (setup.sha256 content)) s
      (.ok false) s := by
    apply calmly_ask
    rw [hleaf]
    exact Script.Calmly.pure _ s
  have hchoose : Script.Calmly (chooseBackup setup destination) s (.ok (none, [])) s := by
    apply calmly_ask
    rw [hleaf]
    exact Script.Calmly.pure _ s
  have hpublish := calmly_copyIn setup hsource hfresh (temporaryFile_ne _).symm habsent
  exact ⟨_, _, (calmly_sourceSha256 hsource).bind <|
    (calmly_refuseIrregular (isIrregular_of_absent habsent)).bind <| hholds.bind <|
    (hchoose.onError _).bind <| (((Script.Calmly.pure _ s).bind hpublish).onError _).bind <|
    Script.Calmly.pure _ _⟩

theorem returns_install_over {old : Content γ}
    (hsource : package.files.lookup source = some (.file content))
    (hfresh : s.files.lookup (temporaryFile package destination) = none)
    (hold : s.files.lookup destination = some (.file old)) :
    Script.Returns (installManagedFile setup package source destination) s := by
  have hread := FileSystem.read_of_file hold
  have hleaf := FileSystem.testLeaf_of_file hold
  have hregular := calmly_refuseIrregular (isIrregular_of_file hold)
  have hholds : Script.Calmly (holdsAlready setup destination (setup.sha256 content)) s
      (.ok (setup.sha256 old = setup.sha256 content)) s := by
    apply calmly_ask
    rw [hleaf]
    exact (calmly_getFileSha256 hread).bind (Script.Calmly.pure _ s)
  by_cases hsame : setup.sha256 old = setup.sha256 content
  · rw [decide_eq_true hsame] at hholds
    exact ⟨_, _, (calmly_sourceSha256 hsource).bind <| hregular.bind <| hholds.bind <|
      Script.Calmly.pure _ s⟩
  · rw [decide_eq_false hsame] at hholds
    have hchoose : Script.Calmly (chooseBackup setup destination) s
        (.ok (some (getBackupPath s.files destination), setup.sha256 old)) s := by
      apply calmly_ask
      rw [hleaf]
      exact hregular.bind <| (calmly_getFileSha256 hread).bind <| calmly_ask <|
        Script.Calmly.pure _ s
    have hmove := FileSystem.move_of_lookup hold hleaf (getBackupPath_free s.files destination)
    have habsent : ((s.files.erase destination).insert (getBackupPath s.files destination)
        (.file old)).lookup destination = none := by
      rw [FileSystem.lookup_insert_erase, if_neg (getBackupPath_ne _ _).symm, if_pos rfl]
    have hfresh₁ : ((s.files.erase destination).insert (getBackupPath s.files destination)
        (.file old)).lookup (temporaryFile package destination) = none := by
      have hbackup : temporaryFile package destination ≠ getBackupPath s.files destination :=
        temporaryFile_ne_backupCandidate destination _
      rw [FileSystem.lookup_insert_erase, if_neg hbackup, if_neg (temporaryFile_ne _), hfresh]
    have hpublish := calmly_copyIn (s := { s with files := _ }) setup hsource hfresh₁
      (temporaryFile_ne _).symm habsent
    exact ⟨_, _, (calmly_sourceSha256 hsource).bind <| hregular.bind <| hholds.bind <|
      (hchoose.onError _).bind <| (((calmly_moveFile hmove).bind hpublish).onError _).bind <|
      Script.Calmly.pure _ _⟩

theorem returns_installManagedFile
    (hsource : package.files.lookup source = some (.file content))
    (hfresh : s.files.lookup (temporaryFile package destination) = none)
    (hregular : s.files.isIrregular destination = false) :
    Script.Returns (installManagedFile setup package source destination) s := by
  rcases file_of_regular hregular with habsent | ⟨old, hold⟩
  · exact returns_install_added hsource hfresh habsent
  · exact returns_install_over hsource hfresh hold

end File

section Script
variable {s : Session (Content γ) StateDirectory ManagedFile} {simHubPath : List FileName}

/-- Nothing is in the way of an installation into a folder. -/
structure Ready (setup : Setup γ) (package : Package γ) (simHubPath : List FileName)
    (fs : FileSystem (Content γ)) : Prop where
  manifest : package.manifestVerified = true
  closed : setup.simHubRunning = false
  administrator : setup.administrator = true
  simHub : Enterable setup none simHubPath fs
  directory : Enterable setup (some simHubPath) setup.stateDirectory fs
  executable : HasExecutable fs simHubPath
  unsaved : fs.lookup setup.statePath = none
  sources : ∀ name ∈ managedNames, ∃ content,
    package.files.lookup (package.source name) = some (.file content)
  regular : ∀ name ∈ managedNames, fs.isIrregular ⟨simHubPath, name⟩ = false

theorem returns_installFiles (hempty : s.journal = [])
    (hready : Ready setup package simHubPath s.files)
    (hfresh : Fresh setup package simHubPath s.files) :
    Script.Returns (installFiles setup package simHubPath) s := by
  have hstart : Undoable setup package simHubPath s.files [] s := by
    rw [Undoable, hempty]
    exact .nil
  apply Script.Returns.forM (E := fun s' => ∃ names,
    Undoable setup package simHubPath s.files names s') managedNames hstart
  intro before name after s' hnames hs'
  obtain ⟨hname, hcopy, hdestination⟩ := hs'.next hnames
  rw [hfresh.file name hname] at hcopy
  obtain ⟨content, hsource⟩ := hready.sources name hname
  have hregular : s'.files.isIrregular ⟨simHubPath, name⟩ = false := by
    rw [FileSystem.isIrregular, hdestination]
    exact hready.regular name hname
  constructor
  · obtain ⟨record, s'', hcalm⟩ := returns_installManagedFile hsource hcopy hregular
    exact ⟨_, _, hcalm.bind (Script.Calmly.amend _ s'')⟩
  · exact (ends_installFile hcopy hs').weaken (fun _ _ h => h) fun _ h => ⟨before, h⟩

theorem HasExecutable.transport {fs fs' : FileSystem (Content γ)} {root : List FileName}
    (h : HasExecutable fs root)
    (hsame : ∀ name ∈ simHubExecutables, fs'.lookup ⟨root, name⟩ = fs.lookup ⟨root, name⟩) :
    HasExecutable fs' root := by
  have hfirst := hsame "SimHubWPF.exe".toList (by decide)
  have hsecond := hsame "SimHub.exe".toList (by decide)
  rcases h with ⟨content, hfile⟩ | ⟨habsent, content, hfile⟩
  · exact .inl ⟨content, hfirst.trans hfile⟩
  · exact .inr ⟨(FileSystem.read_congr hfirst).trans habsent, content, hsecond.trans hfile⟩

theorem returns_installPlugin (hempty : s.journal = [])
    (hready : Ready setup package simHubPath s.files)
    (hfresh : Fresh setup package simHubPath s.files) :
    Script.Returns (installPlugin setup package simHubPath) s := by
  have hclosed : Script.Calmly (check (!setup.simHubRunning)
      (.thrown "Close SimHub before installing the plug-in.")) s (.ok ⟨⟩) s :=
    calmly_check (by rw [hready.closed]; rfl)
  obtain ⟨_, s₁, hfiles⟩ := (returns_installFiles hempty hready hfresh).onError
    (restoreChanges setup)
  have hdone : Undoable setup package simHubPath s.files managedNames s₁ :=
    (ends_installFiles hempty hfresh).of_calmly hfiles
  obtain ⟨fs₁, simHub, core, content, content', hjournal, -, -, hsimHub, hcore⟩ := hdone.both
  have hsame : ∀ {path : Path}, path.name[0]? ≠ some 'F' →
      s₁.files.lookup path = s.files.lookup path :=
    fun hname => hdone.frame (not_touched_of_name hname)
  have hsave : Script.Returns (saveFFBPluginState setup package.stateGuid
      ⟨1, package.now, simHubPath, s₁.journal⟩) s₁ := by
    apply returns_saveFFBPluginState
    · rw [hsame, hfresh.state]
      intro h
      change some '.' = some 'F' at h
      cases h
    · rw [hdone.frame statePath_not_touched, hready.unsaved]
    · exact hready.administrator
    · rfl
    · rw [hjournal]
      exact assertFiles_recorded rfl hsimHub.recorded hcore.recorded
    · exact hready.simHub.root
    · apply hready.executable.transport
      intro name hname
      apply hsame
      have hfirst : ∀ name ∈ simHubExecutables, name[0]? ≠ some 'F' := by decide
      exact hfirst name hname
    · refine ⟨?_, hready.directory.not_held, hready.directory.root⟩
      rw [hsame, hready.directory.lease]
      intro h
      change some '.' = some 'F' at h
      cases h
  obtain ⟨_, s₂, hsaved⟩ := hsave.onError (restoreChanges setup)
  exact ⟨_, _, hclosed.bind <| hfiles.bind <| (Script.Calmly.look_bind <| hsaved.bind <|
    Script.Calmly.pure _ s₂)⟩

theorem returns_installSimHubPlugin (simHubInstallPath : Option (List FileName))
    (hempty : s.journal = [])
    (hready : Ready setup package (chosenSimHub package simHubInstallPath) s.files)
    (hfresh : Fresh setup package (chosenSimHub package simHubInstallPath) s.files) :
    ∃ s', Script.Calmly (installSimHubPlugin setup package simHubInstallPath) s
      (.ok .installed) s' := by
  obtain ⟨outcome, s', hinstalled⟩ := returns_installPlugin hempty hready hfresh
  obtain ⟨rfl, -⟩ :=
    (ends_installPlugin hempty hfresh hready.simHub).of_calmly hinstalled
  refine ⟨s', ?_⟩
  have hmissing := calmly_readFFBPluginState_missing (s := s) true hready.unsaved
  have hroot : Script.Calmly
      (assertFFBSimHubRoot setup (chosenSimHub package simHubInstallPath) true) s (.ok ⟨⟩) s :=
    calmly_assertFFBSimHubRoot hready.simHub.root fun _ => hready.executable
  have hrequested : Script.Calmly (resolveRequested setup simHubInstallPath) s
      (.ok simHubInstallPath) s := by
    cases simHubInstallPath with
    | none => exact Script.Calmly.pure _ s
    | some path =>
      have hresolved : Script.Calmly (resolveSimHubPath setup path) s (.ok path) s :=
        hroot.bind (Script.Calmly.pure path s)
      exact hresolved.bind (Script.Calmly.pure _ s)
  have hchosen : Script.Calmly (chooseSimHubPath setup package none simHubInstallPath) s
      (.ok (chosenSimHub package simHubInstallPath)) s := by
    cases simHubInstallPath with
    | none => exact hroot.bind (Script.Calmly.pure _ s)
    | some path => exact Script.Calmly.pure _ s
  have hboundary : Script.Calmly (enterFFBSimHubMutationBoundary setup none
      (chosenSimHub package simHubInstallPath) true) s (.ok ⟨⟩) s :=
    calmly_enterFFBSimHubMutationBoundary hready.simHub fun _ => hready.executable
  exact (calmly_check hready.manifest).bind <| hmissing.bind <| hrequested.bind <|
    hchosen.bind <| hboundary.bind <| hmissing.bind hinstalled

end Script

section AllOrNothing

/-- Wherever one operation fails, and also where the script refuses, the files are what they were.
Where it does not, they are what the record says. -/
theorem all_or_nothing (setup : Setup γ) (package : Package γ)
    (simHubInstallPath : Option (List FileName)) (fs : FileSystem (Content γ))
    (directory : StateDirectory)
    (hfresh : Fresh setup package (chosenSimHub package simHubInstallPath) fs) :
    Script.Ends (installSimHubPlugin setup package simHubInstallPath) ⟨fs, directory, []⟩
      (fun outcome s' => (outcome = .alreadyInstalled ∧ s'.files = fs) ∨
        (outcome = .installed ∧
          (∃ simHub core, Settled setup package (chosenSimHub package simHubInstallPath) fs
            s'.files simHub core) ∧
          (NoCollision setup package (chosenSimHub package simHubInstallPath) fs →
            ∀ name ∈ managedNames, ∃ content,
              package.files.read (package.source name) = some content ∧
              s'.files.lookup ⟨chosenSimHub package simHubInstallPath, name⟩ =
                some (.file content))))
      (fun s' => s'.files = fs) ∧
    (Ready setup package (chosenSimHub package simHubInstallPath) fs →
      ∃ s', Script.Calmly (installSimHubPlugin setup package simHubInstallPath)
        ⟨fs, directory, []⟩ (.ok .installed) s') := by
  refine ⟨?_, fun hready => returns_installSimHubPlugin _ rfl hready hfresh⟩
  apply (ends_installSimHubPlugin simHubInstallPath rfl hfresh).weaken _ fun _ h => h
  rintro outcome s' (hreported | ⟨hinstalled, hcompleted⟩)
  · exact .inl hreported
  · obtain ⟨simHub, core, -, hsettled⟩ := hcompleted.settled
    exact .inr ⟨hinstalled, ⟨simHub, core, hsettled⟩, hsettled.bytes⟩

def sampleDigest : Content Nat → Digest
  | .bytes n => fun _ => Fin.ofNat 256 n
  | .record _ _ => fun _ => 0

def sampleSetup : Setup Nat where
  digest := sampleDigest
  torn := some (.bytes 7)
  stateDirectory := ["ProgramData".toList, "FFBInterceptor".toList]
  rootRefusal := fun root => if root = [] then some (.thrown "drive root") else none
  administrator := true
  simHubRunning := false

def samplePackage : Package Nat where
  files := [⟨⟨["bundle".toList, "simhub".toList], "FFBInterceptor.SimHub.dll".toList⟩, .file (.bytes 1)⟩,
    ⟨⟨["bundle".toList, "simhub".toList], "FFBInterceptor.Core.dll".toList⟩, .file (.bytes 2)⟩].toFinmap
  bundleRoot := ["bundle".toList]
  manifestVerified := true
  defaultSimHub := ["SimHub".toList]
  newGuid := fun _ => "0123456789abcdef".toList
  stateGuid := "fedcba9876543210".toList
  now := "2024-01-01"

def sampleFiles : FileSystem (Content Nat) :=
  [⟨⟨["SimHub".toList], "SimHub.exe".toList⟩, .file (.bytes 9)⟩,
    ⟨⟨["SimHub".toList], "FFBInterceptor.SimHub.dll".toList⟩, .file (.bytes 3)⟩,
    ⟨⟨["SimHub".toList], "FFBInterceptor.SimHub.dll.ffb-interceptor-backup".toList⟩,
      .file (.bytes 4)⟩,
    ⟨⟨["SimHub".toList], "FFBInterceptor.Core.dll".toList⟩, .file (.bytes 2)⟩].toFinmap

theorem sample_fresh : Fresh sampleSetup samplePackage ["SimHub".toList] sampleFiles where
  file := by decide
  state := by decide

theorem sample_ready : Ready sampleSetup samplePackage ["SimHub".toList] sampleFiles where
  manifest := rfl
  closed := rfl
  administrator := rfl
  simHub := ⟨by decide, by decide, by decide⟩
  directory := ⟨by decide, by decide, by decide⟩
  executable := .inr ⟨by decide, .bytes 9, by decide⟩
  unsaved := by decide
  sources := by
    intro name hname
    simp only [managedNames, List.mem_cons, List.not_mem_nil, or_false] at hname
    rcases hname with rfl | rfl
    · exact ⟨.bytes 1, by decide⟩
    · exact ⟨.bytes 2, by decide⟩
  regular := by decide

theorem all_or_nothing_sample :
    (∃ s', Script.Calmly (installSimHubPlugin sampleSetup samplePackage none)
      ⟨sampleFiles, none, []⟩ (.ok .installed) s') ∧
    Script.Ends (installSimHubPlugin sampleSetup samplePackage none) ⟨sampleFiles, none, []⟩
      (fun _ _ => True) (fun s' => s'.files = sampleFiles) :=
  ⟨(all_or_nothing sampleSetup samplePackage none sampleFiles none sample_fresh).2 sample_ready,
    (all_or_nothing sampleSetup samplePackage none sampleFiles none sample_fresh).1.weaken
      (fun _ _ _ => trivial) fun _ h => h⟩

end AllOrNothing

end FfbInterceptor.Installer
