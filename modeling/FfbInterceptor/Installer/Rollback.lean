import FfbInterceptor.Installer.ManagedFile

/-! Wherever an installation fails, the folder is as it was; where it succeeds, the record says what
was done. -/
namespace FfbInterceptor.Installer
open FfbInterceptor.Library

variable {γ ρ : Type} {setup : Setup γ} {package : Package γ}

section Installing
variable {s : Session (Content γ) StateDirectory ManagedFile} {simHubPath : List FileName}

theorem not_touched_temporaryFile {name name' : FileName} (hname : name ∈ managedNames)
    (hname' : name' ∈ managedNames) :
    ¬Touched ⟨simHubPath, name'⟩ (temporaryFile package ⟨simHubPath, name⟩) := by
  by_cases hne : name = name'
  · rw [hne]
    rintro (h | ⟨n, h⟩)
    · exact temporaryFile_ne _ h
    · exact temporaryFile_ne_backupCandidate _ n h
  · exact not_touched_append simHubPath hname hname' hne _

/-- The GUIDs of this run are in no name of a file yet. -/
structure Fresh (setup : Setup γ) (package : Package γ) (simHubPath : List FileName)
    (fs : FileSystem (Content γ)) : Prop where
  file : ∀ name ∈ managedNames, fs.lookup (temporaryFile package ⟨simHubPath, name⟩) = none
  state : fs.lookup (temporaryState setup package.stateGuid) = none

def Undoable (setup : Setup γ) (package : Package γ) (simHubPath : List FileName)
    (fs : FileSystem (Content γ)) (names : List FileName)
    (s : Session (Content γ) StateDirectory ManagedFile) : Prop :=
  InstalledAll setup package simHubPath fs names s.files s.journal

theorem calmly_restoreChanges {fs : FileSystem (Content γ)} {names : List FileName}
    (h : Undoable setup package simHubPath fs names s) :
    Script.Calmly (restoreChanges setup) s (.ok ⟨⟩) { s with files := fs } :=
  Script.Calmly.look_bind (h.restore s.rest s.journal)

theorem ends_installFile {fs : FileSystem (Content γ)} {names : List FileName} {name : FileName}
    (hfresh : s.files.lookup (temporaryFile package ⟨simHubPath, name⟩) = none)
    (h : Undoable setup package simHubPath fs names s) :
    Script.Ends (installFile setup package simHubPath name) s
      (fun _ => Undoable setup package simHubPath fs (names ++ [name]))
      (Undoable setup package simHubPath fs names) := by
  apply ((ends_installManagedFile hfresh).weaken (fun _ _ h => h) fun _ hs => hs ▸ h).bind
  rintro record _ ⟨content, fs', hread, hinstalled, rfl⟩
  exact Script.Ends.amend (h.snoc ⟨content, hread, hinstalled⟩)

theorem Undoable.next {fs : FileSystem (Content γ)} {before after : List FileName}
    {name : FileName} (h : Undoable setup package simHubPath fs before s)
    (hnames : managedNames = before ++ name :: after) :
    name ∈ managedNames ∧
      s.files.lookup (temporaryFile package ⟨simHubPath, name⟩) =
        fs.lookup (temporaryFile package ⟨simHubPath, name⟩) ∧
      s.files.lookup ⟨simHubPath, name⟩ = fs.lookup ⟨simHubPath, name⟩ := by
  have hname : name ∈ managedNames := by
    rw [hnames]
    simp
  have hbefore : ∀ name' ∈ before, name' ∈ managedNames := by
    intro name' hmem
    rw [hnames]
    exact List.mem_append_left _ hmem
  have hnodup : managedNames.Nodup := by decide
  rw [hnames] at hnodup
  refine ⟨hname, h.frame fun name' hmem => not_touched_temporaryFile hname (hbefore name' hmem),
    h.frame fun name' hmem => ?_⟩
  have hne : name ≠ name' := fun heq =>
    (List.nodup_append.mp hnodup).2.2 name' hmem name List.mem_cons_self heq.symm
  have happend := not_touched_append simHubPath hname (hbefore name' hmem) hne []
  rwa [Path.append, List.append_nil] at happend

theorem ends_installFiles (hempty : s.journal = [])
    (hfresh : Fresh setup package simHubPath s.files) :
    Script.Ends
      (Script.onError (installFiles setup package simHubPath) (restoreChanges setup)) s
      (fun _ => Undoable setup package simHubPath s.files managedNames)
      (fun s' => s'.files = s.files) := by
  have hstart : Undoable setup package simHubPath s.files [] s := by
    rw [Undoable, hempty]
    exact .nil
  apply Script.Ends.onError
    (F := fun s' => ∃ names, Undoable setup package simHubPath s.files names s')
  · apply Script.Ends.forM managedNames hstart
    intro before name after s' hnames hs'
    obtain ⟨hname, hcopy, -⟩ := hs'.next hnames
    rw [hfresh.file name hname] at hcopy
    exact (ends_installFile hcopy hs').weaken (fun _ _ h => h) fun _ h => ⟨before, h⟩
  · rintro s' ⟨names, h⟩
    exact ⟨_, calmly_restoreChanges h, rfl⟩

theorem not_touched_of_name {path : Path} (hpath : path.name[0]? ≠ some 'F') :
    ∀ name ∈ managedNames, ¬Touched ⟨simHubPath, name⟩ path := by
  intro name hname h
  obtain ⟨suffix, rfl⟩ := h.append
  apply hpath
  simp only [managedNames, List.mem_cons, List.not_mem_nil, or_false] at hname
  rcases hname with rfl | rfl <;> rfl

theorem statePath_ne_temporaryState (guid : FileName) :
    setup.statePath ≠ temporaryState setup guid := by
  intro h
  have hchar := congrArg (fun path => path.name[0]?) h
  change some 's' = some '.' at hchar
  cases hchar

structure Completed (setup : Setup γ) (package : Package γ) (simHubPath : List FileName)
    (fs : FileSystem (Content γ)) (s : Session (Content γ) StateDirectory ManagedFile) : Prop where
  closed : setup.simHubRunning = false
  simHub : Enterable setup none simHubPath fs
  directory : Enterable setup (some simHubPath) setup.stateDirectory fs
  shielded : s.rest = some true
  files : ∃ fs', InstalledAll setup package simHubPath fs managedNames fs' s.journal ∧
    fs'.lookup setup.statePath = none ∧
    ∃ validated, assertFiles ⟨1, package.now, simHubPath, s.journal⟩ = .ok validated ∧
      s.files = fs'.insert setup.statePath (.file (.record validated true))

theorem ends_installPlugin (hempty : s.journal = [])
    (hfresh : Fresh setup package simHubPath s.files)
    (hsimHub : Enterable setup none simHubPath s.files) :
    Script.Ends (installPlugin setup package simHubPath) s
      (fun outcome s' => outcome = .installed ∧ Completed setup package simHubPath s.files s')
      (fun s' => s'.files = s.files) := by
  apply Script.Ends.bind (Q := fun _ s' => s = s' ∧ setup.simHubRunning = false)
  · apply ends_check
    · rfl
    intro hclosed
    rw [Bool.not_eq_true'] at hclosed
    exact ⟨rfl, hclosed⟩
  rintro _ _ ⟨rfl, hclosed⟩
  apply (ends_installFiles hempty hfresh).bind
  intro _ s₁ hdone
  apply Script.Ends.look_bind
  have hguid : s₁.files.lookup (temporaryState setup package.stateGuid) = none := by
    have hname : (temporaryState setup package.stateGuid).name[0]? ≠ some 'F' := by
      intro h
      change some '.' = some 'F' at h
      cases h
    rw [hdone.frame (not_touched_of_name hname)]
    exact hfresh.state
  apply Script.Ends.bind (Q := fun _ => Completed setup package simHubPath s.files)
  · apply Script.Ends.onError
      ((ends_saveFFBPluginState hguid (statePath_ne_temporaryState _)).weaken ?_ fun _ h => h)
    · rintro s' ⟨hfiles, hjournal⟩
      have hundo : Undoable setup package simHubPath s.files managedNames s' := by
        rw [Undoable, hfiles, hjournal]
        exact hdone
      exact ⟨_, calmly_restoreChanges hundo, rfl⟩
    · rintro _ s' ⟨henter, habsent, validated, hvalidated, hjournal, hrest, hfiles⟩
      rw [← hjournal] at hvalidated
      have hlease : (leasePath setup.stateDirectory).name[0]? ≠ some 'F' := by
        intro h
        change some '.' = some 'F' at h
        cases h
      refine ⟨hclosed, hsimHub, ⟨?_, henter.not_held, henter.root⟩, hrest, s₁.files, ?_, habsent,
        validated, hvalidated, hfiles⟩
      · rw [← hdone.frame (not_touched_of_name hlease)]
        exact henter.lease
      · rw [hjournal]
        exact hdone
  · intro _ s' hs'
    exact Script.Ends.pure _ ⟨rfl, hs'⟩

end Installing

section Script
variable {s : Session (Content γ) StateDirectory ManagedFile}

theorem reads_getPackageSha256 (source : Path) :
    Script.Reads (getPackageSha256 (ρ := ρ) setup package source) := by
  apply Script.Reads.operation
  intro s a s' h
  split at h
  · cases h
    rfl
  · cases h

theorem reads_testStateValid (files : List ManagedFile) :
    Script.Reads (testStateValid (ρ := ρ) setup files) := by
  induction files with
  | nil => exact Script.Reads.pure _
  | cons file files ih =>
    apply Script.Reads.bind (Script.Reads.look _)
    intro present
    apply Script.Reads.ite
    · apply Script.Reads.bind (reads_getFileSha256 _ _)
      intro hash
      exact Script.Reads.ite ih (Script.Reads.pure _)
    · exact Script.Reads.pure _

theorem reads_testStateMatchesPackage (files : List ManagedFile) (names : List FileName) :
    Script.Reads (testStateMatchesPackage (ρ := ρ) setup package files names) := by
  induction names with
  | nil => exact Script.Reads.pure _
  | cons name names ih =>
    apply Script.Reads.ite (Script.Reads.throw _)
    apply Script.Reads.ite (Script.Reads.throw _)
    split
    · exact Script.Reads.pure _
    · apply Script.Reads.bind (reads_getPackageSha256 _)
      intro hash
      exact Script.Reads.ite ih (Script.Reads.pure _)

theorem ends_reportExisting (requested : Option (List FileName)) (simHubPath : List FileName) :
    Script.Ends (reportExisting setup package requested simHubPath) s
      (fun outcome s' => outcome = .alreadyInstalled ∧ s'.files = s.files)
      (fun s' => s'.files = s.files) := by
  apply ((ends_enterFFBStateMutationBoundary false).weaken (fun _ _ h => h) fun _ h => h.1).bind
  rintro _ s₁ ⟨hs₁, -⟩
  apply (reads_readFFBPluginState setup false true).ends_bind hs₁.1
  intro existing
  cases existing with
  | none => exact Script.Ends.throw _ hs₁.1
  | some state =>
    apply Script.Ends.ite
    · intro _
      exact Script.Ends.throw _ hs₁.1
    intro _
    apply Script.Ends.ite
    · intro _
      exact Script.Ends.throw _ hs₁.1
    intro _
    apply (reads_testStateValid state.files).ends_bind hs₁.1
    intro valid
    apply Script.Ends.ite
    · intro _
      apply (reads_testStateMatchesPackage state.files managedNames).ends_bind hs₁.1
      intro same
      apply Script.Ends.ite
      · intro _
        exact Script.Ends.pure _ ⟨rfl, hs₁.1⟩
      · intro _
        exact Script.Ends.throw _ hs₁.1
    · intro _
      exact Script.Ends.throw _ hs₁.1

def chosenSimHub (package : Package γ) (simHubInstallPath : Option (List FileName)) :
    List FileName := simHubInstallPath.getD package.defaultSimHub

theorem ends_installSimHubPlugin (simHubInstallPath : Option (List FileName))
    (hempty : s.journal = [])
    (hfresh : Fresh setup package (chosenSimHub package simHubInstallPath) s.files) :
    Script.Ends (installSimHubPlugin setup package simHubInstallPath) s
      (fun outcome s' => (outcome = .alreadyInstalled ∧ s'.files = s.files) ∨
        (outcome = .installed ∧
          Completed setup package (chosenSimHub package simHubInstallPath) s.files s'))
      (fun s' => s'.files = s.files) := by
  apply (reads_check _ _).ends_bind
  · rfl
  intro _
  refine (reads_readFFBPluginState setup true true).ends_bind rfl fun before => ?_
  apply Script.Ends.bind (Q := fun requested s' => s = s' ∧ simHubInstallPath = requested)
  · cases simHubInstallPath with
    | none => exact Script.Ends.pure _ ⟨rfl, rfl⟩
    | some path =>
      apply Script.Ends.bind (Q := fun resolved s' => s = s' ∧ path = resolved)
      · refine (reads_assertFFBSimHubRoot setup path true).ends_bind rfl fun _ => ?_
        exact Script.Ends.pure _ ⟨rfl, rfl⟩
      · rintro _ _ ⟨rfl, rfl⟩
        exact Script.Ends.pure _ ⟨rfl, rfl⟩
  rintro _ _ ⟨rfl, rfl⟩
  apply Script.Ends.bind (Q := fun simHubPath s' => s = s' ∧
    (before = none → simHubPath = chosenSimHub package simHubInstallPath))
  · cases before with
    | some state =>
      apply Script.Ends.pure
      refine ⟨rfl, fun h => ?_⟩
      cases h
    | none =>
      cases simHubInstallPath with
      | some path => exact Script.Ends.pure _ ⟨rfl, fun _ => rfl⟩
      | none =>
        refine (reads_assertFFBSimHubRoot setup package.defaultSimHub true).ends_bind rfl
          fun _ => ?_
        exact Script.Ends.pure _ ⟨rfl, fun _ => rfl⟩
  rintro simHubPath _ ⟨rfl, hchosen⟩
  apply Script.Ends.bind (Q := fun _ s' => s = s' ∧ Enterable setup none simHubPath s.files)
  · exact ends_enterFFBSimHubMutationBoundary rfl fun h => ⟨rfl, h⟩
  rintro _ _ ⟨rfl, hsimHub⟩
  refine (reads_readFFBPluginState setup true true).ends_bind rfl fun existing => ?_
  cases existing with
  | some state =>
    exact (ends_reportExisting _ _).weaken (fun _ _ h => .inl h) fun _ h => h
  | none =>
    apply Script.Ends.ite
    · intro _
      exact Script.Ends.throw _ rfl
    · intro hbefore
      rw [hchosen (Option.not_isSome_iff_eq_none.mp hbefore)] at hsimHub ⊢
      exact (ends_installPlugin hempty hfresh hsimHub).weaken (fun _ _ h => .inr h) fun _ h => h

end Script

section Record
variable {content : Content γ} {destination : Path} {fs fs' fs₁ : FileSystem (Content γ)}
  {record : ManagedFile} {simHubPath : List FileName}

/-- The record that is right for a destination as it was in `fs`, and what is there afterwards. -/
structure RightRecord (setup : Setup γ) (content : Content γ) (destination : Path)
    (fs fs' : FileSystem (Content γ)) (record : ManagedFile) : Prop where
  named : record.destination = destination
  installed : record.installedSha256 = setup.sha256 content
  regular : fs.lookup destination = none ∨ ∃ old, fs.lookup destination = some (.file old)
  absent : fs.lookup destination = none →
    record.changed = true ∧ record.backup = none ∧ record.backupSha256 = []
  identical : ∀ old, fs.lookup destination = some (.file old) →
    setup.sha256 old = setup.sha256 content →
    record.changed = false ∧ record.backup = none ∧ record.backupSha256 = [] ∧
      fs'.lookup destination = some (.file old)
  different : ∀ old, fs.lookup destination = some (.file old) →
    setup.sha256 old ≠ setup.sha256 content →
    record.changed = true ∧ record.backup = some (getBackupPath fs destination) ∧
      record.backupSha256 = setup.sha256 old ∧
      fs.lookup (getBackupPath fs destination) = none ∧
      fs'.lookup (getBackupPath fs destination) = some (.file old)
  /-- What stood there with the hash of the package's file was left, and else its bytes are there. -/
  holds : fs'.lookup destination = some (.file content) ∨
    ∃ old, fs.lookup destination = some (.file old) ∧ setup.sha256 old = setup.sha256 content ∧
      fs'.lookup destination = some (.file old)

theorem getBackupPath_ne (fs : FileSystem (Content γ)) (destination : Path) :
    getBackupPath fs destination ≠ destination := backupCandidate_ne destination _

theorem Installed.rightRecord (h : Installed setup content destination fs record fs') :
    RightRecord setup content destination fs fs' record := by
  cases h with
  | @same old hold hhash =>
    refine ⟨rfl, rfl, .inr ⟨old, hold⟩, ?_, ?_, ?_, .inr ⟨old, hold, hhash, hold⟩⟩
    · intro habsent
      rw [hold] at habsent
      cases habsent
    · exact fun _ hold' _ => ⟨rfl, rfl, rfl, hold'⟩
    · intro old' hold' hne
      rw [hold] at hold'
      cases hold'
      exact absurd hhash hne
  | added habsent =>
    refine ⟨rfl, rfl, .inl habsent, fun _ => ⟨rfl, rfl, rfl⟩, ?_, ?_,
      .inl (Finmap.lookup_insert fs)⟩
    · intro old hold
      rw [habsent] at hold
      cases hold
    · intro old hold
      rw [habsent] at hold
      cases hold
  | @replaced old fs₁ hold hne hmove =>
    refine ⟨rfl, rfl, .inr ⟨old, hold⟩, ?_, ?_, ?_, .inl (Finmap.lookup_insert fs₁)⟩
    · intro habsent
      rw [hold] at habsent
      cases habsent
    · intro old' hold' hhash
      rw [hold] at hold'
      cases hold'
      exact absurd hhash hne
    · intro old' hold' _
      rw [hold] at hold'
      cases hold'
      obtain ⟨entry, hentry, -, hfree, rfl⟩ := FileSystem.move_eq_some hmove
      rw [hold] at hentry
      cases hentry
      refine ⟨rfl, rfl, rfl, hfree, ?_⟩
      rw [Finmap.lookup_insert_of_ne _ (getBackupPath_ne fs destination), Finmap.lookup_insert]

/-- Only the paths a destination touches matter for its record. -/
theorem RightRecord.transport {fs₁' : FileSystem (Content γ)}
    (h : RightRecord setup content destination fs₁ fs₁' record)
    (hbefore : ∀ path, Touched destination path → fs₁.lookup path = fs.lookup path)
    (hafter : ∀ path, Touched destination path → fs₁'.lookup path = fs'.lookup path) :
    RightRecord setup content destination fs fs' record := by
  have hdestination := hbefore destination (.inl rfl)
  have hdestination' := hafter destination (.inl rfl)
  have hbackup : getBackupPath fs₁ destination = getBackupPath fs destination :=
    getBackupPath_congr fun n => hbefore _ (.inr ⟨n, rfl⟩)
  have hbackup₁ := hbefore (getBackupPath fs destination) (.inr ⟨_, rfl⟩)
  have hbackup' := hafter (getBackupPath fs destination) (.inr ⟨_, rfl⟩)
  obtain ⟨hnamed, hinstalled, hregular, habsent, hidentical, hdifferent, hholds⟩ := h
  rw [hbackup, hbackup₁, hbackup'] at hdifferent
  rw [hdestination] at hregular habsent hidentical hdifferent hholds
  rw [hdestination'] at hidentical hholds
  exact ⟨hnamed, hinstalled, hregular, habsent, hidentical, hdifferent, hholds⟩

theorem InstalledAll.both {records : List ManagedFile}
    (h : InstalledAll setup package simHubPath fs managedNames fs' records) :
    ∃ fs₁ simHub core content content', records = [simHub, core] ∧
      package.files.read (package.source "FFBInterceptor.SimHub.dll".toList) = some content ∧
      package.files.read (package.source "FFBInterceptor.Core.dll".toList) = some content' ∧
      Installed setup content ⟨simHubPath, "FFBInterceptor.SimHub.dll".toList⟩ fs simHub fs₁ ∧
      Installed setup content' ⟨simHubPath, "FFBInterceptor.Core.dll".toList⟩ fs₁ core fs' := by
  have hnames : managedNames =
      ([] ++ ["FFBInterceptor.SimHub.dll".toList]) ++ ["FFBInterceptor.Core.dll".toList] := rfl
  rw [hnames] at h
  obtain ⟨fs₁, before, core, rfl, hfirst, content', hread', hcore⟩ := Script.Series.of_snoc h
  obtain ⟨fs₀, none, simHub, rfl, hnone, content, hread, hsimHub⟩ := hfirst.of_snoc
  obtain ⟨rfl, rfl⟩ := hnone.of_nil
  exact ⟨fs₁, simHub, core, content, content', rfl, hread, hread', hsimHub, hcore⟩

theorem Installed.unchanged (h : Installed setup content destination fs record fs') {path : Path}
    (hpath : path ≠ destination) (hbackup : record.backup ≠ some path) :
    fs'.lookup path = fs.lookup path := by
  cases h with
  | same _ _ => rfl
  | added _ => exact Finmap.lookup_insert_of_ne _ hpath
  | replaced _ _ hmove =>
    obtain ⟨entry, -, -, -, rfl⟩ := FileSystem.move_eq_some hmove
    rw [Finmap.lookup_insert_of_ne _ hpath, FileSystem.lookup_insert_erase, if_neg hpath,
      if_neg (fun heq => hbackup (congrArg some heq.symm))]

theorem Installed.recorded (h : Installed setup content destination fs record fs') :
    Recorded setup.toHost destination record := by
  cases h with
  | same _ _ => exact ⟨rfl, ⟨content, rfl⟩, .inl ⟨rfl, rfl⟩⟩
  | added _ => exact ⟨rfl, ⟨content, rfl⟩, .inl ⟨rfl, rfl⟩⟩
  | @replaced old fs₁ _ _ _ => exact ⟨rfl, ⟨content, rfl⟩, .inr ⟨rfl, ⟨_, rfl⟩, old, rfl⟩⟩

structure Settled (setup : Setup γ) (package : Package γ) (simHubPath : List FileName)
    (fs fs' : FileSystem (Content γ)) (simHub core : ManagedFile) : Prop where
  first : ∃ content, package.files.read (package.source "FFBInterceptor.SimHub.dll".toList) =
      some content ∧
    RightRecord setup content ⟨simHubPath, "FFBInterceptor.SimHub.dll".toList⟩ fs fs' simHub
  second : ∃ content, package.files.read (package.source "FFBInterceptor.Core.dll".toList) =
      some content ∧
    RightRecord setup content ⟨simHubPath, "FFBInterceptor.Core.dll".toList⟩ fs fs' core
  unsaved : fs.lookup setup.statePath = none
  saved : fs'.lookup setup.statePath =
    some (.file (.record ⟨1, package.now, simHubPath, [simHub, core]⟩ true))
  others : ∀ path, path ≠ setup.statePath → (∀ name ∈ managedNames, path ≠ ⟨simHubPath, name⟩) →
    simHub.backup ≠ some path → core.backup ≠ some path → fs'.lookup path = fs.lookup path

theorem statePath_not_touched : ∀ name ∈ managedNames, ¬Touched ⟨simHubPath, name⟩ setup.statePath := by
  apply not_touched_of_name
  intro h
  change some 's' = some 'F' at h
  cases h

theorem Completed.settled {s : Session (Content γ) StateDirectory ManagedFile}
    (h : Completed setup package simHubPath fs s) :
    ∃ simHub core, s.journal = [simHub, core] ∧
      Settled setup package simHubPath fs s.files simHub core := by
  obtain ⟨fs₂, hall, habsent, validated, hvalidated, hfiles⟩ := h.files
  obtain ⟨fs₁, simHub, core, content, content', hjournal, hread, hread', hsimHub, hcore⟩ := hall.both
  refine ⟨simHub, core, hjournal, ?_⟩
  have hmem : "FFBInterceptor.SimHub.dll".toList ∈ managedNames := by decide
  have hmem' : "FFBInterceptor.Core.dll".toList ∈ managedNames := by decide
  have hapart : ∀ path, Touched ⟨simHubPath, "FFBInterceptor.SimHub.dll".toList⟩ path →
      ¬Touched ⟨simHubPath, "FFBInterceptor.Core.dll".toList⟩ path := by
    intro path hpath
    obtain ⟨suffix, rfl⟩ := hpath.append
    exact not_touched_append simHubPath hmem hmem' (by decide) suffix
  have hstate : ∀ path, path ≠ setup.statePath → s.files.lookup path = fs₂.lookup path := by
    intro path hpath
    rw [hfiles, Finmap.lookup_insert_of_ne _ hpath]
  have hsame : validated = ⟨1, package.now, simHubPath, [simHub, core]⟩ := by
    rw [hjournal, assertFiles_recorded rfl hsimHub.recorded hcore.recorded] at hvalidated
    cases hvalidated
    rfl
  have hunsaved : fs.lookup setup.statePath = none := by
    rw [← hall.frame statePath_not_touched]
    exact habsent
  refine ⟨⟨content, hread, ?_⟩, ⟨content', hread', ?_⟩, hunsaved, ?_, ?_⟩
  · apply hsimHub.rightRecord.transport fun _ _ => rfl
    intro path hpath
    have hne : path ≠ setup.statePath := by
      rintro rfl
      exact statePath_not_touched _ hmem hpath
    rw [hstate path hne, hcore.frame (hapart path hpath)]
  · apply hcore.rightRecord.transport
    · intro path hpath
      exact hsimHub.frame fun hpath' => hapart path hpath' hpath
    · intro path hpath
      have hne : path ≠ setup.statePath := by
        rintro rfl
        exact statePath_not_touched _ hmem' hpath
      exact (hstate path hne).symm
  · rw [hfiles, Finmap.lookup_insert, hsame]
  · intro path hpath hnames hbackup hbackup'
    rw [hstate path hpath, hcore.unchanged (hnames _ hmem') hbackup',
      hsimHub.unchanged (hnames _ hmem) hbackup]

/-- SHA-256 tells what stands at the destinations from what the package holds. -/
def NoCollision (setup : Setup γ) (package : Package γ) (simHubPath : List FileName)
    (fs : FileSystem (Content γ)) : Prop :=
  ∀ name ∈ managedNames, ∀ old content, fs.lookup ⟨simHubPath, name⟩ = some (.file old) →
    package.files.read (package.source name) = some content →
    setup.sha256 old = setup.sha256 content → old = content

theorem RightRecord.bytes (h : RightRecord setup content destination fs fs' record)
    (hcollision : ∀ old, fs.lookup destination = some (.file old) →
      setup.sha256 old = setup.sha256 content → old = content) :
    fs'.lookup destination = some (.file content) := by
  rcases h.holds with hnew | ⟨old, hold, hhash, hleft⟩
  · exact hnew
  · rw [hleft, hcollision old hold hhash]

theorem Settled.bytes {simHub core : ManagedFile}
    (h : Settled setup package simHubPath fs fs' simHub core)
    (hcollision : NoCollision setup package simHubPath fs) :
    ∀ name ∈ managedNames, ∃ content, package.files.read (package.source name) = some content ∧
      fs'.lookup ⟨simHubPath, name⟩ = some (.file content) := by
  intro name hname
  have hright : ∃ content record, package.files.read (package.source name) = some content ∧
      RightRecord setup content ⟨simHubPath, name⟩ fs fs' record := by
    simp only [managedNames, List.mem_cons, List.not_mem_nil, or_false] at hname
    rcases hname with rfl | rfl
    · obtain ⟨content, hread, hrecord⟩ := h.first
      exact ⟨content, simHub, hread, hrecord⟩
    · obtain ⟨content, hread, hrecord⟩ := h.second
      exact ⟨content, core, hread, hrecord⟩
  obtain ⟨content, record, hread, hrecord⟩ := hright
  exact ⟨content, hread, hrecord.bytes fun old hold => hcollision name hname old content hold hread⟩

end Record

end FfbInterceptor.Installer
