import FfbInterceptor.Installer.AllOrNothing
import FfbInterceptor.Installer.Removal

/-! An uninstallation after an installation leads back to the files from before it. -/
namespace FfbInterceptor.Installer
open FfbInterceptor.Library

variable {γ ρ : Type} {setup : Setup γ} {package : Package γ} {newGuid : Guids}

section Validation
variable {s : Session (Content γ) StateDirectory ρ} {file : ManagedFile}
  {fs fs' : FileSystem (Content γ)} {destination : Path} {content : Content γ}

structure Recoverable (setup : Setup γ) (fs : FileSystem (Content γ)) (file : ManagedFile) :
    Prop where
  present : file.changed = true → ∃ content, fs.lookup file.destination = some (.file content) ∧
    file.installedSha256 = setup.sha256 content
  backup : ∀ backup, file.backup = some backup →
    (∃ n, backup = backupCandidate file.destination n) ∧ ∃ content, fs.lookup backup = some (.file content) ∧
      file.backupSha256 = setup.sha256 content

theorem RightRecord.recoverable (h : RightRecord setup content destination fs fs' file) :
    Recoverable setup fs' file := by
  have hnamed := h.named
  rcases h.regular with habsent | ⟨old, hold⟩
  · obtain ⟨hchanged, hnone, -⟩ := h.absent habsent
    constructor
    · intro _
      rcases h.holds with hnew | ⟨old, hold, -⟩
      · exact ⟨content, hnamed ▸ hnew, h.installed⟩
      · rw [habsent] at hold
        cases hold
    · intro backup hsome
      rw [hnone] at hsome
      cases hsome
  · by_cases hsame : setup.sha256 old = setup.sha256 content
    · obtain ⟨hunchanged, hnone, -, -⟩ := h.identical old hold hsame
      constructor
      · intro hchanged
        rw [hunchanged] at hchanged
        cases hchanged
      · intro backup hsome
        rw [hnone] at hsome
        cases hsome
    · obtain ⟨hchanged, hbackup, hhash, -, hthere⟩ := h.different old hold hsame
      constructor
      · intro _
        rcases h.holds with hnew | ⟨old', hold', hsame', -⟩
        · exact ⟨content, hnamed ▸ hnew, h.installed⟩
        · rw [hold] at hold'
          cases hold'
          exact absurd hsame' hsame
      · intro backup hsome
        rw [hbackup] at hsome
        cases hsome
        exact ⟨⟨_, by rw [hnamed, getBackupPath]⟩, old, hthere, hhash⟩

theorem Recoverable.congr (h : Recoverable setup fs file)
    (hsame : ∀ suffix, fs'.lookup (file.destination.append suffix) =
      fs.lookup (file.destination.append suffix)) : Recoverable setup fs' file := by
  constructor
  · intro hchanged
    obtain ⟨content, hpresent, hhash⟩ := h.present hchanged
    have hdestination := hsame []
    rw [Path.append, List.append_nil] at hdestination
    exact ⟨content, hdestination.trans hpresent, hhash⟩
  · intro backup hsome
    obtain ⟨⟨n, rfl⟩, content, hthere, hhash⟩ := h.backup backup hsome
    obtain ⟨suffix, hname⟩ := backupCandidate_eq_append file.destination n
    refine ⟨⟨n, rfl⟩, content, ?_, hhash⟩
    rw [hname, hsame, ← hname, hthere]

theorem RightRecord.recorded (h : RightRecord setup content destination fs fs' file) :
    Recorded setup.toHost destination file := by
  refine ⟨h.named, ⟨content, h.installed⟩, ?_⟩
  rcases h.regular with habsent | ⟨old, hold⟩
  · obtain ⟨-, hnone, hempty⟩ := h.absent habsent
    exact .inl ⟨hnone, hempty⟩
  · by_cases hsame : setup.sha256 old = setup.sha256 content
    · obtain ⟨-, hnone, hempty, -⟩ := h.identical old hold hsame
      exact .inl ⟨hnone, hempty⟩
    · obtain ⟨hchanged, hbackup, hhash, -⟩ := h.different old hold hsame
      exact .inr ⟨hchanged, ⟨_, hbackup⟩, old, hhash⟩

theorem RightRecord.present (h : RightRecord setup content destination fs fs' file) :
    ∃ entry, fs'.lookup destination = some entry := by
  rcases h.holds with hnew | ⟨old, -, -, hleft⟩
  · exact ⟨_, hnew⟩
  · exact ⟨_, hleft⟩

theorem calmly_validateDestination
    (hfile : s.files.lookup file.destination = some (.file content))
    (hhash : file.installedSha256 = setup.sha256 content) :
    Script.Calmly (validateDestination setup file) s (.ok ⟨⟩) s := by
  apply calmly_ask
  rw [FileSystem.testPath_of_lookup hfile, if_pos rfl]
  apply calmly_ask
  rw [isIrregular_of_file hfile, if_neg Bool.false_ne_true]
  apply (calmly_getFileSha256 (FileSystem.read_of_file hfile)).bind
  rw [hhash, if_neg (not_not_intro rfl)]
  exact Script.Calmly.pure _ s

theorem calmly_validateBackup {backup : Path} (hfile : s.files.lookup backup = some (.file content))
    (hhash : file.backupSha256 = setup.sha256 content) :
    Script.Calmly (validateBackup setup file backup) s (.ok ⟨⟩) s := by
  have hthere : Script.Calmly (refuseIf (fun fs => !fs.testLeaf backup)
      (.thrownAt "The recorded backup is missing: " backup)) s (.ok ⟨⟩) s := by
    apply calmly_refuseIf
    rw [FileSystem.testLeaf_of_file hfile]
    rfl
  apply hthere.bind
  apply calmly_ask
  rw [isIrregular_of_file hfile, if_neg Bool.false_ne_true]
  apply (calmly_getFileSha256 (FileSystem.read_of_file hfile)).bind
  rw [hhash, if_neg (not_not_intro rfl)]
  exact Script.Calmly.pure _ s

theorem calmly_validateFile (h : Recoverable setup s.files file) :
    Script.Calmly (validateFile setup file) s (.ok ⟨⟩) s := by
  unfold validateFile
  cases hchanged : file.changed with
  | false => exact Script.Calmly.pure _ s
  | true =>
    obtain ⟨content, hfile, hhash⟩ := h.present hchanged
    apply (calmly_validateDestination hfile hhash).bind
    split
    · next backup hbackup =>
      obtain ⟨-, old, hold, hold'⟩ := h.backup backup hbackup
      exact calmly_validateBackup hold hold'
    · exact Script.Calmly.pure _ s

end Validation

section Removing
variable {s : Session (Content γ) StateDirectory RemovalOperation} {file : ManagedFile}
  {fs fs' : FileSystem (Content γ)} {operations : List RemovalOperation} {destination : Path}
  {content : Content γ}

theorem stagingCandidate_injective (hguids : ∀ d, Function.Injective (newGuid d)) (d : Path) :
    Function.Injective (stagingCandidate newGuid d) := by
  intro m n h
  exact hguids d (List.append_cancel_left (Path.append_inj h))

theorem getUninstallStagingPath_free (hguids : ∀ d, Function.Injective (newGuid d))
    (fs : FileSystem (Content γ)) (d : Path) :
    fs.lookup (getUninstallStagingPath newGuid fs d) = none := by
  have hkeys : ∀ n, fs.testPath (stagingCandidate newGuid d n) = true →
      stagingCandidate newGuid d n ∈ fs.keys := by
    intro n hn
    rwa [Finmap.mem_keys, ← FileSystem.testPath_iff]
  exact FileSystem.testPath_eq_false.mp
    (firstFree_free (stagingCandidate_injective hguids d) hkeys)

theorem getUninstallStagingPath_ne (fs : FileSystem (Content γ)) (d : Path) :
    getUninstallStagingPath newGuid fs d ≠ d := d.append_ne_self (List.cons_ne_nil _ _)

def undone (file : ManagedFile) (fs : FileSystem (Content γ)) (path : Path) :
    Option (Entry (Content γ)) :=
  if file.changed then
    if path = file.destination then file.backup.bind fun backup => fs.lookup backup
    else if file.backup = some path then none
    else fs.lookup path
  else fs.lookup path

/-- The record that is right for an installation leads back to what was there. -/
theorem RightRecord.undone (h : RightRecord setup content destination fs fs' file) {path : Path}
    (hpath : path = destination ∨ file.backup = some path) :
    undone file fs' path = fs.lookup path := by
  rcases h.regular with habsent | ⟨old, hold⟩
  · obtain ⟨hchanged, hnone, -⟩ := h.absent habsent
    rw [hnone] at hpath
    obtain rfl := hpath.resolve_right nofun
    rw [Installer.undone, hchanged, hnone, h.named, if_pos rfl, if_pos rfl, habsent]
    rfl
  · by_cases hsame : setup.sha256 old = setup.sha256 content
    · obtain ⟨hunchanged, hnone, -, hleft⟩ := h.identical old hold hsame
      rw [hnone] at hpath
      obtain rfl := hpath.resolve_right nofun
      rw [Installer.undone, hunchanged, if_neg Bool.false_ne_true, hleft, hold]
    · obtain ⟨hchanged, hbackup, -, hfree, hthere⟩ := h.different old hold hsame
      rw [hbackup] at hpath
      rw [Installer.undone, hchanged, hbackup, h.named, if_pos rfl]
      by_cases hdestination : path = destination
      · rw [if_pos hdestination, hdestination, hold]
        exact hthere
      · rw [if_neg hdestination]
        obtain rfl := Option.some.inj (hpath.resolve_left hdestination)
        rw [if_pos rfl, hfree]

theorem Removed.lookup (h : Removed newGuid file fs operations fs')
    (hfile : Recoverable setup fs file) {path : Path} (hpath : ¬StagedAt operations path) :
    fs'.lookup path = undone file fs path := by
  have hleaf : file.changed = true → fs.testLeaf file.destination = true := by
    intro hchanged
    obtain ⟨content, hpresent, -⟩ := hfile.present hchanged
    exact FileSystem.testLeaf_of_file hpresent
  cases h with
  | kept hunchanged =>
    rw [undone, hunchanged]
    rfl
  | gone hchanged hgone _ =>
    rw [hleaf hchanged] at hgone
    cases hgone
  | goneRestored hchanged hgone _ _ =>
    rw [hleaf hchanged] at hgone
    cases hgone
  | staged hchanged hnone hmove =>
    have hne : path ≠ getUninstallStagingPath newGuid fs file.destination := by
      rintro rfl
      exact hpath ⟨_, List.mem_singleton_self _, rfl⟩
    obtain ⟨entry, -, -, -, rfl⟩ := FileSystem.move_eq_some hmove
    rw [FileSystem.lookup_insert_erase, if_neg hne, undone, hchanged, hnone, if_pos rfl]
    by_cases hdestination : path = file.destination
    · rw [if_pos hdestination, if_pos hdestination]
      rfl
    · rw [if_neg hdestination, if_neg hdestination, if_neg nofun]
  | @replaced backup fs₁ fs₂ hchanged hsome hmove hback =>
    have hne : path ≠ getUninstallStagingPath newGuid fs file.destination := by
      rintro rfl
      exact hpath ⟨_, List.mem_singleton_self _, rfl⟩
    obtain ⟨⟨n, hname⟩, old, hold, -⟩ := hfile.backup backup hsome
    have hbackup : backup ≠ file.destination := hname ▸ backupCandidate_ne file.destination n
    obtain ⟨entry, -, -, hfree, rfl⟩ := FileSystem.move_eq_some hmove
    have hapart : backup ≠ getUninstallStagingPath newGuid fs file.destination := by
      rintro rfl
      rw [hold] at hfree
      cases hfree
    obtain ⟨entry', hentry', -, -, rfl⟩ := FileSystem.move_eq_some hback
    rw [FileSystem.lookup_insert_erase, if_neg hapart, if_neg hbackup, hold] at hentry'
    cases hentry'
    rw [FileSystem.lookup_insert_erase, FileSystem.lookup_insert_erase, if_neg hne, undone,
      hchanged, hsome, if_pos rfl]
    by_cases hdestination : path = file.destination
    · rw [if_pos hdestination, if_pos hdestination]
      exact hold.symm
    · rw [if_neg hdestination, if_neg hdestination, if_neg hdestination]
      by_cases hmoved : path = backup
      · rw [if_pos hmoved, if_pos (congrArg some hmoved.symm)]
      · rw [if_neg hmoved, if_neg fun heq => hmoved (Option.some.inj heq).symm]

theorem undone_other {path : Path} (hdestination : path ≠ file.destination)
    (hbackup : file.backup ≠ some path) : undone file fs path = fs.lookup path := by
  unfold undone
  rw [if_neg hdestination, if_neg hbackup, ite_self]

theorem undone_congr {path : Path} (hpath : fs.lookup path = fs'.lookup path)
    (hbackup : ∀ backup, file.backup = some backup → fs.lookup backup = fs'.lookup backup) :
    undone file fs path = undone file fs' path := by
  have hsame : (file.backup.bind fun backup => fs.lookup backup) =
      file.backup.bind fun backup => fs'.lookup backup := by
    cases hsome : file.backup with
    | none => rfl
    | some backup => exact hbackup backup hsome
  rw [undone, undone, hpath, hsame]

theorem Removed.staged_there (h : Removed newGuid file fs operations fs')
    (hfile : Recoverable setup fs file) {operation : RemovalOperation} {path : Path}
    (hmem : operation ∈ operations) (hpath : operation.staged = some path) :
    (∃ suffix, path = file.destination.append suffix) ∧ operation.plugInStaged = true ∧
      fs.lookup path = none ∧ fs'.testLeaf path = true := by
  cases h with
  | kept _ => exact absurd hmem List.not_mem_nil
  | gone _ _ _ =>
    obtain rfl := List.mem_singleton.mp hmem
    cases hpath
  | goneRestored _ _ _ _ =>
    obtain rfl := List.mem_singleton.mp hmem
    cases hpath
  | staged _ _ hmove =>
    obtain rfl := List.mem_singleton.mp hmem
    obtain rfl := Option.some.inj hpath
    have hleaf := testLeaf_of_move hmove
    obtain ⟨entry, -, -, hfree, -⟩ := FileSystem.move_eq_some hmove
    exact ⟨⟨_, rfl⟩, rfl, hfree, hleaf⟩
  | @replaced backup fs₁ fs₂ _ hsome hmove hback =>
    obtain rfl := List.mem_singleton.mp hmem
    obtain rfl := Option.some.inj hpath
    have hleaf := testLeaf_of_move hmove
    obtain ⟨entry, -, -, hfree, -⟩ := FileSystem.move_eq_some hmove
    obtain ⟨-, old, hold, -⟩ := hfile.backup backup hsome
    have hapart : getUninstallStagingPath newGuid fs file.destination ≠ backup := by
      rintro rfl
      rw [hold] at hfree
      cases hfree
    obtain ⟨entry', -, -, -, rfl⟩ := FileSystem.move_eq_some hback
    refine ⟨⟨_, rfl⟩, rfl, hfree, ?_⟩
    rwa [FileSystem.testLeaf, FileSystem.read, FileSystem.lookup_insert_erase,
      if_neg (getUninstallStagingPath_ne _ _), if_neg hapart]

theorem Removed.elsewhere (h : Removed newGuid file fs operations fs')
    (hfile : Recoverable setup fs file) {path : Path}
    (hpath : ∀ suffix, path ≠ file.destination.append suffix) : fs'.lookup path = fs.lookup path := by
  have hstaged : ¬StagedAt operations path := by
    rintro ⟨operation, hmem, hstaged⟩
    obtain ⟨⟨suffix, hname⟩, -⟩ := h.staged_there hfile hmem hstaged
    exact hpath suffix hname
  rw [h.lookup hfile hstaged]
  apply undone_other
  · intro heq
    apply hpath []
    rw [heq, Path.append, List.append_nil]
  · intro hsome
    obtain ⟨⟨n, hname⟩, -⟩ := hfile.backup path hsome
    obtain ⟨suffix, hsuffix⟩ := backupCandidate_eq_append file.destination n
    exact hpath _ (hname.trans hsuffix)

theorem calmly_stagePlugIn (done : List RemovalOperation) (operation : RemovalOperation)
    {fs₁ : FileSystem (Content γ)} (hleaf : s.files.testLeaf operation.destination = true)
    (hmove : s.files.move operation.destination
      (getUninstallStagingPath newGuid s.files operation.destination) = some fs₁) :
    ∃ operation', operation'.backup = operation.backup ∧
      operation'.destination = operation.destination ∧
      Script.Calmly (stagePlugIn newGuid done operation) s (.ok operation')
        ⟨fs₁, s.rest, done ++ [operation']⟩ := by
  have hmoved : ∀ journal : List RemovalOperation, Script.Calmly (moveFile operation.destination
      (getUninstallStagingPath newGuid s.files operation.destination)) ⟨s.files, s.rest, journal⟩
      (.ok ⟨⟩) ⟨fs₁, s.rest, journal⟩ :=
    fun (journal : List RemovalOperation) => calmly_moveFile (s := ⟨s.files, s.rest, journal⟩) hmove
  refine ⟨⟨operation.destination, operation.backup,
    some (getUninstallStagingPath newGuid s.files operation.destination), true,
    operation.backupRestored⟩, rfl, rfl, calmly_ask ?_⟩
  rw [hleaf, if_pos rfl]
  apply calmly_ask
  exact (Script.Calmly.amend _ s).bind <| (hmoved _).bind <| (Script.Calmly.amend _ _).bind <|
    Script.Calmly.pure _ _

theorem returns_restoreBackup {done : List RemovalOperation} {operation : RemovalOperation}
    (h : ∀ backup, operation.backup = some backup →
      ∃ fs₁, s.files.move backup operation.destination = some fs₁) :
    Script.Returns (restoreBackup done operation) s := by
  unfold restoreBackup
  split
  · next backup hbackup =>
    obtain ⟨fs₁, hmove⟩ := h backup hbackup
    exact ⟨_, _, (calmly_moveFile hmove).bind (Script.Calmly.amend _ _)⟩
  · exact ⟨_, _, Script.Calmly.pure _ s⟩

theorem returns_removeFile (hguids : ∀ d, Function.Injective (newGuid d))
    (hfile : Recoverable setup s.files file) : Script.Returns (removeFile newGuid file) s := by
  unfold removeFile
  cases hchanged : file.changed with
  | false => exact ⟨_, _, Script.Calmly.pure _ s⟩
  | true =>
    obtain ⟨content, hpresent, -⟩ := hfile.present hchanged
    have hleaf := FileSystem.testLeaf_of_file hpresent
    have hfree := getUninstallStagingPath_free hguids s.files file.destination
    have hmove := FileSystem.move_of_lookup hpresent hleaf hfree
    obtain ⟨operation, hbackup, hdestination, hstage⟩ := calmly_stagePlugIn
      (s := ⟨s.files, s.rest, s.journal ++ [⟨file.destination, file.backup, none, false, false⟩]⟩)
      s.journal ⟨file.destination, file.backup, none, false, false⟩ hleaf hmove
    have hrestore : Script.Returns (restoreBackup s.journal operation)
        ⟨(s.files.erase file.destination).insert
          (getUninstallStagingPath newGuid s.files file.destination) (.file content),
          s.rest, s.journal ++ [operation]⟩ := by
      apply returns_restoreBackup
      intro backup hsome
      rw [hbackup] at hsome
      obtain ⟨⟨n, hname⟩, old, hold, -⟩ := hfile.backup backup hsome
      have hne : backup ≠ file.destination := hname ▸ backupCandidate_ne file.destination n
      have hapart : backup ≠ getUninstallStagingPath newGuid s.files file.destination := by
        rintro rfl
        rw [hold] at hfree
        cases hfree
      have hthere : ((s.files.erase file.destination).insert
          (getUninstallStagingPath newGuid s.files file.destination) (.file content)).lookup backup =
          some (.file old) := by
        rw [FileSystem.lookup_insert_erase, if_neg hapart, if_neg hne, hold]
      have habsent : ((s.files.erase file.destination).insert
          (getUninstallStagingPath newGuid s.files file.destination) (.file content)).lookup
            operation.destination = none := by
        rw [hdestination, FileSystem.lookup_insert_erase,
          if_neg (getUninstallStagingPath_ne _ _).symm, if_pos rfl]
      exact ⟨_, FileSystem.move_of_lookup hthere (FileSystem.testLeaf_of_file hthere) habsent⟩
    obtain ⟨_, s₂, hcalm⟩ := hrestore
    exact ⟨_, s₂, Script.Calmly.look_bind <| (Script.Calmly.amend _ s).bind <| hstage.bind hcalm⟩

end Removing

section Cleaning
variable {s : Session (Content γ) StateDirectory RemovalOperation}
  {operations : List RemovalOperation}

/-- What an operation has staged is a file or has gone. -/
def Discardable (fs : FileSystem (Content γ)) (operation : RemovalOperation) : Prop :=
  ∀ path, operation.staged = some path → operation.plugInStaged = true ∧
    (fs.testLeaf path = true ∨ fs.lookup path = none)

theorem calmly_deleteStaged {operation : RemovalOperation}
    (h : Discardable s.files operation) :
    ∃ s', Script.Calmly (deleteStaged operation) s (.ok ⟨⟩) s' ∧
      ∀ path, s'.files.lookup path =
        if operation.staged = some path then none else s.files.lookup path := by
  unfold deleteStaged
  split
  · next staged hstaged =>
    obtain ⟨hflag, hleaf | habsent⟩ := h staged hstaged
    · refine ⟨{ s with files := s.files.erase staged }, calmly_ask ?_, ?_⟩
      · rw [hflag, hleaf]
        exact (calmly_deleteFile hleaf).swallow
      · intro path
        by_cases hpath : path = staged
        · rw [hpath, if_pos hstaged, Finmap.lookup_erase]
        · rw [if_neg (fun heq => hpath (Option.some.inj (hstaged.symm.trans heq)).symm),
            Finmap.lookup_erase_ne hpath]
    · refine ⟨s, calmly_ask ?_, ?_⟩
      · rw [hflag, FileSystem.testLeaf_eq_false.mpr (FileSystem.read_of_absent habsent)]
        exact Script.Calmly.pure _ s
      · intro path
        by_cases hpath : path = staged
        · rw [hpath, if_pos hstaged, habsent]
        · rw [if_neg (fun heq => hpath (Option.some.inj (hstaged.symm.trans heq)).symm)]
  · next hnone =>
    refine ⟨s, Script.Calmly.pure _ s, fun path => ?_⟩
    rw [hnone, if_neg nofun]

theorem Discardable.congr {fs fs' : FileSystem (Content γ)} {operation : RemovalOperation}
    (h : Discardable fs operation)
    (hsame : ∀ path, fs'.lookup path = none ∨ fs'.lookup path = fs.lookup path) :
    Discardable fs' operation := by
  intro path hpath
  obtain ⟨hflag, hthere⟩ := h path hpath
  refine ⟨hflag, ?_⟩
  rcases hsame path with hnone | heq
  · exact .inr hnone
  · rwa [FileSystem.testLeaf, FileSystem.read_congr heq, heq]

theorem calmly_deleteAllStaged (h : ∀ operation ∈ operations, Discardable s.files operation) :
    ∃ s', Script.Calmly (operations.forM deleteStaged) s (.ok ⟨⟩) s' ∧
      (∀ path, StagedAt operations path → s'.files.lookup path = none) ∧
      ∀ path, ¬StagedAt operations path → s'.files.lookup path = s.files.lookup path := by
  induction operations generalizing s with
  | nil =>
    refine ⟨s, Script.Calmly.pure _ s, ?_, fun _ _ => rfl⟩
    rintro path ⟨operation, hmem, -⟩
    cases hmem
  | cons operation operations ih =>
    obtain ⟨s₁, hcalm, hlookup⟩ := calmly_deleteStaged (h operation List.mem_cons_self)
    have hsame : ∀ path, s₁.files.lookup path = none ∨
        s₁.files.lookup path = s.files.lookup path := by
      intro path
      rw [hlookup path]
      split
      · exact .inl rfl
      · exact .inr rfl
    obtain ⟨s₂, hcalm', hgone, hkept⟩ := ih fun operation' hmem =>
      (h operation' (List.mem_cons_of_mem _ hmem)).congr hsame
    refine ⟨s₂, hcalm.bind hcalm', ?_, ?_⟩
    · rintro path ⟨operation', hmem, hstaged⟩
      by_cases hlater : StagedAt operations path
      · exact hgone path hlater
      · rw [hkept path hlater, hlookup path]
        rcases List.mem_cons.mp hmem with rfl | hmem'
        · rw [if_pos hstaged]
        · exact absurd ⟨operation', hmem', hstaged⟩ hlater
    · intro path hpath
      have hlater : ¬StagedAt operations path := by
        rintro ⟨operation', hmem, hstaged⟩
        exact hpath ⟨operation', List.mem_cons_of_mem _ hmem, hstaged⟩
      have hfirst : operation.staged ≠ some path := fun heq =>
        hpath ⟨operation, List.mem_cons_self, heq⟩
      rw [hkept path hlater, hlookup path, if_neg hfirst]

end Cleaning

section Both
variable {s : Session (Content γ) StateDirectory RemovalOperation} {simHubPath : List FileName}
  {fs fs' fs₁ fs₂ : FileSystem (Content γ)} {simHub core : ManagedFile}
  {operations operations' : List RemovalOperation}

theorem append_apart (simHubPath : List FileName) (suffix suffix' : FileName) :
    Path.append ⟨simHubPath, "FFBInterceptor.SimHub.dll".toList⟩ suffix ≠
      Path.append ⟨simHubPath, "FFBInterceptor.Core.dll".toList⟩ suffix' := by
  have hmem : "FFBInterceptor.SimHub.dll".toList ∈ managedNames := by decide
  have hmem' : "FFBInterceptor.Core.dll".toList ∈ managedNames := by decide
  have hne : "FFBInterceptor.SimHub.dll".toList ≠ "FFBInterceptor.Core.dll".toList := by decide
  intro h
  exact append_managed_ne hmem hmem' hne suffix suffix' (congrArg Path.name h)

structure RemovedBoth (newGuid : Guids) (simHub core : ManagedFile)
    (fs fs₁ fs₂ : FileSystem (Content γ)) (operations operations' : List RemovalOperation) :
    Prop where
  first : Removed newGuid simHub fs operations fs₁
  second : Removed newGuid core fs₁ operations' fs₂

theorem Settled.named (h : Settled setup package simHubPath fs fs' simHub core) :
    simHub.destination = ⟨simHubPath, "FFBInterceptor.SimHub.dll".toList⟩ ∧
      core.destination = ⟨simHubPath, "FFBInterceptor.Core.dll".toList⟩ := by
  obtain ⟨content, -, hfirst⟩ := h.first
  obtain ⟨content', -, hsecond⟩ := h.second
  exact ⟨hfirst.named, hsecond.named⟩

theorem Settled.recoverable (h : Settled setup package simHubPath fs fs' simHub core) :
    Recoverable setup fs' simHub ∧ Recoverable setup fs' core := by
  obtain ⟨content, -, hfirst⟩ := h.first
  obtain ⟨content', -, hsecond⟩ := h.second
  exact ⟨hfirst.recoverable, hsecond.recoverable⟩

/-- The first removal leaves the second record right. -/
theorem Settled.recoverable_second (h : Settled setup package simHubPath fs fs' simHub core)
    (hfirst : Removed newGuid simHub fs' operations fs₁) : Recoverable setup fs₁ core := by
  obtain ⟨hsimHub, hcore⟩ := h.recoverable
  obtain ⟨hnamed, hnamed'⟩ := h.named
  apply hcore.congr
  intro suffix
  apply hfirst.elsewhere hsimHub
  intro suffix'
  rw [hnamed, hnamed']
  exact (append_apart simHubPath suffix' suffix).symm

/-- Every path that is not staged shows what it showed before the installation. -/
theorem RemovedBoth.lookup (h : RemovedBoth newGuid simHub core fs' fs₁ fs₂ operations operations')
    (hsettled : Settled setup package simHubPath fs fs' simHub core) {path : Path}
    (hstate : path ≠ setup.statePath) (hpath : ¬StagedAt (operations ++ operations') path) :
    fs₂.lookup path = fs.lookup path := by
  obtain ⟨content, -, hright⟩ := hsettled.first
  obtain ⟨content', -, hright'⟩ := hsettled.second
  obtain ⟨hsimHub, hcore⟩ := hsettled.recoverable
  have hstaged : ¬StagedAt operations path := by
    rintro ⟨operation, hmem, hsome⟩
    exact hpath ⟨operation, List.mem_append_left _ hmem, hsome⟩
  have hstaged' : ¬StagedAt operations' path := by
    rintro ⟨operation, hmem, hsome⟩
    exact hpath ⟨operation, List.mem_append_right _ hmem, hsome⟩
  rw [h.second.lookup (hsettled.recoverable_second h.first) hstaged']
  by_cases htouched : path = core.destination ∨ core.backup = some path
  · -- a path of the second record
    have hsame : ∀ suffix, fs₁.lookup (core.destination.append suffix) =
        fs'.lookup (core.destination.append suffix) := by
      intro suffix
      apply h.first.elsewhere hsimHub
      intro suffix'
      rw [hright.named, hright'.named]
      exact (append_apart simHubPath suffix' suffix).symm
    have hbackup : ∀ backup, core.backup = some backup → fs₁.lookup backup = fs'.lookup backup := by
      intro backup hsome
      obtain ⟨⟨n, hname⟩, -⟩ := hcore.backup backup hsome
      obtain ⟨suffix, hsuffix⟩ := backupCandidate_eq_append core.destination n
      rw [hname, hsuffix, hsame]
    have hhere : fs₁.lookup path = fs'.lookup path := by
      rcases htouched with rfl | hsome
      · have hdestination := hsame []
        rwa [Path.append, List.append_nil] at hdestination
      · exact hbackup path hsome
    rw [undone_congr hhere hbackup]
    rw [hright'.named] at htouched
    exact hright'.undone htouched
  · rw [not_or] at htouched
    rw [undone_other htouched.1 htouched.2, h.first.lookup hsimHub hstaged]
    by_cases hfirst : path = simHub.destination ∨ simHub.backup = some path
    · rw [hright.named] at hfirst
      exact hright.undone hfirst
    · rw [not_or] at hfirst
      rw [undone_other hfirst.1 hfirst.2]
      apply hsettled.others path hstate _ hfirst.2 htouched.2
      intro name hname
      simp only [managedNames, List.mem_cons, List.not_mem_nil, or_false] at hname
      rcases hname with rfl | rfl
      · exact hright.named ▸ hfirst.1
      · exact hright'.named ▸ htouched.1

theorem RemovedBoth.staged (h : RemovedBoth newGuid simHub core fs' fs₁ fs₂ operations operations')
    (hsettled : Settled setup package simHubPath fs fs' simHub core) {operation : RemovalOperation}
    {path : Path} (hmem : operation ∈ operations ++ operations')
    (hpath : operation.staged = some path) :
    operation.plugInStaged = true ∧ fs'.lookup path = none ∧ fs₂.testLeaf path = true := by
  obtain ⟨hnamed, hnamed'⟩ := hsettled.named
  obtain ⟨hsimHub, -⟩ := hsettled.recoverable
  have hcore := hsettled.recoverable_second h.first
  rcases List.mem_append.mp hmem with hmem | hmem
  · obtain ⟨⟨suffix, hname⟩, hflag, hfree, hleaf⟩ := h.first.staged_there hsimHub hmem hpath
    have hkept : fs₂.lookup path = fs₁.lookup path := by
      apply h.second.elsewhere hcore
      intro suffix'
      rw [hname, hnamed, hnamed']
      exact append_apart simHubPath suffix suffix'
    refine ⟨hflag, hfree, ?_⟩
    rwa [FileSystem.testLeaf, FileSystem.read_congr hkept]
  · obtain ⟨⟨suffix, hname⟩, hflag, hfree, hleaf⟩ := h.second.staged_there hcore hmem hpath
    have hkept : fs₁.lookup path = fs'.lookup path := by
      apply h.first.elsewhere hsimHub
      intro suffix'
      rw [hname, hnamed, hnamed']
      exact (append_apart simHubPath suffix' suffix).symm
    exact ⟨hflag, hkept ▸ hfree, hleaf⟩

theorem calmly_removeBoth (hguids : ∀ d, Function.Injective (newGuid d)) (hempty : s.journal = [])
    (h : Settled setup package simHubPath fs s.files simHub core) :
    ∃ s' fs₁ operations operations',
      Script.Calmly ([simHub, core].forM (removeFile newGuid)) s (.ok ⟨⟩) s' ∧
      s'.journal = operations ++ operations' ∧
      RemovedBoth newGuid simHub core s.files fs₁ s'.files operations operations' := by
  obtain ⟨hsimHub, -⟩ := h.recoverable
  have hstart : Rollable s.files s := by
    rw [Rollable, hempty]
    exact RollsBack.nil _
  obtain ⟨_, s₁, hcalm⟩ := returns_removeFile hguids hsimHub
  obtain ⟨hrollable, operations, hjournal, hremoved⟩ := (ends_removeFile hstart).of_calmly hcalm
  obtain ⟨_, s₂, hcalm'⟩ := returns_removeFile hguids (h.recoverable_second hremoved)
  obtain ⟨-, operations', hjournal', hremoved'⟩ := (ends_removeFile hrollable).of_calmly hcalm'
  rw [hempty, List.nil_append] at hjournal
  rw [hjournal] at hjournal'
  exact ⟨s₂, s₁.files, operations, operations', hcalm.bind (hcalm'.bind (Script.Calmly.pure _ _)),
    hjournal', hremoved, hremoved'⟩

end Both

section Script
variable {simHubPath : List FileName} {fs : FileSystem (Content γ)}
  {s : Session (Content γ) StateDirectory ManagedFile}

theorem Settled.lease {fs' : FileSystem (Content γ)} {simHub core : ManagedFile}
    (h : Settled setup package simHubPath fs fs' simHub core) (root : List FileName) :
    fs'.lookup (leasePath root) = fs.lookup (leasePath root) := by
  obtain ⟨hsimHub, hcore⟩ := h.recoverable
  obtain ⟨hnamed, hnamed'⟩ := h.named
  have hname : (leasePath root).name[0]? ≠ some 'F' := by
    intro heq
    change some '.' = some 'F' at heq
    cases heq
  have huntouched := @not_touched_of_name simHubPath _ hname
  apply h.others
  · intro heq
    have hchar := congrArg (fun path => path.name[0]?) heq
    change some '.' = some 's' at hchar
    cases hchar
  · intro name hmem heq
    exact huntouched name hmem (.inl heq)
  · intro hsome
    obtain ⟨⟨n, hbackup⟩, -⟩ := hsimHub.backup _ hsome
    rw [hnamed] at hbackup
    exact huntouched _ (by decide) (.inr ⟨n, hbackup⟩)
  · intro hsome
    obtain ⟨⟨n, hbackup⟩, -⟩ := hcore.backup _ hsome
    rw [hnamed'] at hbackup
    exact huntouched _ (by decide) (.inr ⟨n, hbackup⟩)

theorem Settled.assertFiles {fs' : FileSystem (Content γ)} {simHub core : ManagedFile}
    (h : Settled setup package simHubPath fs fs' simHub core) :
    assertFiles ⟨1, package.now, simHubPath, [simHub, core]⟩ =
      .ok ⟨1, package.now, simHubPath, [simHub, core]⟩ := by
  obtain ⟨content, -, hright⟩ := h.first
  obtain ⟨content', -, hright'⟩ := h.second
  exact assertFiles_recorded rfl hright.recorded hright'.recorded

theorem Settled.absent {fs' : FileSystem (Content γ)} {simHub core : ManagedFile}
    (h : Settled setup package simHubPath fs fs' simHub core) {path : Path}
    (hpath : fs'.lookup path = none) : fs.lookup path = none := by
  obtain ⟨hsimHub, hcore⟩ := h.recoverable
  obtain ⟨content, -, hright⟩ := h.first
  obtain ⟨content', -, hright'⟩ := h.second
  rw [← h.others path, hpath]
  · rintro rfl
    rw [h.saved] at hpath
    cases hpath
  · intro name hname
    simp only [managedNames, List.mem_cons, List.not_mem_nil, or_false] at hname
    rintro rfl
    rcases hname with rfl | rfl
    · obtain ⟨entry, hentry⟩ := hright.present
      rw [hentry] at hpath
      cases hpath
    · obtain ⟨entry, hentry⟩ := hright'.present
      rw [hentry] at hpath
      cases hpath
  · intro hsome
    obtain ⟨-, content, hthere, -⟩ := hsimHub.backup path hsome
    rw [hthere] at hpath
    cases hpath
  · intro hsome
    obtain ⟨-, content, hthere, -⟩ := hcore.backup path hsome
    rw [hthere] at hpath
    cases hpath

theorem statePath_apart (setup : Setup γ) (simHubPath : List FileName) {name : FileName}
    (hname : name ∈ managedNames) (suffix : FileName) :
    setup.statePath ≠ Path.append ⟨simHubPath, name⟩ suffix := by
  intro h
  have hchar := congrArg (fun path => path.name[0]?) h
  simp only [managedNames, List.mem_cons, List.not_mem_nil, or_false] at hname
  rcases hname with rfl | rfl
  · change some 's' = some 'F' at hchar
    cases hchar
  · change some 's' = some 'F' at hchar
    cases hchar

theorem calmly_removePlugin {s : Session (Content γ) StateDirectory RemovalOperation}
    {simHub core : ManagedFile} (hguids : ∀ d, Function.Injective (newGuid d))
    (hempty : s.journal = []) (hclosed : setup.simHubRunning = false)
    (h : Settled setup package simHubPath fs s.files simHub core) :
    ∃ s', Script.Calmly (removePlugin setup newGuid ⟨1, package.now, simHubPath, [simHub, core]⟩) s
      (.ok .removed) s' ∧ s'.files = fs := by
  obtain ⟨hsimHub, hcore⟩ := h.recoverable
  obtain ⟨hnamed, hnamed'⟩ := h.named
  obtain ⟨s₁, fs₁, operations, operations', hremove, hjournal, hboth⟩ :=
    calmly_removeBoth hguids hempty h
  have hstaged : ∀ path, StagedAt (operations ++ operations') path →
      s.files.lookup path = none ∧ path ≠ setup.statePath := by
    rintro path ⟨operation, hmem, hsome⟩
    obtain ⟨-, hfree, -⟩ := hboth.staged h hmem hsome
    refine ⟨hfree, ?_⟩
    rintro rfl
    rw [h.saved] at hfree
    cases hfree
  have hrecord : s₁.files.testLeaf setup.statePath = true := by
    have hafter : s₁.files.lookup setup.statePath = fs₁.lookup setup.statePath := by
      apply hboth.second.elsewhere (h.recoverable_second hboth.first)
      rw [hnamed']
      exact statePath_apart setup simHubPath (by decide)
    have hbefore : fs₁.lookup setup.statePath = s.files.lookup setup.statePath := by
      apply hboth.first.elsewhere hsimHub
      rw [hnamed]
      exact statePath_apart setup simHubPath (by decide)
    exact FileSystem.testLeaf_of_file ((hafter.trans hbefore).trans h.saved)
  have hdiscardable : ∀ operation ∈ s₁.journal,
      Discardable (s₁.files.erase setup.statePath) operation := by
    intro operation hmem path hsome
    rw [hjournal] at hmem
    obtain ⟨hflag, -, hleaf⟩ := hboth.staged h hmem hsome
    have hne := (hstaged path ⟨operation, hmem, hsome⟩).2
    refine ⟨hflag, .inl ?_⟩
    rwa [FileSystem.testLeaf, FileSystem.read_congr (Finmap.lookup_erase_ne hne)]
  obtain ⟨s₂, hdelete, hgone, hkept⟩ := calmly_deleteAllStaged
    (s := { s₁ with files := s₁.files.erase setup.statePath }) hdiscardable
  refine ⟨s₂, ?_, ?_⟩
  · have hcheck : Script.Calmly (check (!setup.simHubRunning)
        (.thrown "Close SimHub before uninstalling the plug-in.")) s (.ok ⟨⟩) s :=
      calmly_check (by rw [hclosed]; rfl)
    have hvalidate : Script.Calmly ([simHub, core].forM (validateFile setup)) s (.ok ⟨⟩) s :=
      (calmly_validateFile hsimHub).bind ((calmly_validateFile hcore).bind (Script.Calmly.pure _ s))
    have hfiles : Script.Calmly (removeFiles setup newGuid [simHub, core]) s (.ok ⟨⟩)
        { s₁ with files := s₁.files.erase setup.statePath } :=
      hremove.bind (calmly_deleteFile hrecord)
    exact hcheck.bind <| hvalidate.bind <| (hfiles.onError rollback).bind <|
      Script.Calmly.look_bind <| hdelete.bind <| Script.Calmly.pure _ s₂
  · apply Finmap.ext_lookup
    intro path
    rw [hjournal] at hgone hkept
    by_cases hpath : StagedAt (operations ++ operations') path
    · rw [hgone path hpath, h.absent (hstaged path hpath).1]
    · rw [hkept path hpath]
      by_cases hstate : path = setup.statePath
      · rw [hstate, Finmap.lookup_erase, h.unsaved]
      · rw [Finmap.lookup_erase_ne hstate, hboth.lookup h hstate hpath]

theorem calmly_uninstallSimHubPlugin (hguids : ∀ d, Function.Injective (newGuid d))
    (h : Completed setup package simHubPath fs s) :
    ∃ s', Script.Calmly (uninstallSimHubPlugin setup newGuid) ⟨s.files, s.rest, []⟩
      (.ok .removed) s' ∧ s'.files = fs := by
  obtain ⟨simHub, core, -, hsettled⟩ := h.settled
  have hfound : Script.Calmly (readFFBPluginState setup false false)
      (⟨s.files, s.rest, []⟩ : Session (Content γ) StateDirectory RemovalOperation)
      (.ok (some ⟨1, package.now, simHubPath, [simHub, core]⟩)) ⟨s.files, s.rest, []⟩ :=
    calmly_readFFBPluginState false h.shielded hsettled.saved rfl hsettled.assertFiles
      h.simHub.root
  have hread : Script.Calmly (requireState setup)
      (⟨s.files, s.rest, []⟩ : Session (Content γ) StateDirectory RemovalOperation)
      (.ok ⟨1, package.now, simHubPath, [simHub, core]⟩) ⟨s.files, s.rest, []⟩ :=
    hfound.bind (Script.Calmly.pure _ _)
  have hsimHub : Script.Calmly (enterFFBSimHubMutationBoundary setup none simHubPath false)
      (⟨s.files, s.rest, []⟩ : Session (Content γ) StateDirectory RemovalOperation) (.ok ⟨⟩)
      ⟨s.files, s.rest, []⟩ := by
    apply calmly_enterFFBSimHubMutationBoundary
    · exact ⟨(hsettled.lease _).trans h.simHub.lease, h.simHub.not_held, h.simHub.root⟩
    · exact fun h => absurd h Bool.false_ne_true
  have hdirectory : Script.Calmly (enterFFBStateMutationBoundary setup (some simHubPath) false)
      (⟨s.files, s.rest, []⟩ : Session (Content γ) StateDirectory RemovalOperation) (.ok ⟨⟩)
      ⟨s.files, s.rest, []⟩ := by
    apply Script.Calmly.look_bind
    rw [h.shielded]
    apply calmly_enterFFBSimHubMutationBoundary
    · exact ⟨(hsettled.lease _).trans h.directory.lease, h.directory.not_held, h.directory.root⟩
    · exact fun h => absurd h Bool.false_ne_true
  obtain ⟨s', hremove, hfiles⟩ := calmly_removePlugin (s := ⟨s.files, s.rest, []⟩) hguids rfl
    h.closed hsettled
  refine ⟨s', calmly_ask ?_, hfiles⟩
  rw [FileSystem.testLeaf_of_file hsettled.saved, if_pos rfl]
  refine hread.bind <| hsimHub.bind <| hdirectory.bind <| hread.bind ?_
  rw [if_neg (not_not_intro rfl)]
  exact hremove

end Script

section RoundTrip

/-- A removal takes back what an installation has done, to the last file; where it stops with an
error, nothing has happened. Every backup name an installation chooses passes the check. -/
theorem uninstall_undoes_install (setup : Setup γ) (package : Package γ)
    (simHubInstallPath : Option (List FileName)) (fs : FileSystem (Content γ))
    (directory : StateDirectory) (newGuid : Guids)
    (hfresh : Fresh setup package (chosenSimHub package simHubInstallPath) fs)
    (hguids : ∀ d, Function.Injective (newGuid d)) :
    (∀ countdown w, (installSimHubPlugin setup package simHubInstallPath).outcome
        ⟨⟨fs, directory, []⟩, countdown⟩ = (.ok .installed, w) →
      ∃ s', Script.Calmly (uninstallSimHubPlugin setup newGuid)
        ⟨w.state.files, w.state.rest, []⟩ (.ok .removed) s' ∧ s'.files = fs) ∧
    (∀ fs' directory', Script.Ends (uninstallSimHubPlugin setup newGuid) ⟨fs', directory', []⟩
      (fun outcome s' => (outcome = .nothingInstalled ∧ s'.files = fs') ∨
        (outcome = .removed ∧ ∃ state, Holds setup fs' state ∧
          RemovedAs setup newGuid fs' state s'))
      (fun s' => s'.files = fs')) ∧
    ∀ (fs' : FileSystem (Content γ)) (file : ManagedFile) (content : Content γ),
      file.changed = true → file.backup = some (getBackupPath fs' file.destination) →
      file.backupSha256 = setup.sha256 content → assertBackup file = .ok () := by
  refine ⟨?_, fun fs' directory' => ends_uninstallSimHubPlugin rfl, ?_⟩
  · intro countdown w hinstall
    have hends := ends_installSimHubPlugin simHubInstallPath (s := ⟨fs, directory, []⟩) rfl hfresh
      countdown
    rw [hinstall] at hends
    rcases hends with ⟨houtcome, -⟩ | ⟨-, hcompleted⟩
    · cases houtcome
    · exact calmly_uninstallSimHubPlugin hguids hcompleted
  · intro fs' file content hchanged hbackup hhash
    have hname : isBackupPath file.destination (getBackupPath fs' file.destination) = true :=
      isBackupPath_backupCandidate file.destination _
    have hhex : isSha256 (setup.sha256 content) = true := isSha256_toHex _
    simp only [assertBackup, hbackup, hhash, sha256_toUpper, hchanged, hname, hhex, Bool.not_true,
      Bool.false_eq_true, if_false]

theorem uninstall_undoes_install_sample :
    ∃ s s', Script.Calmly (installSimHubPlugin sampleSetup samplePackage none)
        ⟨sampleFiles, none, []⟩ (.ok .installed) s ∧
      Script.Calmly (uninstallSimHubPlugin sampleSetup fun _ => Nat.toDigits 10)
        ⟨s.files, s.rest, []⟩ (.ok .removed) s' ∧ s'.files = sampleFiles := by
  obtain ⟨s, hinstall⟩ := returns_installSimHubPlugin (s := ⟨sampleFiles, none, []⟩) none rfl
    sample_ready sample_fresh
  obtain ⟨s', hremove, hfiles⟩ := (uninstall_undoes_install sampleSetup samplePackage none
    sampleFiles none (fun _ => Nat.toDigits 10) sample_fresh fun _ => toDigits_injective).1 none
      ⟨s, none⟩ hinstall
  exact ⟨s, s', hinstall, hremove, hfiles⟩

end RoundTrip

end FfbInterceptor.Installer
