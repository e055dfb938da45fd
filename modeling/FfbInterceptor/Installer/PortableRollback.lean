import FfbInterceptor.Installer.ManagedFile
import FfbInterceptor.Installer.Portable

/-! Where the portable installation fails before its record is saved, everything is as it was; where
the saving fails, everything stays that was done. -/
namespace FfbInterceptor.Installer.Portable
open FfbInterceptor.Library

variable {γ α : Type} {setup : Setup γ}

abbrev State (γ : Type) := Session (Content γ) (Option Step) ManagedFile

section Steps
variable {s : State γ} {label : Step} {path : Path}
  {torn : FileSystem (Content γ) → FileSystem (Content γ)}
  {effect : FileSystem (Content γ) → Option (α × FileSystem (Content γ))} {E : State γ → Prop}

theorem outcome_step_failing (w : World (State γ)) (h : w.state.rest = some label) :
    (step label path torn effect).outcome w =
      (.error (.io path),
        { w with state := { w.state with files := torn w.state.files, rest := none } }) := if_pos h

theorem outcome_step (w : World (State γ)) (h : w.state.rest ≠ some label) :
    (step label path torn effect).outcome w =
      match effect w.state.files with
      | some (a, fs) => (.ok a, { w with state := { w.state with files := fs } })
      | none => (.error (.io path), w) := if_neg h

theorem ends_step {Q : α → State γ → Prop} (hE : effect s.files = none → E s)
    (htorn : s.rest = some label → E { s with files := torn s.files, rest := none })
    (hQ : ∀ a fs, effect s.files = some (a, fs) → Q a { s with files := fs }) :
    Script.Ends (step label path torn effect) s Q E := by
  intro n
  by_cases hlabel : s.rest = some label
  · rw [outcome_step_failing ⟨s, n⟩ hlabel]
    exact htorn hlabel
  · rw [outcome_step ⟨s, n⟩ hlabel]
    cases heffect : effect s.files with
    | none => exact hE heffect
    | some done => exact hQ done.1 done.2 heffect

end Steps

section File
variable {s s' : State γ} {file : PackageFile} {destination : Path} {content : Content γ}
  {fs fs₁ fs' : FileSystem (Content γ)} {record : ManagedFile}

def Unchanged (s s' : State γ) : Prop := s'.files = s.files ∧ s'.journal = s.journal

/-- No folder stands in the place of a file, and nothing in the place of its copy. -/
structure Plain (setup : Setup γ) (fs : FileSystem (Content γ)) (destination : Path) : Prop where
  not_folder : fs.isFolder destination = false
  fresh : fs.lookup (temporaryFile setup destination) = none

abbrev Installed (setup : Setup γ) (content : Content γ) (destination : Path)
    (fs : FileSystem (Content γ)) : ManagedFile → FileSystem (Content γ) → Prop :=
  Deposited setup.toHost (fun fs path old => fs.read path = some old)
    (fun backup _ changed => ⟨destination, backup, setup.sha256 content, changed⟩) content destination fs

theorem temporaryFile_ne (destination : Path) : temporaryFile setup destination ≠ destination :=
  destination.append_ne_self (List.cons_ne_nil _ _)

theorem temporaryFile_ne_backupCandidate (destination : Path) (n : Nat) :
    temporaryFile setup destination ≠ backupCandidate destination n :=
  append_new_ne_backupCandidate destination _ n

theorem absent_of_plain (hplain : fs.isFolder destination = false)
    (hleaf : fs.testLeaf destination = false) : fs.lookup destination = none := by
  rw [← FileSystem.testPath_eq_false]
  simpa [FileSystem.isFolder, hleaf] using hplain

theorem moveItem_of_free {source : Path} (h : fs.lookup destination = none) :
    moveItem fs source destination = fs.move source destination := by
  rw [moveItem, isFolder_of_absent h, if_neg Bool.false_ne_true]

theorem copyTarget_of_free {source : Path} (h : fs.lookup destination = none) :
    copyTarget fs source destination = destination := by
  rw [copyTarget, isFolder_of_absent h, if_neg Bool.false_ne_true]

/-- What the steps of a publication that stops have left: the old file may be set aside, a copy may lie
about. -/
def HalfPublished (setup : Setup γ) (destination : Path) (backup : Option Path)
    (s s' : State γ) : Prop :=
  s'.journal = s.journal ∧
    (s.files.Littered (temporaryFile setup destination) s'.files ∨
      ∃ path fs₁, backup = some path ∧ s.files.move destination path = some fs₁ ∧
        fs₁.Littered (temporaryFile setup destination) s'.files)

theorem ends_copyIn (hfresh : s.files.lookup (temporaryFile setup destination) = none)
    (hfree : s.files.lookup destination = none) :
    Script.Ends (do
        copyItem setup file (temporaryFile setup destination)
        step (.publish file) (temporaryFile setup destination) id fun fs =>
          (moveItem fs (temporaryFile setup destination) destination).map fun fs => (PUnit.unit, fs)) s
      (fun _ s' => ∃ content, setup.package.read (setup.source file) = some content ∧
        s' = { s with files := s.files.insert destination (.file content) })
      (fun s' => s'.journal = s.journal ∧
        s.files.Littered (temporaryFile setup destination) s'.files) := by
  have hne : destination ≠ temporaryFile setup destination := (temporaryFile_ne destination).symm
  apply Script.Ends.bind (Q := fun _ s' => ∃ content,
    setup.package.read (setup.source file) = some content ∧
      s' = { s with files := s.files.insert (temporaryFile setup destination) (.file content) })
  · unfold copyItem
    apply ends_step
    · exact fun _ => ⟨rfl, .inl rfl⟩
    · intro _
      rw [copyTarget_of_free hfresh]
      exact ⟨rfl, setup.toHost.littered_tear _ _⟩
    · intro _ fs heffect
      obtain ⟨content, hread, hwrite⟩ := Option.bind_eq_some_iff.mp heffect
      rw [copyTarget_of_free hfresh, FileSystem.write, isFolder_of_absent hfresh,
        if_neg Bool.false_ne_true] at hwrite
      cases hwrite
      exact ⟨content, hread, rfl⟩
  rintro _ _ ⟨content, hread, rfl⟩
  have hlittered := FileSystem.littered_insert s.files (temporaryFile setup destination) content
  apply ends_step
  · exact fun _ => ⟨rfl, hlittered⟩
  · exact fun _ => ⟨rfl, hlittered⟩
  · intro _ fs heffect
    obtain ⟨fs', hmove, hpair⟩ := Option.map_eq_some_iff.mp heffect
    cases hpair
    rw [moveItem_of_free (by rw [Finmap.lookup_insert_of_ne _ hne, hfree])] at hmove
    obtain ⟨-, rfl⟩ := FileSystem.move_inserted hfresh hne hmove
    exact ⟨content, hread, rfl⟩

theorem fresh_of_move {backup : Path} (hbackup : ∃ n, backup = backupCandidate destination n)
    (hfresh : fs.lookup (temporaryFile setup destination) = none)
    (hmove : fs.move destination backup = some fs₁) :
    fs₁.lookup (temporaryFile setup destination) = none ∧ fs₁.lookup destination = none := by
  obtain ⟨n, rfl⟩ := hbackup
  obtain ⟨entry, -, -, -, rfl⟩ := FileSystem.move_eq_some hmove
  have hne := @temporaryFile_ne_backupCandidate γ setup destination n
  constructor
  · rw [FileSystem.lookup_insert_erase, if_neg hne, if_neg (temporaryFile_ne destination), hfresh]
  · rw [FileSystem.lookup_insert_erase, if_neg (backupCandidate_ne destination n).symm, if_pos rfl]

theorem calmly_undoFile {backup : Option Path}
    (hfresh : s.files.lookup (temporaryFile setup destination) = none)
    (hbackup : ∀ path, backup = some path → (∃ n, path = backupCandidate destination n) ∧
      s.files.testPath destination = true)
    (h : HalfPublished setup destination backup s s') :
    Script.Calmly (undoFile destination (temporaryFile setup destination) backup) s' (.ok ⟨⟩)
      { s' with files := s.files } := by
  obtain ⟨-, hlittered | ⟨path, fs₁, hsome, hmove, hlittered⟩⟩ := h
  · apply (calmly_discard hfresh hlittered).bind
    cases backup with
    | none => exact Script.Calmly.pure _ _
    | some path =>
      apply calmly_ask
      rw [(hbackup path rfl).2]
      exact Script.Calmly.pure _ _
  · subst hsome
    apply (calmly_discard (fresh_of_move (hbackup path rfl).1 hfresh hmove).1 hlittered).bind
    exact calmly_takeBack (s := { s' with files := s.files }) hmove

theorem ends_publishFile {backup : Option Path} (hplain : Plain setup s.files destination)
    (hbackup : backup = if s.files.testLeaf destination then some (getBackupPath s.files destination)
      else none) :
    Script.Ends (publishFile setup file destination (temporaryFile setup destination) backup) s
      (fun _ s' => s'.journal = s.journal ∧ s'.rest = s.rest ∧
        ∃ content, setup.package.read (setup.source file) = some content ∧
          ((s.files.lookup destination = none ∧ backup = none ∧
              s'.files = s.files.insert destination (.file content)) ∨
            ∃ fs₁, backup = some (getBackupPath s.files destination) ∧
              s.files.move destination (getBackupPath s.files destination) = some fs₁ ∧
              s'.files = fs₁.insert destination (.file content)))
      (HalfPublished setup destination backup s) := by
  cases hleaf : s.files.testLeaf destination with
  | false =>
    rw [hleaf, if_neg Bool.false_ne_true] at hbackup
    subst hbackup
    have hfree := absent_of_plain hplain.not_folder hleaf
    apply (ends_copyIn hplain.fresh hfree).weaken
    · rintro _ _ ⟨content, hread, rfl⟩
      exact ⟨rfl, rfl, content, hread, .inl ⟨hfree, rfl, rfl⟩⟩
    · exact fun s' h => ⟨h.1, .inl h.2⟩
  | true =>
    rw [hleaf, if_pos rfl] at hbackup
    subst hbackup
    have hfree := getBackupPath_free s.files destination
    apply Script.Ends.bind (Q := fun _ s' => ∃ fs₁,
      s.files.move destination (getBackupPath s.files destination) = some fs₁ ∧
        s' = { s with files := fs₁ })
    · unfold setAside
      apply ends_step
      · exact fun _ => ⟨rfl, .inl (.inl rfl)⟩
      · exact fun _ => ⟨rfl, .inl (.inl rfl)⟩
      · intro _ fs heffect
        obtain ⟨fs₁, hmove, hpair⟩ := Option.map_eq_some_iff.mp heffect
        cases hpair
        rw [moveItem_of_free hfree] at hmove
        exact ⟨fs, hmove, rfl⟩
    rintro _ _ ⟨fs₁, hmove, rfl⟩
    obtain ⟨hfresh, hgone⟩ := fresh_of_move (exists_getBackupPath _ _) hplain.fresh hmove
    apply (ends_copyIn (s := { s with files := fs₁ }) hfresh hgone).weaken
    · rintro _ _ ⟨content, hread, rfl⟩
      exact ⟨rfl, rfl, content, hread, .inr ⟨fs₁, rfl, hmove, rfl⟩⟩
    · exact fun s' h => ⟨h.1, .inr ⟨_, fs₁, rfl, hmove, h.2⟩⟩

theorem ends_hashDestination {E : State γ → Prop} (hE : ∀ s', Unchanged s s' → E s') :
    Script.Ends (hashDestination setup file destination) s
      (fun hash s' => s' = s ∧ ∃ old, s.files.read destination = some old ∧ hash = setup.sha256 old) E := by
  unfold hashDestination
  apply ends_step
  · exact fun _ => hE _ ⟨rfl, rfl⟩
  · exact fun _ => hE _ ⟨rfl, rfl⟩
  · intro hash fs heffect
    obtain ⟨old, hread, hpair⟩ := Option.map_eq_some_iff.mp heffect
    cases hpair
    exact ⟨rfl, old, hread, rfl⟩

/-- One file is installed or nothing has happened. -/
theorem ends_installManagedFile (hplain : Plain setup s.files destination) :
    Script.Ends (installManagedFile setup file destination) s
      (fun record s' => s'.journal = s.journal ∧ s'.rest = s.rest ∧
        ∃ content, setup.package.read (setup.source file) = some content ∧
          Installed setup content destination s.files record s'.files)
      (Unchanged s) := by
  apply (reads_check _ _).ends_bind ⟨rfl, rfl⟩
  intro _
  apply Script.Ends.bind (Q := fun hash s' => s = s' ∧
    ∃ content, setup.package.read (setup.source file) = some content ∧ hash = setup.sha256 content)
  · apply ends_step
    · exact fun _ => ⟨rfl, rfl⟩
    · exact fun _ => ⟨rfl, rfl⟩
    · intro hash fs heffect
      obtain ⟨content, hread, hpair⟩ := Option.map_eq_some_iff.mp heffect
      cases hpair
      exact ⟨rfl, content, hread, rfl⟩
  rintro _ _ ⟨rfl, content, hread, rfl⟩
  apply Script.Ends.bind (Q := fun same s' => s = s' ∧
    (same = true → ∃ old, s.files.read destination = some old ∧
      setup.sha256 old = setup.sha256 content) ∧
    (same = false → ∀ old, s.files.read destination = some old →
      setup.sha256 old ≠ setup.sha256 content))
  · exact ends_holdsSha256 (ends_hashDestination fun _ h => h)
      fun same hsame hother => ⟨rfl, hsame, hother⟩
  rintro same _ ⟨rfl, hsame, hother⟩
  apply Script.Ends.ite
  · intro htrue
    obtain ⟨old, hold, hhash⟩ := hsame htrue
    exact Script.Ends.pure _ ⟨rfl, rfl, content, hread, .same hold hhash⟩
  · intro hfalse
    have hdiffers := hother (Bool.eq_false_iff.mpr hfalse)
    apply ends_ask
    apply Script.Ends.bind (Q := fun _ s' => s'.journal = s.journal ∧ s'.rest = s.rest ∧
      Installed setup content destination s.files ⟨destination,
        if s.files.testLeaf destination then some (getBackupPath s.files destination) else none,
        setup.sha256 content, true⟩ s'.files)
    · apply Script.Ends.onError (F := HalfPublished setup destination
        (if s.files.testLeaf destination then some (getBackupPath s.files destination) else none) s)
      · apply (ends_publishFile hplain rfl).weaken
        · rintro _ s' ⟨hjournal, hrest, content', hread', hdone⟩
          obtain rfl := Option.some.inj (hread.symm.trans hread')
          refine ⟨hjournal, hrest, ?_⟩
          rcases hdone with ⟨hfree, hbackup, hfiles⟩ | ⟨fs₁, hbackup, hmove, hfiles⟩
          · rw [hbackup, hfiles]
            exact .added hfree
          · obtain ⟨entry, -, hleaf, -, -⟩ := FileSystem.move_eq_some hmove
            obtain ⟨old, hold⟩ := FileSystem.testLeaf_iff.mp hleaf
            rw [hbackup, hfiles]
            exact .replaced hold (hdiffers old hold) hmove
        · exact fun _ h => h
      · intro s' hhalf
        refine ⟨_, calmly_undoFile hplain.fresh ?_ hhalf, rfl, hhalf.1⟩
        intro path hpath
        split at hpath
        · next hleaf =>
          obtain rfl := Option.some.inj hpath
          refine ⟨exists_getBackupPath _ _, ?_⟩
          obtain ⟨old, hold⟩ := FileSystem.testLeaf_iff.mp hleaf
          obtain ⟨entry, hentry, -⟩ := Option.bind_eq_some_iff.mp hold
          exact FileSystem.testPath_of_lookup hentry
        · cases hpath
    · rintro _ s' ⟨hjournal, hrest, hdone⟩
      exact Script.Ends.pure _ ⟨hjournal, hrest, content, hread, hdone⟩

theorem calmly_restoreManagedFile (h : Installed setup content destination fs record s.files) :
    Script.Calmly (restoreManagedFile setup record) s (.ok ⟨⟩) { s with files := fs } := by
  obtain ⟨files, rest, journal⟩ := s
  cases h with
  | same hold hhash => exact Script.Calmly.pure _ _
  | added hfree => exact (calmly_removeUnchanged hfree).bind (Script.Calmly.pure _ _)
  | @replaced old fs₁ hold hdiffers hmove =>
    have hback := FileSystem.move_back hmove
    obtain ⟨entry, hentry, -, habsent, -⟩ := FileSystem.move_eq_some hmove
    obtain ⟨entry', hentry', -, hgone, -⟩ := FileSystem.move_eq_some hback
    apply (calmly_removeUnchanged hgone).bind
    apply calmly_ask
    simp only [FileSystem.testPath_of_lookup hentry', FileSystem.testPath_eq_false.mpr hgone,
      Bool.not_false, Bool.and_self, ↓reduceIte]
    exact calmly_moveFile (s := ⟨fs₁, rest, journal⟩) hback

end File
section All

abbrev Target := PackageFile × List FileName

def Target.destination (target : Target) : Path := ⟨target.2, target.1.name⟩

abbrev InstalledAll (setup : Setup γ) (fs : FileSystem (Content γ)) (targets : List Target)
    (records : List ManagedFile) (fs' : FileSystem (Content γ)) : Prop :=
  Script.Series (fun target fs₁ record fs₂ => ∃ content,
    setup.package.read (setup.source target.1) = some content ∧
      Installed setup content target.destination fs₁ record fs₂) fs targets records fs'

/-- What stands at a target already has the hash of the package's file. -/
def AlreadyThere (setup : Setup γ) (fs : FileSystem (Content γ)) (target : Target) : Prop :=
  ∃ content old, setup.package.read (setup.source target.1) = some content ∧
    fs.read target.destination = some old ∧ setup.sha256 old = setup.sha256 content

variable {s : State γ} {fs fs₁ fs' : FileSystem (Content γ)} {targets : List Target} {target : Target}
  {records : List ManagedFile} {record : ManagedFile} {content : Content γ} {destination path : Path}

theorem name_append_ne {file file' : PackageFile} (hne : file ≠ file') (suffix suffix' : FileName) :
    file.name ++ suffix ≠ file'.name ++ suffix' := by
  intro h
  have hfirst := congrArg (fun text => text[0]?) h
  have hlater := congrArg (fun text => text[15]?) h
  cases file with
  | simHub =>
    cases file' with
    | simHub => exact hne rfl
    | core =>
      change some 'S' = some 'C' at hlater
      cases hlater
    | proxy =>
      change some 'F' = some 'd' at hfirst
      cases hfirst
  | core =>
    cases file' with
    | simHub =>
      change some 'C' = some 'S' at hlater
      cases hlater
    | core => exact hne rfl
    | proxy =>
      change some 'F' = some 'd' at hfirst
      cases hfirst
  | proxy =>
    cases file' with
    | simHub | core =>
      change some 'd' = some 'F' at hfirst
      cases hfirst
    | proxy => exact hne rfl

theorem not_touched {file file' : PackageFile} (hne : file ≠ file') {folder folder' : List FileName}
    (h : Touched ⟨folder, file.name⟩ path) : ¬Touched ⟨folder', file'.name⟩ path := by
  intro h'
  obtain ⟨suffix, rfl⟩ := h.append
  obtain ⟨suffix', heq⟩ := h'.append
  exact name_append_ne hne suffix suffix' (congrArg Path.name heq)

theorem record_not_touched (folder : List FileName) (target : Target) :
    ¬Touched target.destination ⟨folder, "install-state.json".toList⟩ := by
  intro h
  obtain ⟨suffix, heq⟩ := h.append
  have hfirst := congrArg (fun path => path.name[0]?) heq
  obtain ⟨file, folder⟩ := target
  cases file <;> cases hfirst

theorem statePath_not_touched (setup : Setup γ) (target : Target) :
    ¬Touched target.destination setup.statePath := record_not_touched _ target

theorem InstalledAll.frame (h : InstalledAll setup fs targets records fs')
    (hpath : ∀ target ∈ targets, ¬Touched target.destination path) :
    fs'.lookup path = fs.lookup path := by
  apply Script.Series.frame (g := fun fs => Finmap.lookup path fs) h
  rintro target htarget fs₁ record fs₂ ⟨content, -, hinstalled⟩
  exact hinstalled.frame (hpath target htarget)

theorem InstalledAll.restore (h : InstalledAll setup fs targets records s.files) :
    Script.Calmly (records.reverse.forM (restoreManagedFile setup)) s (.ok ⟨⟩)
      { s with files := fs } := by
  apply Script.Series.undo (f := fun fs => ({ s with files := fs } : State γ)) h
  rintro target fs₁ record fs₂ ⟨content, -, hinstalled⟩
  exact calmly_restoreManagedFile (s := { s with files := fs₂ }) hinstalled

/-- A target that does not have the package's file yet has a path that is new afterwards. -/
theorem Installed.news (h : Installed setup content target.destination fs record fs')
    (hread : setup.package.read (setup.source target.1) = some content)
    (hnot : ¬AlreadyThere setup fs target) :
    ∃ path, Touched target.destination path ∧ fs.lookup path = none ∧ fs'.lookup path ≠ none := by
  cases h with
  | @same old hold hhash => exact absurd ⟨content, old, hread, hold, hhash⟩ hnot
  | added hfree =>
    refine ⟨target.destination, .inl rfl, hfree, ?_⟩
    rw [Finmap.lookup_insert]
    exact Option.some_ne_none _
  | replaced hold hdiffers hmove =>
    obtain ⟨entry, -, -, hfree, rfl⟩ := FileSystem.move_eq_some hmove
    refine ⟨_, .inr (exists_getBackupPath _ _), hfree, ?_⟩
    obtain ⟨n, hn⟩ := exists_getBackupPath fs target.destination
    rw [Finmap.lookup_insert_of_ne _ (hn ▸ backupCandidate_ne _ n), Finmap.lookup_insert]
    exact Option.some_ne_none _

theorem alreadyThere_congr (h : fs'.lookup target.destination = fs.lookup target.destination) :
    AlreadyThere setup fs' target ↔ AlreadyThere setup fs target := by
  unfold AlreadyThere
  rw [FileSystem.read_congr h]

theorem InstalledAll.unchanged (h : InstalledAll setup fs targets records fs')
    (hnodup : (targets.map Prod.fst).Nodup) (hthere : ∀ target ∈ targets, AlreadyThere setup fs target) :
    fs' = fs := by
  induction h with
  | nil => rfl
  | @snoc targets target records record fs₁ fs₂ hbefore hlast ih =>
    obtain ⟨content, hread, hlast⟩ := hlast
    rw [List.map_append] at hnodup
    have hsame := ih (List.nodup_append.mp hnodup).1 fun t hmem => hthere t (List.mem_append_left _ hmem)
    subst hsame
    obtain ⟨content', old, hread', hold, hhash⟩ :=
      hthere target (List.mem_append_right _ (List.mem_singleton.mpr rfl))
    obtain rfl := Option.some.inj (hread.symm.trans hread')
    cases hlast with
    | same _ _ => rfl
    | added hfree =>
      rw [FileSystem.read_of_absent hfree] at hold
      cases hold
    | replaced hold' hdiffers _ =>
      obtain rfl := Option.some.inj (hold.symm.trans hold')
      exact absurd hhash hdiffers

theorem InstalledAll.news (h : InstalledAll setup fs targets records fs')
    (hnodup : (targets.map Prod.fst).Nodup) (hmem : target ∈ targets)
    (hnot : ¬AlreadyThere setup fs target) :
    ∃ path, Touched target.destination path ∧ fs.lookup path = none ∧ fs'.lookup path ≠ none := by
  induction h with
  | nil => cases hmem
  | @snoc targets last records record fs₁ fs₂ hbefore hlast ih =>
    obtain ⟨content, hread, hlast⟩ := hlast
    rw [List.map_append, List.nodup_append] at hnodup
    have hapart : ∀ t ∈ targets, t.1 ≠ last.1 := fun t ht =>
      hnodup.2.2 t.1 (List.mem_map_of_mem ht) last.1 (by simp)
    cases List.mem_append.mp hmem with
    | inl hearlier =>
      obtain ⟨path, htouched, hfree, hnew⟩ := ih hnodup.1 hearlier
      refine ⟨path, htouched, hfree, ?_⟩
      rwa [hlast.frame (not_touched (hapart target hearlier) htouched)]
    | inr hlater =>
      obtain rfl := List.mem_singleton.mp hlater
      have hkept : ∀ path, Touched target.destination path → fs₁.lookup path = fs.lookup path :=
        fun path htouched => InstalledAll.frame hbefore fun t ht =>
          not_touched (hapart t ht).symm htouched
      have hnot₁ : ¬AlreadyThere setup fs₁ target := by
        rwa [alreadyThere_congr (hkept _ (.inl rfl))]
      obtain ⟨path, htouched, hfree, hnew⟩ := hlast.news hread hnot₁
      exact ⟨path, htouched, (hkept path htouched).symm.trans hfree, hnew⟩

end All
section Body

def readState (setup : Setup γ) (fs : FileSystem (Content γ)) : Option InstallState :=
  match fs.read setup.statePath with
  | some (.state state) => some state
  | _ => none

def simHubTargets (setup : Setup γ) (simHubRecord : Option SimHubRecord) : List Target :=
  match simHubRecord, setup.resolvedSimHub with
  | none, .ok folder => if setup.skipSimHub then [] else [(.simHub, folder), (.core, folder)]
  | _, _ => []

def targets (setup : Setup γ) (fs : FileSystem (Content γ)) : List Target :=
  simHubTargets setup ((readState setup fs).bind InstallState.simHub) ++
    [(.proxy, setup.gamePath.folder)]

variable {s : State γ} {fs : FileSystem (Content γ)} {done : List Target} {file : PackageFile}
  {folder : List FileName} {simHubRecord : Option SimHubRecord}

def Undoable (setup : Setup γ) (fs : FileSystem (Content γ)) (done : List Target) (s : State γ) : Prop :=
  InstalledAll setup fs done s.journal s.files

theorem calmly_restoreChanges (h : Undoable setup fs done s) :
    Script.Calmly (restoreChanges setup) s (.ok ⟨⟩) { s with files := fs } :=
  Script.Calmly.look_bind h.restore

theorem ends_installFile (h : Undoable setup fs done s) (hplain : Plain setup fs ⟨folder, file.name⟩)
    (hapart : ∀ target ∈ done, target.1 ≠ file) :
    Script.Ends (installFile setup file folder) s
      (fun record s' => s'.rest = s.rest ∧ s'.journal = s.journal ++ [record] ∧
        Undoable setup fs (done ++ [(file, folder)]) s')
      (Undoable setup fs done) := by
  have hkept : ∀ suffix, s.files.lookup (Path.append ⟨folder, file.name⟩ suffix) =
      fs.lookup (Path.append ⟨folder, file.name⟩ suffix) := by
    intro suffix
    refine h.frame fun target hmem htouched => ?_
    obtain ⟨suffix', heq⟩ := htouched.append
    exact name_append_ne (hapart target hmem).symm suffix suffix' (congrArg Path.name heq)
  have hdestination : s.files.lookup ⟨folder, file.name⟩ = fs.lookup ⟨folder, file.name⟩ := by
    have hempty := hkept []
    rwa [Path.append, List.append_nil] at hempty
  have hplain' : Plain setup s.files ⟨folder, file.name⟩ := by
    refine ⟨?_, (hkept _).trans hplain.fresh⟩
    rw [FileSystem.isFolder, FileSystem.testPath, FileSystem.testLeaf, FileSystem.read, hdestination]
    exact hplain.not_folder
  apply ((ends_installManagedFile hplain').weaken (fun _ _ h => h) ?_).bind
  · rintro record s' ⟨hjournal, hrest, content, hread, hinstalled⟩
    apply Script.Ends.amend_bind
    apply Script.Ends.pure
    refine ⟨hrest, congrArg (· ++ [record]) hjournal, ?_⟩
    rw [Undoable, hjournal]
    exact Script.Series.snoc h ⟨content, hread, hinstalled⟩
  · rintro s' ⟨hfiles, hjournal⟩
    rwa [Undoable, hfiles, hjournal]

theorem ends_settle {α : Type} {result : Except Refusal α} {Q : α → State γ → Prop} {E : State γ → Prop}
    (hE : E s) (hQ : ∀ a, result = .ok a → Q a s) : Script.Ends (settle result) s Q E := by
  cases result with
  | ok a => exact Script.Ends.pure a (hQ a rfl)
  | error refusal => exact Script.Ends.throw _ hE

/-- What the record of SimHub becomes: the files that were installed, or what it was. -/
def Registers (old new : Option SimHubRecord) (files : List ManagedFile) : Prop :=
  (new = old ∧ files = []) ∨ (old = none ∧ ∃ installPath, new = some ⟨installPath, files⟩)

theorem ends_installSimHub (hempty : s.journal = []) (h : Undoable setup fs [] s)
    (hplain : ∀ target ∈ simHubTargets setup simHubRecord, Plain setup fs target.destination) :
    Script.Ends (installSimHub setup simHubRecord) s
      (fun simHub s' => s'.rest = s.rest ∧ Registers simHubRecord simHub s'.journal ∧
        Undoable setup fs (simHubTargets setup simHubRecord) s')
      (fun s' => ∃ done, Undoable setup fs done s') := by
  unfold installSimHub
  cases simHubRecord with
  | some record =>
    apply Script.Ends.ite
    · intro _
      apply Script.Ends.bind (Q := fun _ s' => s' = s)
      · exact ends_settle ⟨[], h⟩ fun _ _ => rfl
      rintro folder _ rfl
      refine (reads_check _ _).ends_bind ⟨[], h⟩ fun _ => ?_
      exact Script.Ends.pure _ ⟨rfl, .inl ⟨rfl, hempty⟩, h⟩
    · exact fun _ => Script.Ends.pure _ ⟨rfl, .inl ⟨rfl, hempty⟩, h⟩
  | none =>
    cases hskip : setup.skipSimHub with
    | true =>
      have hnone : simHubTargets setup none = [] := by
        unfold simHubTargets
        rw [hskip]
        split <;> rfl
      rw [hnone]
      exact Script.Ends.pure _ ⟨rfl, .inl ⟨rfl, hempty⟩, h⟩
    | false =>
      apply Script.Ends.bind (Q := fun folder s' => s' = s ∧ setup.resolvedSimHub = .ok folder)
      · exact ends_settle ⟨[], h⟩ fun _ hresolved => ⟨rfl, hresolved⟩
      rintro folder _ ⟨rfl, hresolved⟩
      have htargets : simHubTargets setup none = [(.simHub, folder), (.core, folder)] := by
        simp [simHubTargets, hresolved, hskip]
      rw [htargets] at hplain ⊢
      refine (reads_check _ _).ends_bind ⟨[], h⟩ fun _ => ?_
      have hfirst := ends_installFile h (hplain (.simHub, folder) (by simp)) (by simp)
      apply (hfirst.weaken (fun _ _ h => h) fun s' h' => ⟨[], h'⟩).bind
      rintro simHub s₁ ⟨hrest₁, hjournal₁, h₁⟩
      have hsecond := ends_installFile h₁ (hplain (.core, folder) (by simp)) (by simp)
      apply (hsecond.weaken (fun _ _ h => h) fun s' h' => ⟨_, h'⟩).bind
      rintro core s₂ ⟨hrest₂, hjournal₂, h₂⟩
      rw [hjournal₁, hempty] at hjournal₂
      refine Script.Ends.pure _ ⟨hrest₂.trans hrest₁, .inr ⟨rfl, folder, ?_⟩, h₂⟩
      rw [hjournal₂]
      rfl

theorem ends_installAll (hempty : s.journal = [])
    (hplain : ∀ target ∈ simHubTargets setup simHubRecord ++ [(.proxy, setup.gamePath.folder)],
      Plain setup s.files target.destination) :
    Script.Ends (Script.onError (installAll setup simHubRecord) (restoreChanges setup)) s
      (fun result s' => s'.rest = s.rest ∧ Undoable setup s.files
        (simHubTargets setup simHubRecord ++ [(.proxy, setup.gamePath.folder)]) s' ∧
          ∃ files, s'.journal = files ++ [result.2] ∧ Registers simHubRecord result.1 files)
      (fun s' => s'.files = s.files) := by
  have hstart : Undoable setup s.files [] s := by
    rw [Undoable, hempty]
    exact .nil
  have hnoProxy : ∀ target ∈ simHubTargets setup simHubRecord, target.1 ≠ .proxy := by
    intro target hmem
    unfold simHubTargets at hmem
    split at hmem
    · split at hmem
      · cases hmem
      · simp only [List.mem_cons, List.not_mem_nil, or_false] at hmem
        rcases hmem with rfl | rfl <;> exact nofun
    · cases hmem
  apply Script.Ends.onError (F := fun s' => ∃ done, Undoable setup s.files done s')
  · have hplain' := fun t hmem => hplain t (List.mem_append_left _ hmem)
    apply (ends_installSimHub hempty hstart hplain').bind
    rintro simHub s₁ ⟨hrest₁, hfiles, h₁⟩
    have hproxy := ends_installFile h₁ (hplain _ (List.mem_append_right _ (List.mem_singleton.mpr rfl)))
      hnoProxy
    apply (hproxy.weaken (fun _ _ h => h) fun s' h' => ⟨_, h'⟩).bind
    rintro proxy s₂ ⟨hrest₂, hjournal, h₂⟩
    exact Script.Ends.pure _ ⟨hrest₂.trans hrest₁, h₂, s₁.journal, hjournal, hfiles⟩
  · rintro s' ⟨done, h⟩
    exact ⟨_, calmly_restoreChanges h, rfl⟩

theorem ends_readInstallState :
    Script.Ends (readInstallState setup) s (fun state s' => s' = s ∧ state = readState setup s.files)
      (fun s' => s' = s) := by
  apply ends_ask
  apply Script.Ends.ite
  · intro hleaf
    apply ends_ask
    cases hread : s.files.read setup.statePath with
    | none => exact Script.Ends.throw _ rfl
    | some content =>
      cases content with
      | bytes _ => exact Script.Ends.throw _ rfl
      | state state => exact Script.Ends.pure _ ⟨rfl, by rw [readState, hread]⟩
  · intro hleaf
    apply Script.Ends.pure
    rw [readState, FileSystem.testLeaf_eq_false.mp (Bool.eq_false_iff.mpr hleaf)]
    exact ⟨rfl, rfl⟩

def existingGames (setup : Setup γ) (fs : FileSystem (Content γ)) : List GameRecord :=
  ((readState setup fs).map InstallState.games).getD []

/-- The record that a run saves: the new game behind those that are managed. -/
def Updates (setup : Setup γ) (fs : FileSystem (Content γ)) (journal : List ManagedFile)
    (state : InstallState) : Prop :=
  (∀ game ∈ existingGames setup fs, game.gameExecutable ≠ setup.gamePath) ∧
    ∃ simHub files proxy, journal = files ++ [proxy] ∧
      Registers ((readState setup fs).bind InstallState.simHub) simHub files ∧
        state = ⟨1, setup.now, simHub,
          existingGames setup fs ++ [⟨setup.gamePath, setup.architecture, proxy⟩]⟩

/-- The files are installed, or everything is as it was. -/
theorem ends_installFiles (hempty : s.journal = [])
    (hplain : ∀ target ∈ targets setup s.files, Plain setup s.files target.destination) :
    Script.Ends (installFiles setup) s
      (fun state s' => s'.rest = s.rest ∧ Undoable setup s.files (targets setup s.files) s' ∧
        Updates setup s.files s'.journal state)
      (fun s' => s'.files = s.files) := by
  apply (ends_readInstallState.weaken (fun _ _ h => h) fun _ h => by rw [h]).bind
  rintro state s ⟨rfl, rfl⟩
  apply Script.Ends.bind (Q := fun _ s' => s' = s ∧
    ∀ game ∈ existingGames setup s.files, game.gameExecutable ≠ setup.gamePath)
  · refine ends_check ?_ fun hnew => ?_
    · rfl
    exact ⟨rfl, fun game hgame => of_decide_eq_true (List.all_eq_true.mp hnew game hgame)⟩
  rintro _ _ ⟨rfl, hnew⟩
  apply (ends_installAll hempty hplain).bind
  rintro result s' ⟨hrest, hdone, files, hjournal, hregisters⟩
  exact Script.Ends.pure _ ⟨hrest, hdone, hnew, result.1, files, result.2, hjournal, hregisters, rfl⟩

end Body

section Saving
variable {s : State γ} {fs : FileSystem (Content γ)} {failing : Step} {state : InstallState}

theorem ends_saveInstallState {E : State γ → Prop} (hfolder : s.files.isFolder setup.statePath = false)
    (hsaves : ∀ label, s.rest = some label → label.saves = false) :
    Script.Ends (saveInstallState setup state) s
      (fun _ s' => s'.files = s.files.insert setup.statePath (.file (.state state))) E := by
  have hnever : ∀ label : Step, label.saves = true → s.rest = some label → E s := by
    intro label hlabel hrest
    rw [hsaves label hrest] at hlabel
    cases hlabel
  apply Script.Ends.bind (Q := fun _ s' => s' = s)
  · apply ends_step
    · intro heffect
      cases heffect
    · intro hrest
      cases hsaves _ hrest
    · intro _ fs heffect
      cases heffect
      rfl
  rintro _ _ rfl
  apply ends_step
  · intro heffect
    rw [FileSystem.write, hfolder, if_neg Bool.false_ne_true] at heffect
    cases heffect
  · intro hrest
    cases hsaves _ hrest
  · intro _ fs heffect
    obtain ⟨fs', hwrite, hpair⟩ := Option.map_eq_some_iff.mp heffect
    cases hpair
    rw [FileSystem.write, hfolder, if_neg Bool.false_ne_true] at hwrite
    exact (Option.some.inj hwrite).symm

/-- What a failing step of the saving leaves of the files. -/
def torn (setup : Setup γ) (failing : Step) (fs : FileSystem (Content γ)) : FileSystem (Content γ) :=
  if failing = .write then setup.tear setup.statePath fs else fs

theorem saveInstallState_fails (state : InstallState) (hsaves : failing.saves = true)
    (hrest : s.rest = some failing)
    (hfolder : s.files.isFolder setup.statePath = false) (n : Option Nat) :
    ∃ refusal, (saveInstallState setup state).outcome ⟨s, n⟩ =
      (.error refusal, ⟨{ s with files := torn setup failing s.files, rest := none }, n⟩) := by
  refine ⟨.io setup.statePath, ?_⟩
  rw [saveInstallState, Script.outcome_bind]
  cases failing with
  | createDirectory =>
    rw [outcome_step_failing ⟨s, n⟩ hrest]
    rfl
  | write =>
    have hother : s.rest ≠ some .createDirectory := by
      rw [hrest]
      exact nofun
    rw [outcome_step ⟨s, n⟩ hother]
    simp only
    rw [outcome_step_failing ⟨s, n⟩ hrest]
    simp only [hfolder, Bool.false_eq_true, ↓reduceIte, torn]
  | hashSource _ | hashDestination _ | setAside _ | copy _ | publish _ => cases hsaves

end Saving

section Blindness
variable {fs : FileSystem (Content γ)} {failing : Step}

def withFailing (failing : Step) (w : World (State γ)) : World (State γ) :=
  { w with state := { w.state with rest := some failing } }

/-- A run of `m` in which nothing fails does not meet the step. -/
def Blind (failing : Step) {α : Type} (m : PortableScript γ α) : Prop :=
  ∀ w a w', w.state.rest = none → m.outcome w = (.ok a, w') →
    w'.state.rest = none ∧ m.outcome (withFailing failing w) = (.ok a, withFailing failing w')

variable {α β : Type} {m m' : PortableScript γ α} {f : α → PortableScript γ β}

theorem Blind.pure (a : α) : Blind failing (pure a : PortableScript γ α) := by
  intro w b w' hrest hout
  obtain ⟨hvalue, rfl⟩ := Prod.mk.inj hout
  obtain rfl := Except.ok.inj hvalue
  exact ⟨hrest, rfl⟩

theorem Blind.throw (refusal : Refusal) : Blind failing (throw refusal : PortableScript γ α) := by
  intro w b w' hrest hout
  cases (Prod.mk.inj hout).1

theorem Blind.bind (hm : Blind failing m) (hf : ∀ a, Blind failing (f a)) : Blind failing (m >>= f) := by
  intro w b w' hrest hout
  rw [Script.outcome_bind] at hout ⊢
  cases hfirst : m.outcome w with
  | mk result between =>
    rw [hfirst] at hout
    cases result with
    | error refusal => cases (Prod.mk.inj hout).1
    | ok a =>
      obtain ⟨hbetween, hsame⟩ := hm w a between hrest hfirst
      rw [hsame]
      exact hf a between b w' hbetween hout

theorem Blind.ite {c : Prop} [Decidable c] (hm : Blind failing m) (hm' : Blind failing m') :
    Blind failing (if c then m else m') := by
  split
  · exact hm
  · exact hm'

theorem Blind.ask {question : FileSystem (Content γ) → α} : Blind failing (ask question) := by
  intro w b w' hrest hout
  obtain ⟨hvalue, rfl⟩ := Prod.mk.inj hout
  obtain rfl := Except.ok.inj hvalue
  exact ⟨hrest, rfl⟩

theorem Blind.note (record : ManagedFile) : Blind (γ := γ) failing (note record) := by
  intro w b w' hrest hout
  obtain ⟨hvalue, rfl⟩ := Prod.mk.inj hout
  exact ⟨hrest, rfl⟩

theorem Blind.operation {failure : Refusal} {effect : State γ → Except Refusal (α × State γ)}
    (h : ∀ s a s', s.rest = none → effect s = .ok (a, s') → s'.rest = none ∧
      effect { s with rest := some failing } = .ok (a, { s' with rest := some failing })) :
    Blind failing (Script.operation failure id effect) := by
  intro w a w' hrest hout
  obtain ⟨s, n⟩ := w
  change Script.attempt failure id effect ⟨s, n⟩ = _ at hout
  change _ ∧ Script.attempt failure id effect ⟨{ s with rest := some failing }, n⟩ = _
  have hgoes : ∀ k, n.map Nat.pred = k → n ≠ some 0 →
      (∀ s : State γ, Script.attempt failure id effect ⟨s, n⟩ =
        match effect s with
        | .ok (a, s') => (.ok a, ⟨s', k⟩)
        | .error e => (.error e, ⟨s, n⟩)) := by
    rintro k rfl hnot s
    unfold Script.attempt
    cases n with
    | none => cases effect s <;> rfl
    | some n =>
      cases n with
      | zero => exact absurd rfl hnot
      | succ n => cases effect s <;> rfl
  by_cases hzero : n = some 0
  · subst hzero
    cases (Prod.mk.inj hout).1
  · rw [hgoes _ rfl hzero] at hout ⊢
    cases heffect : effect s with
    | error refusal =>
      simp only [heffect] at hout
      cases (Prod.mk.inj hout).1
    | ok done =>
      obtain ⟨b, s'⟩ := done
      simp only [heffect] at hout
      obtain ⟨hvalue, rfl⟩ := Prod.mk.inj hout
      obtain rfl := Except.ok.inj hvalue
      obtain ⟨hkept, hsame⟩ := h s b s' hrest heffect
      rw [hsame]
      exact ⟨hkept, rfl⟩

theorem Blind.check (condition : Bool) (refusal : Refusal) :
    Blind (γ := γ) failing (check condition refusal) := by
  apply Blind.operation
  intro s a s' hrest heffect
  cases condition with
  | false => cases heffect
  | true =>
    obtain ⟨rfl, rfl⟩ := Prod.mk.inj (Except.ok.inj heffect)
    exact ⟨hrest, rfl⟩

theorem Blind.step {label : Step} {path : Path} {torn : FileSystem (Content γ) → FileSystem (Content γ)}
    {effect : FileSystem (Content γ) → Option (α × FileSystem (Content γ))} (hne : failing ≠ label) :
    Blind failing (step label path torn effect) := by
  intro w a w' hrest hout
  have hother : w.state.rest ≠ some label := by
    rw [hrest]
    exact nofun
  have hother' : (withFailing failing w).state.rest ≠ some label := fun h => hne (Option.some.inj h)
  rw [outcome_step w hother] at hout
  rw [outcome_step _ hother']
  change _ ∧ (match effect w.state.files with | some (a, fs) => _ | none => _) = _
  cases heffect : effect w.state.files with
  | none =>
    rw [heffect] at hout
    cases (Prod.mk.inj hout).1
  | some done =>
    rw [heffect] at hout
    obtain ⟨hvalue, rfl⟩ := Prod.mk.inj hout
    obtain rfl := Except.ok.inj hvalue
    exact ⟨hrest, rfl⟩

theorem Blind.onError (hm : Blind failing m) (cleanup : PortableScript γ PUnit) :
    Blind failing (Script.onError m cleanup) := by
  intro w a w' hrest hout
  change Script.handle cleanup (m.outcome w) = _ at hout
  change _ ∧ Script.handle cleanup (m.outcome (withFailing failing w)) = _
  cases hfirst : m.outcome w with
  | mk result after =>
    rw [hfirst] at hout
    cases result with
    | error refusal =>
      simp only [Script.handle] at hout
      split at hout <;> cases (Prod.mk.inj hout).1
    | ok b =>
      obtain ⟨hvalue, rfl⟩ := Prod.mk.inj hout
      obtain rfl := Except.ok.inj hvalue
      obtain ⟨hkept, hsame⟩ := hm w b after hrest hfirst
      rw [hsame]
      exact ⟨hkept, rfl⟩

variable (hsaves : failing.saves = true)
include hsaves

theorem ne_of_saves {label : Step} (hlabel : label.saves = false) : failing ≠ label := by
  intro heq
  rw [heq, hlabel] at hsaves
  cases hsaves

theorem blind_installManagedFile (file : PackageFile) (destination : Path) :
    Blind failing (installManagedFile setup file destination) := by
  have hholds : ∀ hash, Blind failing (holdsAlready setup file destination hash) := by
    intro hash
    refine .bind Blind.ask fun leaf => Blind.ite ?_ (Blind.pure _)
    exact (Blind.step (ne_of_saves hsaves rfl)).bind fun _ => Blind.pure _
  have hpublish : ∀ temporary backup,
      Blind failing (publishFile setup file destination temporary backup) := by
    intro temporary backup
    have hside : Blind failing (setAside (γ := γ) file destination backup) := by
      cases backup with
      | none => exact Blind.pure _
      | some path =>
        unfold setAside
        exact Blind.step (ne_of_saves hsaves rfl)
    have hcopy : Blind failing (copyItem setup file temporary) := by
      unfold copyItem
      exact Blind.step (ne_of_saves hsaves rfl)
    exact hside.bind fun _ => hcopy.bind fun _ => Blind.step (ne_of_saves hsaves rfl)
  refine (Blind.check _ _).bind fun _ => (Blind.step (ne_of_saves hsaves rfl)).bind fun hash => ?_
  refine (hholds hash).bind fun same => Blind.ite (Blind.pure _) ?_
  exact .bind Blind.ask fun backup => ((hpublish _ backup).onError _).bind fun _ => Blind.pure _

theorem blind_installFile (file : PackageFile) (folder : List FileName) :
    Blind failing (installFile setup file folder) :=
  (blind_installManagedFile hsaves file _).bind fun record =>
    (Blind.note record).bind fun _ => Blind.pure _

theorem blind_installFiles : Blind failing (installFiles setup) := by
  have hsettle : ∀ result : Except Refusal (List FileName), Blind failing (settle (γ := γ) result) := by
    intro result
    cases result with
    | ok folder => exact Blind.pure _
    | error refusal => exact Blind.throw _
  have hread : Blind failing (readInstallState setup) := by
    refine .bind Blind.ask fun leaf => Blind.ite (.bind Blind.ask fun content => ?_) (Blind.pure _)
    split
    · exact Blind.pure _
    · exact Blind.throw _
  have hsimHub : ∀ record, Blind failing (installSimHub setup record) := by
    intro record
    cases record with
    | some record =>
      refine Blind.ite ?_ (Blind.pure _)
      exact (hsettle _).bind fun _ => (Blind.check _ _).bind fun _ => Blind.pure _
    | none =>
      refine Blind.ite (Blind.pure _) ?_
      exact (hsettle _).bind fun folder => (Blind.check _ _).bind fun _ =>
        (blind_installFile hsaves .simHub folder).bind fun _ =>
          (blind_installFile hsaves .core folder).bind fun _ => Blind.pure _
  refine hread.bind fun state => (Blind.check _ _).bind fun _ => ?_
  refine Blind.bind (Blind.onError ?_ _) fun result => Blind.pure _
  exact (hsimHub _).bind fun _ => (blind_installFile hsaves .proxy _).bind fun _ => Blind.pure _

end Blindness

section Atomicity
variable {fs : FileSystem (Content γ)} {failing : Step}

/-- No folder stands in the place of a file that is written, and nothing in the place of a copy. -/
structure Ordinary (setup : Setup γ) (fs : FileSystem (Content γ)) : Prop where
  plain : ∀ target ∈ targets setup fs, Plain setup fs target.destination
  state : fs.isFolder setup.statePath = false

theorem nodup_targets (setup : Setup γ) (fs : FileSystem (Content γ)) :
    ((targets setup fs).map Prod.fst).Nodup := by
  unfold targets simHubTargets
  split
  · split
    · simp
    · simp
  · simp

theorem Undoable.statePath {done : List Target} {s : State γ} (h : Undoable setup fs done s) :
    s.files.lookup setup.statePath = fs.lookup setup.statePath :=
  h.frame fun target _ => statePath_not_touched setup target

theorem isFolder_congr {fs fs' : FileSystem (Content γ)} {path : Path}
    (h : fs'.lookup path = fs.lookup path) : fs'.isFolder path = fs.isFolder path := by
  rw [FileSystem.isFolder, FileSystem.isFolder, FileSystem.testPath, FileSystem.testPath,
    FileSystem.testLeaf, FileSystem.testLeaf, FileSystem.read_congr h, h]

/-- Before the saving nothing stays of what a failing step has interrupted. -/
theorem ends_installFFBInterceptor (hordinary : Ordinary setup fs) (hsaves : failing.saves = false) :
    Script.Ends (installFFBInterceptor setup) ⟨fs, some failing, []⟩ (fun _ _ => True)
      (fun s' => s'.files = fs) := by
  apply (ends_installFiles rfl hordinary.plain).bind
  rintro state s' ⟨hrest, hdone, -⟩
  refine Script.Ends.weaken (ends_saveInstallState ?_ ?_) (fun _ _ _ => trivial) fun _ h => h
  · rw [isFolder_congr hdone.statePath]
    exact hordinary.state
  · intro label hlabel
    obtain rfl := Option.some.inj (hrest.symm.trans hlabel)
    exact hsaves

/-- Where the saving fails, what was installed stays. -/
theorem outcome_installFFBInterceptor (hordinary : Ordinary setup fs) (hsaves : failing.saves = true)
    (hpasses : ((installFFBInterceptor setup).outcome ⟨⟨fs, none, []⟩, none⟩).1 = .ok ⟨⟩) :
    ∃ records fs' refusal w, InstalledAll setup fs (targets setup fs) records fs' ∧
      (installFFBInterceptor setup).outcome ⟨⟨fs, some failing, []⟩, none⟩ = (.error refusal, w) ∧
      w.state.files = torn setup failing fs' := by
  rw [installFFBInterceptor, Script.outcome_bind] at hpasses
  cases hfirst : (installFiles setup).outcome ⟨⟨fs, none, []⟩, none⟩ with
  | mk result between =>
    rw [hfirst] at hpasses
    cases result with
    | error refusal => cases hpasses
    | ok state =>
      obtain ⟨-, hsame⟩ := blind_installFiles hsaves ⟨⟨fs, none, []⟩, none⟩ state between rfl hfirst
      have hends := ends_installFiles (s := ⟨fs, some failing, []⟩) rfl hordinary.plain none
      change Script.Meets _ _
        ((installFiles setup).outcome (withFailing failing ⟨⟨fs, none, []⟩, none⟩)) at hends
      rw [hsame] at hends
      obtain ⟨hrest, hundoable, -⟩ := hends
      have hfolder : (withFailing failing between).state.files.isFolder setup.statePath = false := by
        rw [isFolder_congr hundoable.statePath]
        exact hordinary.state
      obtain ⟨refusal, hfails⟩ := saveInstallState_fails state hsaves hrest hfolder
        (withFailing failing between).countdown
      have hout : (installFFBInterceptor setup).outcome (withFailing failing ⟨⟨fs, none, []⟩, none⟩) =
          (saveInstallState setup state).outcome (withFailing failing between) := by
        rw [installFFBInterceptor, Script.outcome_bind, hsame]
      exact ⟨_, _, refusal, _, hundoable, hout.trans hfails, rfl⟩

/-- A run in which one step fails, and only that step, leaves the files as they were, unless the step is
one of the saving of the record: then only if nothing had to be installed and the record is as it was. -/
theorem portable_restored_iff (setup : Setup γ) (hordinary : Ordinary setup fs)
    (hpasses : ((installFFBInterceptor setup).outcome ⟨⟨fs, none, []⟩, none⟩).1 = .ok ⟨⟩)
    (failing : Step)
    {refusal : Refusal} {w : World (State γ)}
    (hfails : (installFFBInterceptor setup).outcome ⟨⟨fs, some failing, []⟩, none⟩ =
      (.error refusal, w)) :
    w.state.files = fs ↔ (failing.saves = true →
      (∀ target ∈ targets setup fs, AlreadyThere setup fs target) ∧
        (failing = .write → setup.tear setup.statePath fs = fs)) := by
  cases hsaves : failing.saves with
  | false =>
    have hends := ends_installFFBInterceptor hordinary hsaves none
    rw [hfails] at hends
    exact ⟨fun _ h => (Bool.false_ne_true h).elim, fun _ => hends⟩
  | true =>
    obtain ⟨records, fs', refusal', w', hall, hout, hfiles⟩ :=
      outcome_installFFBInterceptor hordinary hsaves hpasses
    obtain ⟨-, rfl⟩ := Prod.mk.inj (hfails.symm.trans hout)
    rw [hfiles]
    constructor
    · intro hrestored _
      have hthere : ∀ target ∈ targets setup fs, AlreadyThere setup fs target := by
        intro target hmem
        by_contra hnot
        obtain ⟨path, htouched, hfree, hnew⟩ := hall.news (nodup_targets setup fs) hmem hnot
        have hpath : path ≠ setup.statePath := fun heq =>
          statePath_not_touched setup target (heq ▸ htouched)
        have hkept : (torn setup failing fs').lookup path = fs'.lookup path := by
          unfold torn
          split
          · exact (setup.toHost.littered_tear setup.statePath fs').other hpath
          · rfl
        rw [← hkept, hrestored] at hnew
        exact hnew hfree
      refine ⟨hthere, ?_⟩
      rintro rfl
      rw [hall.unchanged (nodup_targets setup fs) hthere] at hrestored
      exact hrestored
    · intro hcondition
      obtain ⟨hthere, hwrite⟩ := hcondition rfl
      rw [hall.unchanged (nodup_targets setup fs) hthere]
      unfold torn
      split
      · next hlabel => exact hwrite hlabel
      · rfl

end Atomicity

section Samples

def sampleDigest : Content Nat → Digest
  | .bytes n => fun _ => Fin.ofNat 256 n
  | .state _ => fun _ => 0

def sampleSetup : Setup Nat where
  digest := sampleDigest
  torn := none
  package := [⟨⟨["bundle".toList, "simhub".toList], PackageFile.simHub.name⟩, .file (.bytes 1)⟩,
    ⟨⟨["bundle".toList, "simhub".toList], PackageFile.core.name⟩, .file (.bytes 2)⟩,
    ⟨⟨["bundle".toList, "runtime".toList, "x64".toList], PackageFile.proxy.name⟩,
      .file (.bytes 3)⟩].toFinmap
  bundleRoot := ["bundle".toList]
  gamePath := ⟨["Game".toList], "game.exe".toList⟩
  architecture := .x64
  stateDirectory := ["AppData".toList, "FFBInterceptor".toList]
  skipSimHub := true
  simHubInstallPath := none
  resolvedSimHub := .ok ["SimHub".toList]
  simHubRunning := false
  processId := "4711".toList
  now := "2024-01-01"

def sampleFiles : FileSystem (Content Nat) :=
  [⟨⟨["Game".toList], "game.exe".toList⟩, .file (.bytes 8)⟩].toFinmap

def sampleRun (failing : Option Step) : Except Refusal PUnit × World (State Nat) :=
  (installFFBInterceptor sampleSetup).outcome ⟨⟨sampleFiles, failing, []⟩, none⟩

theorem sample_ordinary : Ordinary sampleSetup sampleFiles where
  plain := by
    intro target hmem
    obtain rfl := List.mem_singleton.mp hmem
    exact ⟨by decide +kernel, by decide +kernel⟩
  state := by decide +kernel

theorem failed_copy_restored : (sampleRun (some (.copy .proxy))).2.state.files = sampleFiles := by
  have hfails : sampleRun (some (.copy .proxy)) =
      (.error (.io (sampleSetup.source .proxy)), (sampleRun (some (.copy .proxy))).2) :=
    Prod.ext (by decide +kernel) rfl
  exact (portable_restored_iff sampleSetup sample_ordinary (by decide +kernel) (.copy .proxy)
    hfails).mpr nofun

/-- The record could not be written: the proxy of the package stands beside the game, and no record says
so. -/
theorem unsaved_install_stays :
    (sampleRun none).1 = .ok ⟨⟩ ∧
      (sampleRun (some .write)).1 = .error (.io sampleSetup.statePath) ∧
      (sampleRun (some .write)).2.state.files ≠ sampleFiles ∧
      (sampleRun (some .write)).2.state.files.lookup ⟨["Game".toList], PackageFile.proxy.name⟩ =
        some (.file (.bytes 3)) ∧
      (sampleRun (some .write)).2.state.files.lookup sampleSetup.statePath = none := by
  obtain ⟨hinstalled, hrefused, hproxy, hrecord, hbefore⟩ : (sampleRun none).1 = .ok ⟨⟩ ∧
      (sampleRun (some .write)).1 = .error (.io sampleSetup.statePath) ∧
      (sampleRun (some .write)).2.state.files.lookup ⟨["Game".toList], PackageFile.proxy.name⟩ =
        some (.file (.bytes 3)) ∧
      (sampleRun (some .write)).2.state.files.lookup sampleSetup.statePath = none ∧
      sampleFiles.lookup ⟨["Game".toList], PackageFile.proxy.name⟩ ≠ some (.file (.bytes 3)) := by
    decide +kernel
  refine ⟨hinstalled, hrefused, ?_, hproxy, hrecord⟩
  intro hsame
  rw [hsame] at hproxy
  exact hbefore hproxy

end Samples
end FfbInterceptor.Installer.Portable
