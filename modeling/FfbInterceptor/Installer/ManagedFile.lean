import FfbInterceptor.Installer.Installation

/-! One file installed: what has been done when it is, nothing when it fails, and its way back. -/
namespace FfbInterceptor.Installer
open FfbInterceptor.Library

variable {γ ρ : Type} {setup : Setup γ} {package : Package γ}

section Names

theorem Path.append_ne_self (path : Path) {suffix : FileName} (h : suffix ≠ []) :
    path.append suffix ≠ path := by
  intro heq
  have hname : path.name ++ suffix = path.name ++ [] := by
    rw [List.append_nil]
    exact congrArg Path.name heq
  exact h (List.append_cancel_left hname)

theorem backupCandidate_eq_append (destination : Path) (n : Nat) :
    ∃ rest, backupCandidate destination n = destination.append (backupSuffix ++ rest) := by
  cases n with
  | zero => exact ⟨[], by rw [List.append_nil, backupCandidate]⟩
  | succ n => exact ⟨_, rfl⟩

theorem append_new_ne_backupCandidate (destination : Path) (tag : FileName) (n : Nat) :
    destination.append (".ffb-interceptor-new-".toList ++ tag) ≠ backupCandidate destination n := by
  obtain ⟨rest, hrest⟩ := backupCandidate_eq_append destination n
  rw [hrest]
  intro h
  have hchar := congrArg (fun name => name[17]?) (Path.append_inj h)
  change some 'n' = some 'b' at hchar
  cases hchar

theorem temporaryFile_ne_backupCandidate (destination : Path) (n : Nat) :
    temporaryFile package destination ≠ backupCandidate destination n :=
  append_new_ne_backupCandidate destination _ n

theorem temporaryFile_ne (destination : Path) : temporaryFile package destination ≠ destination :=
  destination.append_ne_self (List.cons_ne_nil _ _)

theorem backupCandidate_ne (destination : Path) (n : Nat) :
    backupCandidate destination n ≠ destination := by
  obtain ⟨rest, hrest⟩ := backupCandidate_eq_append destination n
  rw [hrest]
  exact destination.append_ne_self (List.cons_ne_nil _ _)

theorem append_managed_ne {name name' : FileName} (hname : name ∈ managedNames)
    (hname' : name' ∈ managedNames) (hne : name ≠ name') (suffix suffix' : FileName) :
    name ++ suffix ≠ name' ++ suffix' := by
  intro h
  have hchar := congrArg (fun text => text[15]?) h
  simp only [managedNames, List.mem_cons, List.not_mem_nil, or_false] at hname hname'
  rcases hname with rfl | rfl
  · rcases hname' with rfl | rfl
    · exact hne rfl
    · change some 'S' = some 'C' at hchar
      cases hchar
  · rcases hname' with rfl | rfl
    · change some 'C' = some 'S' at hchar
      cases hchar
    · exact hne rfl

/-- The paths an installation of `destination` may change for good. -/
def Touched (destination path : Path) : Prop :=
  path = destination ∨ ∃ n, path = backupCandidate destination n

theorem Touched.append {destination path : Path} (h : Touched destination path) :
    ∃ suffix, path = destination.append suffix := by
  rcases h with rfl | ⟨n, rfl⟩
  · exact ⟨[], by simp only [Path.append, List.append_nil]⟩
  · obtain ⟨rest, hrest⟩ := backupCandidate_eq_append destination n
    exact ⟨_, hrest⟩

theorem not_touched_append (folder : List FileName) {name name' : FileName}
    (hname : name ∈ managedNames) (hname' : name' ∈ managedNames) (hne : name ≠ name')
    (suffix : FileName) : ¬Touched ⟨folder, name'⟩ (Path.append ⟨folder, name⟩ suffix) := by
  intro h
  obtain ⟨suffix', hsuffix'⟩ := h.append
  exact append_managed_ne hname hname' hne _ _ (congrArg Path.name hsuffix')

end Names

section File

/-- What putting content at a destination does to the files, and what is noted of it: the backup, its hash
and whether there was a change. `holds` says which content is there before. -/
inductive Deposited {β : Type} (host : Host β) (holds : FileSystem β → Path → β → Prop)
    (noted : Option Path → List Char → Bool → ρ) (content : β) (destination : Path)
    (fs : FileSystem β) : ρ → FileSystem β → Prop
  | same {old : β} : holds fs destination old → host.sha256 old = host.sha256 content →
      Deposited host holds noted content destination fs (noted none [] false) fs
  | added : fs.lookup destination = none →
      Deposited host holds noted content destination fs (noted none [] true)
        (fs.insert destination (.file content))
  | replaced {old : β} {fs₁ : FileSystem β} :
      holds fs destination old → host.sha256 old ≠ host.sha256 content →
      fs.move destination (getBackupPath fs destination) = some fs₁ →
      Deposited host holds noted content destination fs
        (noted (some (getBackupPath fs destination)) (host.sha256 old) true)
        (fs₁.insert destination (.file content))

theorem Deposited.frame {β : Type} {host : Host β} {holds : FileSystem β → Path → β → Prop}
    {noted : Option Path → List Char → Bool → ρ} {content : β} {destination path : Path}
    {fs fs' : FileSystem β} {record : ρ}
    (h : Deposited host holds noted content destination fs record fs') (hpath : ¬Touched destination path) :
    fs'.lookup path = fs.lookup path := by
  have hne : path ≠ destination := fun heq => hpath (.inl heq)
  have hbackup : path ≠ getBackupPath fs destination := fun heq => hpath (.inr ⟨_, heq⟩)
  cases h with
  | same _ _ => rfl
  | added _ => exact Finmap.lookup_insert_of_ne _ hne
  | replaced _ _ hmove =>
    obtain ⟨entry, -, -, -, rfl⟩ := FileSystem.move_eq_some hmove
    rw [Finmap.lookup_insert_of_ne _ hne, FileSystem.lookup_insert_erase, if_neg hbackup,
      if_neg hne]

abbrev Installed (setup : Setup γ) (content : Content γ) (destination : Path)
    (fs : FileSystem (Content γ)) : ManagedFile → FileSystem (Content γ) → Prop :=
  Deposited setup.toHost (fun fs path old => fs.lookup path = some (.file old))
    (fun backup backupSha256 changed =>
      ⟨destination, backup, backupSha256, setup.sha256 content, changed⟩) content destination fs

variable {s : Session (Content γ) StateDirectory ρ} {source destination : Path}
  {E : Session (Content γ) StateDirectory ρ → Prop}

theorem file_of_regular {fs : FileSystem (Content γ)} (h : fs.isIrregular destination = false) :
    fs.lookup destination = none ∨ ∃ old, fs.lookup destination = some (.file old) := by
  unfold FileSystem.isIrregular at h
  cases hlookup : fs.lookup destination with
  | none => exact .inl rfl
  | some entry =>
    rw [hlookup] at h
    cases entry with
    | file old => exact .inr ⟨old, rfl⟩
    | link _ => cases h
    | directory => cases h

theorem ends_sourceSha256 {Q : List Char → Session (Content γ) StateDirectory ρ → Prop} (hE : E s)
    (hQ : ∀ content, package.files.read source = some content → Q (setup.sha256 content) s) :
    Script.Ends (sourceSha256 setup package source) s Q E := by
  apply Script.Ends.ite
  · intro _
    exact Script.Ends.throw _ hE
  · intro _
    apply Script.Ends.bind (Q := fun hash s' => s' = s ∧
      ∃ content, package.files.read source = some content ∧ hash = setup.sha256 content)
    · unfold getPackageSha256
      apply Script.Ends.operation hE
      · intro hash s' h
        split at h
        · next content hread =>
          cases h
          exact ⟨rfl, content, hread, rfl⟩
        · cases h
      · intro _ _
        exact hE
    · rintro _ _ ⟨rfl, content, hread, rfl⟩
      apply Script.Ends.ite
      · intro _
        exact Script.Ends.throw _ hE
      · intro _
        exact Script.Ends.pure _ (hQ content hread)

theorem ends_chooseBackup
    {Q : Option Path × List Char → Session (Content γ) StateDirectory ρ → Prop} (hE : E s)
    (hnone : s.files.read destination = none → Q (none, []) s)
    (hsome : ∀ old, s.files.read destination = some old →
      Q (some (getBackupPath s.files destination), setup.sha256 old) s) :
    Script.Ends (chooseBackup setup destination) s Q E := by
  apply ends_ask
  apply Script.Ends.ite
  · intro _
    apply (reads_refuseIf _ _).ends_bind hE
    intro _
    apply Script.Ends.bind (Q := fun hash s' => s' = s ∧
      ∃ old, s.files.read destination = some old ∧ hash = setup.sha256 old)
    · exact ends_getFileSha256 hE fun old hread => ⟨rfl, old, hread, rfl⟩
    · rintro _ _ ⟨rfl, old, hread, rfl⟩
      exact ends_ask (Script.Ends.pure _ (hsome old hread))
  · intro habsent
    exact Script.Ends.pure _
      (hnone (FileSystem.testLeaf_eq_false.mp (Bool.eq_false_iff.mpr habsent)))

variable {temporary backup : Path} {content : Content γ} {fs₁ : FileSystem (Content γ)}

theorem ends_copyIn (hread : package.files.read source = some content)
    (hfresh : s.files.lookup temporary = none) (hne : destination ≠ temporary) :
    Script.Ends (do copyFile setup package source temporary; moveFile temporary destination) s
      (fun _ s' => s.files.lookup destination = none ∧
        s' = { s with files := s.files.insert destination (.file content) })
      (Strewn temporary s) := by
  apply Script.Ends.bind (Q := fun _ s' =>
    s' = { s with files := s.files.insert temporary (.file content) })
  · rw [copyFile, hread]
    apply ends_createFile ⟨_, .inl rfl, rfl⟩
    · intro _
      exact ⟨_, setup.toHost.littered_tear temporary s.files, rfl⟩
    · intro _
      rfl
  rintro _ _ rfl
  apply ends_moveFile ⟨_, FileSystem.littered_insert _ _ content, rfl⟩
  intro fs hmove
  obtain ⟨habsent, rfl⟩ := FileSystem.move_inserted hfresh hne hmove
  exact ⟨habsent, rfl⟩

/-- What a publication that stops has done: nothing, or the old file is set aside and a copy lies
about. -/
def HalfPublished (destination temporary backup : Path)
    (s s' : Session (Content γ) StateDirectory ρ) : Prop :=
  s' = s ∨ ∃ fs₁, s.files.move destination backup = some fs₁ ∧
    Strewn temporary { s with files := fs₁ } s'

theorem ends_publishFile_replacing (hread : package.files.read source = some content)
    (hfresh : s.files.lookup temporary = none) (hne : destination ≠ temporary)
    (hbackup : backup ≠ temporary) :
    Script.Ends (publishFile setup package source destination temporary (some backup)) s
      (fun _ s' => ∃ fs₁, s.files.move destination backup = some fs₁ ∧
        s' = { s with files := fs₁.insert destination (.file content) })
      (HalfPublished destination temporary backup s) := by
  apply Script.Ends.bind (Q := fun _ s' => ∃ fs₁,
    s.files.move destination backup = some fs₁ ∧ s' = { s with files := fs₁ })
  · exact ends_moveFile (.inl rfl) fun fs₁ hmove => ⟨fs₁, hmove, rfl⟩
  rintro _ _ ⟨fs₁, hmove, rfl⟩
  have hfresh₁ : fs₁.lookup temporary = none := by
    obtain ⟨entry, -, -, -, rfl⟩ := FileSystem.move_eq_some hmove
    rw [FileSystem.lookup_insert_erase, if_neg hbackup.symm, if_neg hne.symm, hfresh]
  exact (ends_copyIn hread hfresh₁ hne).weaken (fun _ s' h => ⟨fs₁, hmove, h.2⟩)
    fun s' h => .inr ⟨fs₁, hmove, h⟩

theorem calmly_undo_strewn {s' : Session (Content γ) StateDirectory ρ}
    (hfresh : s.files.lookup temporary = none) (h : Strewn temporary s s') :
    Script.Calmly (deleteIfLeaf temporary) s' (.ok ⟨⟩) s := by
  obtain ⟨fs, hlittered, rfl⟩ := h
  exact calmly_deleteIfLeaf hfresh hlittered

theorem calmly_undo_halfPublished {s' : Session (Content γ) StateDirectory ρ}
    (hfresh : s.files.lookup temporary = none) (hne : destination ≠ temporary)
    (hbackup : backup ≠ temporary) (hthere : s.files.testPath destination = true)
    (h : HalfPublished destination temporary backup s s') :
    Script.Calmly (undoFile destination temporary (some backup)) s' (.ok ⟨⟩) s := by
  rcases h with rfl | ⟨fs₁, hmove, hstrewn⟩
  · apply (calmly_deleteIfLeaf hfresh (.inl rfl)).bind
    apply calmly_ask
    rw [hthere]
    exact Script.Calmly.pure _ _
  · have hfresh₁ : fs₁.lookup temporary = none := by
      obtain ⟨entry, -, -, -, rfl⟩ := FileSystem.move_eq_some hmove
      rw [FileSystem.lookup_insert_erase, if_neg hbackup.symm, if_neg hne.symm, hfresh]
    exact (calmly_undo_strewn hfresh₁ hstrewn).bind (calmly_takeBack hmove)

theorem calmly_undo_added {s' : Session (Content γ) StateDirectory ρ}
    (hfresh : s.files.lookup temporary = none) (h : Strewn temporary s s') :
    Script.Calmly (undoFile destination temporary none) s' (.ok ⟨⟩) s :=
  (calmly_undo_strewn hfresh h).bind (Script.Calmly.pure _ s)

/-- Nothing is to be undone while the backup is still being chosen. -/
theorem ends_chooseBackup_guarded (chosen : Option Path × List Char)
    (hfresh : s.files.lookup temporary = none)
    (hnone : s.files.read destination = none → chosen = (none, []))
    (hsome : ∀ old, s.files.read destination = some old →
      chosen = (some (getBackupPath s.files destination), setup.sha256 old)) :
    Script.Ends
      (Script.onError (chooseBackup setup destination) (undoFile destination temporary none)) s
      (fun c s' => s = s' ∧ c = chosen) (fun s' => s' = s) := by
  apply Script.Ends.onError (F := fun s' => s' = s)
  · apply ends_chooseBackup
    · rfl
    · exact fun h => ⟨rfl, (hnone h).symm⟩
    · exact fun old h => ⟨rfl, (hsome old h).symm⟩
  · rintro _ rfl
    exact ⟨_, calmly_undo_added hfresh ⟨_, .inl rfl, rfl⟩, rfl⟩

/-- One file is installed or nothing has happened. -/
theorem ends_installManagedFile
    (hfresh : s.files.lookup (temporaryFile package destination) = none) :
    Script.Ends (installManagedFile setup package source destination) s
      (fun record s' => ∃ content fs', package.files.read source = some content ∧
        Installed setup content destination s.files record fs' ∧ s' = { s with files := fs' })
      (fun s' => s' = s) := by
  have hne : destination ≠ temporaryFile package destination := (temporaryFile_ne _).symm
  apply Script.Ends.bind (Q := fun hash s' => s = s' ∧
    ∃ content, package.files.read source = some content ∧ hash = setup.sha256 content)
  · exact ends_sourceSha256 rfl fun content hread => ⟨rfl, content, hread, rfl⟩
  rintro _ _ ⟨rfl, content, hread, rfl⟩
  apply Script.Ends.bind (Q := fun _ s' => s = s' ∧ s.files.isIrregular destination = false)
  · exact ends_refuseIf rfl fun hregular => ⟨rfl, hregular⟩
  rintro _ _ ⟨rfl, hregular⟩
  apply Script.Ends.bind (Q := fun same s' => s = s' ∧
    (same = true → ∃ old, s.files.read destination = some old ∧
      setup.sha256 old = setup.sha256 content) ∧
    (same = false → ∀ old, s.files.read destination = some old →
      setup.sha256 old ≠ setup.sha256 content))
  · exact ends_holdsSha256 (ends_getFileSha256 rfl fun old hread => ⟨rfl, old, hread, rfl⟩)
      fun same hsame hother => ⟨rfl, hsame, hother⟩
  rintro same _ ⟨rfl, hsame, hother⟩
  rcases file_of_regular hregular with habsent | ⟨old, hold⟩
  · -- nothing to set aside
    have hread' := FileSystem.read_of_absent habsent
    cases same with
    | true =>
      obtain ⟨old, hold, -⟩ := hsame rfl
      rw [hread'] at hold
      cases hold
    | false =>
      refine Script.Ends.bind (ends_chooseBackup_guarded (none, []) hfresh (fun _ => rfl) ?_) ?_
      · intro old hold
        rw [hread'] at hold
        cases hold
      rintro _ _ ⟨rfl, rfl⟩
      apply Script.Ends.bind (Q := fun _ s' =>
        s' = { s with files := s.files.insert destination (.file content) })
      · apply Script.Ends.onError ((ends_copyIn hread hfresh hne).weaken
          (fun _ _ h => h.2) fun _ h => h)
        intro s' hstrewn
        exact ⟨s, calmly_undo_added hfresh hstrewn, rfl⟩
      rintro _ _ rfl
      exact Script.Ends.pure _ ⟨content, _, hread, .added habsent, rfl⟩
  · have hread' := FileSystem.read_of_file hold
    cases same with
    | true =>
      obtain ⟨old', hold', hhash⟩ := hsame rfl
      rw [hread'] at hold'
      cases hold'
      exact Script.Ends.pure _ ⟨content, _, hread, .same hold hhash, rfl⟩
    | false =>
      have hhash := hother rfl old hread'
      have hbackup : getBackupPath s.files destination ≠ temporaryFile package destination :=
        (temporaryFile_ne_backupCandidate destination _).symm
      refine Script.Ends.bind (ends_chooseBackup_guarded
        (some (getBackupPath s.files destination), setup.sha256 old) hfresh ?_ ?_) ?_
      · intro hnone
        rw [hread'] at hnone
        cases hnone
      · intro old' hold'
        rw [hread'] at hold'
        cases hold'
        rfl
      rintro _ _ ⟨rfl, rfl⟩
      apply Script.Ends.bind (Q := fun _ s' => ∃ fs₁,
        s.files.move destination (getBackupPath s.files destination) = some fs₁ ∧
        s' = { s with files := fs₁.insert destination (.file content) })
      · apply Script.Ends.onError (ends_publishFile_replacing hread hfresh hne hbackup)
        intro s' hhalf
        exact ⟨s, calmly_undo_halfPublished hfresh hne hbackup
          (FileSystem.testPath_of_lookup hold) hhalf, rfl⟩
      rintro _ _ ⟨fs₁, hmove, rfl⟩
      exact Script.Ends.pure _ ⟨content, _, hread, .replaced hold hhash hmove, rfl⟩

end File

section Restoring
variable {content : Content γ} {destination : Path} {fs fs' : FileSystem (Content γ)}
  {record : ManagedFile}

theorem Installed.restore (h : Installed setup content destination fs record fs')
    (rest : StateDirectory) (journal : List ρ) :
    Script.Calmly (restoreManagedFile setup record) ⟨fs', rest, journal⟩ (.ok ⟨⟩)
      ⟨fs, rest, journal⟩ := by
  cases h with
  | same _ _ => exact Script.Calmly.pure _ _
  | added habsent => exact (calmly_removeUnchanged habsent).bind (Script.Calmly.pure _ _)
  | @replaced old fs₁ hold hne hmove =>
    have hback := FileSystem.move_back hmove
    obtain ⟨entry, hentry, -, -, hfs₁⟩ := FileSystem.move_eq_some hmove
    rw [hold] at hentry
    cases hentry
    obtain ⟨entry, hentry, -, habsent, -⟩ := FileSystem.move_eq_some hback
    have hbackup : fs₁.lookup (getBackupPath fs destination) = some (.file old) := by
      rw [hfs₁, Finmap.lookup_insert]
    apply (calmly_removeUnchanged habsent).bind
    apply calmly_ask
    rw [FileSystem.testPath_of_lookup hbackup, FileSystem.testPath_eq_false.mpr habsent]
    apply (calmly_getFileSha256 (s := ⟨fs₁, rest, journal⟩) (FileSystem.read_of_file hbackup)).bind
    rw [if_neg (not_not_intro rfl)]
    exact calmly_moveFile (s := ⟨fs₁, rest, journal⟩) hback

abbrev InstalledAll (setup : Setup γ) (package : Package γ) (simHubPath : List FileName)
    (fs : FileSystem (Content γ)) (names : List FileName) (fs' : FileSystem (Content γ))
    (records : List ManagedFile) : Prop :=
  Script.Series (fun name fs₁ record fs₂ => ∃ content,
    package.files.read (package.source name) = some content ∧
      Installed setup content ⟨simHubPath, name⟩ fs₁ record fs₂) fs names records fs'

variable {simHubPath : List FileName} {names : List FileName} {records : List ManagedFile}

theorem InstalledAll.restore (h : InstalledAll setup package simHubPath fs names fs' records)
    (rest : StateDirectory) (journal : List ρ) :
    Script.Calmly (records.reverse.forM (restoreManagedFile setup)) ⟨fs', rest, journal⟩ (.ok ⟨⟩)
      ⟨fs, rest, journal⟩ := by
  apply Script.Series.undo (f := fun fs => (⟨fs, rest, journal⟩ : Session _ _ _)) h
  rintro name fs₁ record fs₂ ⟨content, -, hinstalled⟩
  exact hinstalled.restore rest journal

theorem InstalledAll.frame (h : InstalledAll setup package simHubPath fs names fs' records)
    {path : Path} (hpath : ∀ name ∈ names, ¬Touched ⟨simHubPath, name⟩ path) :
    fs'.lookup path = fs.lookup path := by
  apply Script.Series.frame (g := fun fs => Finmap.lookup path fs) h
  rintro name hname fs₁ record fs₂ ⟨content, -, hinstalled⟩
  exact hinstalled.frame (hpath name hname)

end Restoring

end FfbInterceptor.Installer
