import FfbInterceptor.Installer.Files

/-! Publishing a validated archive: the rename into place, and what an error takes back. -/
namespace FfbInterceptor.Release
open FfbInterceptor.Library FfbInterceptor.Installer

variable {γ ρ : Type}

section Replace

/-- `[IO.File]::Replace`: the replaced file stays as the backup. -/
def replace (fs : FileSystem γ) (source destination backup : Path) : Option (FileSystem γ) :=
  if fs.testLeaf source && fs.testLeaf destination && !fs.isFolder backup then
    match fs.lookup source, fs.lookup destination with
    | some new, some old => some (((fs.erase source).insert backup old).insert destination new)
    | _, _ => none
  else none

def replaceFile (source destination backup : Path) : FileScript γ Bool ρ PUnit :=
  fileOperation source id fun fs => replace fs source destination backup

end Replace

structure Publication where
  partialPath : Path
  destination : Path
  expectedSha256 : List Char
  guid : FileName
  rejectedGuid : FileName

namespace Publication

variable (p : Publication)

def previous : Path := p.destination.append ('.' :: (p.guid ++ ".previous".toList))

def rejected : Path := p.destination.append ('.' :: (p.rejectedGuid ++ ".rejected".toList))

/-- `^[A-F0-9]{64}$`, which lets one line feed through at the end. -/
def expectsSha256 : Bool :=
  isSha256 p.expectedSha256 ||
    (p.expectedSha256.getLast? = some '\n' && isSha256 p.expectedSha256.dropLast)

end Publication

section Script

variable (host : Host γ) (p : Publication)

def getLockedFileSha256 (path : Path) : FileScript γ Bool ρ (List Char) := getFileSha256 host path

def renameIntoPlace (replacedExisting : Bool) : FileScript γ Bool ρ PUnit :=
  if replacedExisting then replaceFile p.partialPath p.destination p.previous
  else moveFile p.partialPath p.destination

def publishRenaming (replacedExisting : Bool) : FileScript γ Bool ρ (List Char) := do
  renameIntoPlace p replacedExisting
  Script.amend fun s => { s with rest := true }
  let publishedHash ← getLockedFileSha256 host p.destination
  if publishedHash ≠ p.expectedSha256 then
    refuse (.thrown "Published archive does not match the validated bytes.")
  else
    deleteIfLeaf p.previous
    pure publishedHash

def restorePrevious : FileScript γ Bool ρ PUnit := do
  if ← ask fun fs => fs.testLeaf p.destination then
    replaceFile p.previous p.destination p.rejected
    deleteFile p.rejected
  else moveFile p.previous p.destination

/-- The body of the `catch`, without the error it throws again. -/
def rollBack (replacedExisting : Bool) : FileScript γ Bool ρ PUnit := do
  let publishRenamed ← Script.look fun s => s.rest
  let hasPrevious ← ask fun fs => fs.testLeaf p.previous
  let hasDestination ← ask fun fs => fs.testLeaf p.destination
  let failed : Refusal := .thrownAt
    "Archive publish failed and rollback also failed; recovery copy, if any, is at " p.previous
  if publishRenamed && replacedExisting && hasPrevious then
    ExceptT.adapt (fun _ => failed) (restorePrevious p)
  else if publishRenamed && !replacedExisting && hasDestination then
    ExceptT.adapt (fun _ => failed) (deleteFile p.destination)
  else pure ⟨⟩

def publishValidatedArchive : FileScript γ Bool ρ (List Char) := do
  refuseIf (fun _ => !p.expectsSha256) (.thrown "Expected archive SHA-256 is invalid.")
  refuseIf (fun fs => !fs.testLeaf p.partialPath)
    (.thrownAt "Validated partial archive is missing: " p.partialPath)
  refuseIf (fun _ => p.partialPath.folder ≠ p.destination.folder)
    (.thrown "Validated archive publish must stay on one directory and volume.")
  refuseIf (fun _ => p.partialPath = p.destination)
    (.thrown "Partial and published archive paths must differ.")
  let replacedExisting ← ask fun fs => fs.testLeaf p.destination
  Script.always
    (Script.onError (publishRenaming host p replacedExisting) (rollBack p replacedExisting))
    (deleteIfLeaf p.partialPath)

end Script

section Files

variable {fs : FileSystem γ} {p : Publication} {content old : γ}

/-- The arguments pass the checks, and the drawn names are not taken. -/
structure Publishable (p : Publication) (fs : FileSystem γ) (content : γ) : Prop where
  expects : p.expectsSha256 = true
  present : fs.lookup p.partialPath = some (.file content)
  sameFolder : p.partialPath.folder = p.destination.folder
  differ : p.partialPath ≠ p.destination
  previousFree : fs.lookup p.previous = none
  rejectedFree : fs.lookup p.rejected = none

theorem append_ne (path : Path) {suffix : FileName} (h : suffix ≠ []) : path.append suffix ≠ path := by
  intro heq
  have hname : path.name ++ suffix = path.name := congrArg Path.name heq
  exact h (List.append_right_eq_self.mp hname)

theorem previous_ne_destination (p : Publication) : p.previous ≠ p.destination := append_ne _ (by simp)

theorem rejected_ne_destination (p : Publication) : p.rejected ≠ p.destination := append_ne _ (by simp)

theorem previous_ne_rejected (p : Publication) : p.previous ≠ p.rejected := by
  intro heq
  have hlast := congrArg (fun path : Path => path.name.reverse.head?) heq
  simp [Publication.previous, Publication.rejected, Path.append] at hlast

def withdrawn (fs : FileSystem γ) (p : Publication) : FileSystem γ := fs.erase p.partialPath

def published (fs : FileSystem γ) (p : Publication) (content : γ) : FileSystem γ :=
  (fs.erase p.partialPath).insert p.destination (.file content)

/-- .. and with the replaced archive beside it. -/
def replaced (fs : FileSystem γ) (p : Publication) (content old : γ) : FileSystem γ :=
  ((fs.erase p.partialPath).insert p.previous (.file old)).insert p.destination (.file content)

theorem Publishable.previous_ne_partialPath (h : Publishable p fs content) :
    p.previous ≠ p.partialPath := by
  intro heq
  have hfree := h.previousFree
  rw [heq, h.present] at hfree
  cases hfree

theorem Publishable.rejected_ne_partialPath (h : Publishable p fs content) :
    p.rejected ≠ p.partialPath := by
  intro heq
  have hfree := h.rejectedFree
  rw [heq, h.present] at hfree
  cases hfree

theorem replace_of_file {source destination backup : Path} {new : γ}
    (hnew : fs.lookup source = some (.file new)) (hold : fs.lookup destination = some (.file old))
    (hbackup : fs.lookup backup = none) : replace fs source destination backup =
      some (((fs.erase source).insert backup (.file old)).insert destination (.file new)) := by
  rw [replace, FileSystem.testLeaf_of_file hnew, FileSystem.testLeaf_of_file hold,
    isFolder_of_absent hbackup, hnew, hold]
  rfl

theorem replace_published (h : Publishable p fs content)
    (hold : fs.lookup p.destination = some (.file old)) :
    replace fs p.partialPath p.destination p.previous = some (replaced fs p content old) :=
  replace_of_file h.present hold h.previousFree

theorem move_published (h : Publishable p fs content) (habsent : fs.lookup p.destination = none) :
    fs.move p.partialPath p.destination = some (published fs p content) :=
  FileSystem.move_of_lookup h.present (FileSystem.testLeaf_of_file h.present) habsent

theorem lookup_replaced_previous (p : Publication) (fs : FileSystem γ) (content old : γ) :
    (replaced fs p content old).lookup p.previous = some (.file old) := by
  rw [replaced, Finmap.lookup_insert_of_ne _ (previous_ne_destination p), Finmap.lookup_insert]

theorem lookup_replaced_destination (p : Publication) (fs : FileSystem γ) (content old : γ) :
    (replaced fs p content old).lookup p.destination = some (.file content) := Finmap.lookup_insert _

theorem lookup_replaced_rejected (h : Publishable p fs content) (old : γ) :
    (replaced fs p content old).lookup p.rejected = none := by
  rw [replaced, Finmap.lookup_insert_of_ne _ (rejected_ne_destination p),
    Finmap.lookup_insert_of_ne _ (previous_ne_rejected p).symm,
    Finmap.lookup_erase_ne h.rejected_ne_partialPath, h.rejectedFree]

theorem erase_replaced (h : Publishable p fs content) (old : γ) :
    (replaced fs p content old).erase p.previous = published fs p content := by
  have hprevious := h.previous_ne_partialPath
  have hdestination := previous_ne_destination p
  apply Finmap.ext_lookup
  intro path
  by_cases hpath : path = p.previous
  · rw [hpath, Finmap.lookup_erase, published, Finmap.lookup_insert_of_ne _ hdestination,
      Finmap.lookup_erase_ne hprevious, h.previousFree]
  · rw [Finmap.lookup_erase_ne hpath]
    by_cases hplace : path = p.destination
    · rw [hplace, lookup_replaced_destination, published, Finmap.lookup_insert]
    · rw [replaced, published, Finmap.lookup_insert_of_ne _ hplace, Finmap.lookup_insert_of_ne _ hpath,
        Finmap.lookup_insert_of_ne _ hplace]

/-- Putting the replaced archive back and removing the rejected one. -/
theorem restore_replaced (h : Publishable p fs content)
    (hold : fs.lookup p.destination = some (.file old)) :
    ∃ fs', replace (replaced fs p content old) p.previous p.destination p.rejected = some fs' ∧
      fs'.lookup p.rejected = some (.file content) ∧ fs'.erase p.rejected = withdrawn fs p := by
  have hreplace := replace_of_file (lookup_replaced_previous p fs content old)
    (lookup_replaced_destination p fs content old) (lookup_replaced_rejected h old)
  refine ⟨_, hreplace, ?_, ?_⟩
  · rw [Finmap.lookup_insert_of_ne _ (rejected_ne_destination p), Finmap.lookup_insert]
  · apply Finmap.ext_lookup
    intro path
    by_cases hrejected : path = p.rejected
    · rw [hrejected, Finmap.lookup_erase, withdrawn, Finmap.lookup_erase_ne h.rejected_ne_partialPath,
        h.rejectedFree]
    · rw [Finmap.lookup_erase_ne hrejected]
      by_cases hplace : path = p.destination
      · rw [hplace, Finmap.lookup_insert, withdrawn, Finmap.lookup_erase_ne h.differ.symm, hold]
      · rw [Finmap.lookup_insert_of_ne _ hplace, Finmap.lookup_insert_of_ne _ hrejected]
        by_cases hprevious : path = p.previous
        · rw [hprevious, Finmap.lookup_erase, withdrawn,
            Finmap.lookup_erase_ne h.previous_ne_partialPath, h.previousFree]
        · rw [Finmap.lookup_erase_ne hprevious, replaced, Finmap.lookup_insert_of_ne _ hplace,
            Finmap.lookup_insert_of_ne _ hprevious, withdrawn]

theorem erase_published (h : Publishable p fs content) (habsent : fs.lookup p.destination = none) :
    (published fs p content).erase p.destination = withdrawn fs p := by
  apply FileSystem.erase_insert
  rwa [Finmap.lookup_erase_ne h.differ.symm]

/-- Nothing is left of the partial archive and of the backups; all other files are as before. -/
structure Cleared (p : Publication) (fs fs' : FileSystem γ) : Prop where
  partialGone : fs'.lookup p.partialPath = none
  previousGone : fs'.lookup p.previous = none
  rejectedGone : fs'.lookup p.rejected = none
  others : ∀ path, path ≠ p.partialPath → path ≠ p.destination → fs'.lookup path = fs.lookup path

theorem cleared_published (h : Publishable p fs content) : Cleared p fs (published fs p content) := by
  have hothers : ∀ path, path ≠ p.partialPath → path ≠ p.destination →
      (published fs p content).lookup path = fs.lookup path := by
    intro path hpartial hplace
    rw [published, Finmap.lookup_insert_of_ne _ hplace, Finmap.lookup_erase_ne hpartial]
  refine ⟨?_, ?_, ?_, hothers⟩
  · rw [published, Finmap.lookup_insert_of_ne _ h.differ, Finmap.lookup_erase]
  · rw [hothers _ h.previous_ne_partialPath (previous_ne_destination p), h.previousFree]
  · rw [hothers _ h.rejected_ne_partialPath (rejected_ne_destination p), h.rejectedFree]

theorem cleared_withdrawn (h : Publishable p fs content) : Cleared p fs (withdrawn fs p) := by
  have hothers : ∀ path, path ≠ p.partialPath → (withdrawn fs p).lookup path = fs.lookup path := by
    intro path hpartial
    rw [withdrawn, Finmap.lookup_erase_ne hpartial]
  refine ⟨Finmap.lookup_erase _ _, ?_, ?_, fun path hpartial _ => hothers path hpartial⟩
  · rw [hothers _ h.previous_ne_partialPath, h.previousFree]
  · rw [hothers _ h.rejected_ne_partialPath, h.rejectedFree]

end Files

section Atomic

variable {host : Host γ} {p : Publication} {fs fs' : FileSystem γ} {content : γ} {journal : List ρ}
  {replacedExisting : Bool}

/-- The rename is the first step: an error leaves the files as they were or as the rename left them. -/
theorem ends_publishRenaming (host : Host γ)
    (hrename : Script.Ends (renameIntoPlace p replacedExisting) ⟨fs, false, journal⟩
      (fun _ s => s = ⟨fs', false, journal⟩) fun s => s = ⟨fs, false, journal⟩)
    (hread : fs'.lookup p.destination = some (.file content))
    (hclear : Script.Ends (deleteIfLeaf p.previous) ⟨fs', true, journal⟩
      (fun _ s => s.files = published fs p content) fun s => s = ⟨fs', true, journal⟩) :
    Script.Ends (publishRenaming host p replacedExisting) ⟨fs, false, journal⟩
      (fun hash s => hash = p.expectedSha256 ∧ host.sha256 content = p.expectedSha256 ∧
        s.files = published fs p content)
      fun s => s = ⟨fs, false, journal⟩ ∨ s = ⟨fs', true, journal⟩ := by
  apply (hrename.weaken (fun _ _ h => h) fun _ => Or.inl).bind
  rintro _ _ rfl
  apply Script.Ends.amend_bind
  apply Script.Ends.bind (Q := fun hash s => hash = host.sha256 content ∧ s = ⟨fs', true, journal⟩)
  · apply ends_getFileSha256 (.inr rfl)
    intro found hfound
    rw [FileSystem.read_of_file hread] at hfound
    cases hfound
    exact ⟨rfl, rfl⟩
  · rintro hash _ ⟨rfl, rfl⟩
    apply Script.Ends.ite
    · intro _
      exact Script.Ends.throw _ (.inr rfl)
    · intro hhash
      apply (hclear.weaken (fun _ _ h => h) fun _ => Or.inr).bind
      intro _ s hs
      exact Script.Ends.pure _ ⟨not_not.mp hhash, not_not.mp hhash, hs⟩

theorem calmly_adapt {α : Type} {m : FileScript γ Bool ρ α} {s s' : Session γ Bool ρ} {a : α}
    (f : Refusal → Refusal) (h : Script.Calmly m s (.ok a) s') :
    Script.Calmly (ExceptT.adapt f m : FileScript γ Bool ρ α) s (.ok a) s' := by
  change (Except.mapError f (m.outcome ⟨s, none⟩).1, (m.outcome ⟨s, none⟩).2) = _
  rw [h]
  rfl

theorem calmly_rollBack_early (p : Publication) (replacedExisting : Bool) (fs : FileSystem γ)
    (journal : List ρ) :
    Script.Calmly (rollBack p replacedExisting) ⟨fs, false, journal⟩ (.ok ⟨⟩) ⟨fs, false, journal⟩ := by
  apply Script.Calmly.look_bind
  apply calmly_ask
  apply calmly_ask
  exact Script.Calmly.pure _ _

theorem calmly_rollBack_replaced (h : Publishable p fs content) {old : γ}
    (hold : fs.lookup p.destination = some (.file old)) (journal : List ρ) :
    Script.Calmly (rollBack p true) ⟨replaced fs p content old, true, journal⟩ (.ok ⟨⟩)
      ⟨withdrawn fs p, true, journal⟩ := by
  have hprevious := FileSystem.testLeaf_of_file (lookup_replaced_previous p fs content old)
  have hdestination := FileSystem.testLeaf_of_file (lookup_replaced_destination p fs content old)
  obtain ⟨fs', hreplace, hrejected, herase⟩ := restore_replaced h hold
  apply Script.Calmly.look_bind
  apply calmly_ask
  apply calmly_ask
  simp only [hprevious, Bool.and_self, ↓reduceIte]
  apply calmly_adapt
  apply calmly_ask
  simp only [hdestination, ↓reduceIte]
  have hdelete := calmly_deleteFile (s := (⟨fs', true, journal⟩ : Session γ Bool ρ))
    (FileSystem.testLeaf_of_file hrejected)
  rw [← herase]
  exact (calmly_fileOperation hreplace).bind hdelete

theorem calmly_rollBack_published (h : Publishable p fs content)
    (habsent : fs.lookup p.destination = none) (journal : List ρ) :
    Script.Calmly (rollBack p false) ⟨published fs p content, true, journal⟩ (.ok ⟨⟩)
      ⟨withdrawn fs p, true, journal⟩ := by
  have hleaf : (published fs p content).testLeaf p.destination = true :=
    FileSystem.testLeaf_of_file (Finmap.lookup_insert _)
  apply Script.Calmly.look_bind
  apply calmly_ask
  apply calmly_ask
  simp only [hleaf, Bool.and_false, Bool.false_and, Bool.false_eq_true, Bool.not_false, Bool.and_self,
    ↓reduceIte]
  apply calmly_adapt
  rw [← erase_published h habsent]
  exact calmly_deleteFile hleaf

theorem ends_publish (h : Publishable p fs content)
    (hrename : Script.Ends (renameIntoPlace p replacedExisting) ⟨fs, false, journal⟩
      (fun _ s => s = ⟨fs', false, journal⟩) fun s => s = ⟨fs, false, journal⟩)
    (hread : fs'.lookup p.destination = some (.file content))
    (hclear : Script.Ends (deleteIfLeaf p.previous) ⟨fs', true, journal⟩
      (fun _ s => s.files = published fs p content) fun s => s = ⟨fs', true, journal⟩)
    (hback : Script.Calmly (rollBack p replacedExisting) ⟨fs', true, journal⟩ (.ok ⟨⟩)
      ⟨withdrawn fs p, true, journal⟩) :
    Script.Ends (Script.always
        (Script.onError (publishRenaming host p replacedExisting) (rollBack p replacedExisting))
        (deleteIfLeaf p.partialPath)) ⟨fs, false, journal⟩
      (fun hash s => hash = p.expectedSha256 ∧ host.sha256 content = p.expectedSha256 ∧
        s.files = published fs p content)
      fun s => s.files = withdrawn fs p := by
  have herased : (withdrawn fs p).testLeaf p.partialPath = false :=
    FileSystem.testLeaf_eq_false.mpr (FileSystem.read_of_absent (Finmap.lookup_erase _ _))
  have htry := Script.Ends.onError (E := fun s => s.files = fs ∨ s.files = withdrawn fs p)
    (ends_publishRenaming host hrename hread hclear) (by
      rintro s (rfl | rfl)
      · exact ⟨_, calmly_rollBack_early p replacedExisting fs journal, .inl rfl⟩
      · exact ⟨_, hback, .inr rfl⟩)
  apply Script.Ends.always htry
  · rintro ⟨files, rest, notes⟩ (rfl | rfl)
    · refine ⟨⟨withdrawn files p, rest, notes⟩, ?_, rfl⟩
      apply calmly_ask
      simp only [FileSystem.testLeaf_of_file h.present, ↓reduceIte]
      exact calmly_deleteFile (FileSystem.testLeaf_of_file h.present)
    · refine ⟨⟨withdrawn fs p, rest, notes⟩, ?_, rfl⟩
      apply calmly_ask
      simp only [herased, Bool.false_eq_true, ↓reduceIte]
      exact Script.Calmly.pure _ _
  · rintro hash ⟨files, rest, notes⟩ ⟨hhash, hcontent, rfl⟩
    have hgone : (published fs p content).testLeaf p.partialPath = false :=
      FileSystem.testLeaf_eq_false.mpr (FileSystem.read_of_absent (cleared_published h).partialGone)
    apply ends_ask
    simp only [hgone, Bool.false_eq_true, ↓reduceIte]
    exact Script.Ends.pure _ ⟨hhash, hcontent, rfl⟩

theorem ends_passed {α : Type} {s : Session γ Bool ρ} {question : FileSystem γ → Bool}
    {refusal : Refusal} {f : PUnit → FileScript γ Bool ρ α} {Q : α → Session γ Bool ρ → Prop}
    {E : Session γ Bool ρ → Prop}
    (hpass : question s.files = false) (hf : Script.Ends (f ⟨⟩) s Q E) :
    Script.Ends (refuseIf question refusal >>= f) s Q E := by
  have hcheck : Script.Ends (refuseIf question refusal) s (fun _ s' => s' = s) E := by
    apply Script.Ends.look_bind
    rw [hpass]
    exact Script.Ends.pure _ rfl
  apply hcheck.bind
  rintro _ _ rfl
  exact hf

/-- Wherever a step fails, the files end as with the archive published or with the partial archive
withdrawn. -/
theorem ends_publishValidatedArchive (h : Publishable p fs content)
    (hdestination : fs.lookup p.destination = none ∨ ∃ old, fs.lookup p.destination = some (.file old)) :
    Script.Ends (publishValidatedArchive host p) ⟨fs, false, journal⟩
      (fun hash s => hash = p.expectedSha256 ∧ host.sha256 content = p.expectedSha256 ∧
        s.files = published fs p content)
      fun s => s.files = withdrawn fs p := by
  apply ends_passed (by simp [h.expects])
  apply ends_passed (by simp [FileSystem.testLeaf_of_file h.present])
  apply ends_passed (by simp [h.sameFolder])
  apply ends_passed (by simp [h.differ])
  apply ends_ask
  rcases hdestination with habsent | ⟨old, hold⟩
  · have hleaf := FileSystem.testLeaf_eq_false.mpr (FileSystem.read_of_absent habsent)
    have hprevious : (published fs p content).testLeaf p.previous = false :=
      FileSystem.testLeaf_eq_false.mpr (FileSystem.read_of_absent (cleared_published h).previousGone)
    have hrename : Script.Ends (renameIntoPlace p false) ⟨fs, false, journal⟩
        (fun _ s => s = ⟨published fs p content, false, journal⟩)
        (fun s => s = ⟨fs, false, journal⟩) := by
      rw [renameIntoPlace, if_neg Bool.false_ne_true]
      apply ends_moveFile
      · rfl
      · intro fs' hmove
        rw [move_published h habsent] at hmove
        cases hmove
        rfl
    have hclear : Script.Ends (deleteIfLeaf p.previous) ⟨published fs p content, true, journal⟩
        (fun _ s => s.files = published fs p content)
        (fun s => s = ⟨published fs p content, true, journal⟩) := by
      apply ends_ask
      simp only [hprevious, Bool.false_eq_true, ↓reduceIte]
      exact Script.Ends.pure _ rfl
    simp only [hleaf]
    exact ends_publish h hrename (Finmap.lookup_insert _) hclear
      (calmly_rollBack_published h habsent journal)
  · have hprevious := FileSystem.testLeaf_of_file (lookup_replaced_previous p fs content old)
    have hrename : Script.Ends (renameIntoPlace p true) ⟨fs, false, journal⟩
        (fun _ s => s = ⟨replaced fs p content old, false, journal⟩)
        (fun s => s = ⟨fs, false, journal⟩) := by
      rw [renameIntoPlace, if_pos rfl]
      apply ends_fileOperation
      · rfl
      · rfl
      · intro fs' hreplace
        rw [replace_published h hold] at hreplace
        cases hreplace
        rfl
    have hclear : Script.Ends (deleteIfLeaf p.previous) ⟨replaced fs p content old, true, journal⟩
        (fun _ s => s.files = published fs p content)
        (fun s => s = ⟨replaced fs p content old, true, journal⟩) := by
      apply ends_ask
      simp only [hprevious, ↓reduceIte]
      exact ends_deleteFile rfl fun _ => erase_replaced h old
    simp only [FileSystem.testLeaf_of_file hold]
    exact ends_publish h hrename (lookup_replaced_destination p fs content old) hclear
      (calmly_rollBack_replaced h hold journal)

/-- Publishing is atomic: it returns with the validated bytes in place, or throws with the destination as
it was, and in both cases no other file is left behind. -/
theorem publish_atomic (host : Host γ) (p : Publication) (fs : FileSystem γ) (content : γ)
    (journal : List ρ) (h : Publishable p fs content)
    (hdestination : fs.lookup p.destination = none ∨ ∃ old, fs.lookup p.destination = some (.file old)) :
    Script.Ends (publishValidatedArchive host p) ⟨fs, false, journal⟩
      (fun hash s => hash = p.expectedSha256 ∧
        (s.files.read p.destination).map host.sha256 = some p.expectedSha256 ∧ Cleared p fs s.files)
      fun s => s.files.lookup p.destination = fs.lookup p.destination ∧ Cleared p fs s.files := by
  apply (ends_publishValidatedArchive h hdestination).weaken
  · rintro hash s ⟨hhash, hcontent, hfiles⟩
    have hread : (published fs p content).read p.destination = some content :=
      FileSystem.read_of_file (Finmap.lookup_insert _)
    refine ⟨hhash, ?_, hfiles ▸ cleared_published h⟩
    rw [hfiles, hread, Option.map_some, hcontent]
  · intro s hfiles
    refine ⟨?_, hfiles ▸ cleared_withdrawn h⟩
    rw [hfiles, withdrawn, Finmap.lookup_erase_ne h.differ.symm]

theorem calmly_publishRenaming {s : Session γ Bool ρ}
    (hrename : Script.Calmly (renameIntoPlace p replacedExisting) ⟨fs, false, journal⟩ (.ok ⟨⟩)
      ⟨fs', false, journal⟩)
    (hread : fs'.lookup p.destination = some (.file content))
    (hclear : Script.Calmly (deleteIfLeaf p.previous) ⟨fs', true, journal⟩ (.ok ⟨⟩) s)
    (hhash : host.sha256 content = p.expectedSha256) :
    Script.Calmly (publishRenaming host p replacedExisting) ⟨fs, false, journal⟩ (.ok p.expectedSha256)
      s := by
  have hlocked : Script.Calmly (getLockedFileSha256 host p.destination) ⟨fs', true, journal⟩
      (.ok p.expectedSha256) ⟨fs', true, journal⟩ := by
    rw [← hhash]
    exact calmly_getFileSha256 (FileSystem.read_of_file hread)
  apply hrename.bind
  apply (Script.Calmly.amend _ _).bind
  apply hlocked.bind
  rw [if_neg (not_not.mpr rfl)]
  exact hclear.bind (Script.Calmly.pure _ s)

/-- A partial archive with the expected hash is published when no step fails. -/
theorem publish_returns (host : Host γ) (h : Publishable p fs content) (journal : List ρ)
    (hdestination : fs.lookup p.destination = none ∨ ∃ old, fs.lookup p.destination = some (.file old))
    (hhash : host.sha256 content = p.expectedSha256) :
    Script.Returns (publishValidatedArchive host p) ⟨fs, false, journal⟩ := by
  have hgone : (published fs p content).testLeaf p.partialPath = false :=
    FileSystem.testLeaf_eq_false.mpr (FileSystem.read_of_absent (cleared_published h).partialGone)
  have hfinally : Script.Calmly (deleteIfLeaf p.partialPath) ⟨published fs p content, true, journal⟩
      (.ok ⟨⟩) ⟨published fs p content, true, journal⟩ := by
    apply calmly_ask
    simp only [hgone, Bool.false_eq_true, ↓reduceIte]
    exact Script.Calmly.pure _ _
  refine ⟨p.expectedSha256, ⟨published fs p content, true, journal⟩, ?_⟩
  apply (calmly_refuseIf (by simp [h.expects])).bind
  apply (calmly_refuseIf (by simp [FileSystem.testLeaf_of_file h.present])).bind
  apply (calmly_refuseIf (by simp [h.sameFolder])).bind
  apply (calmly_refuseIf (by simp [h.differ])).bind
  apply calmly_ask
  rcases hdestination with habsent | ⟨old, hold⟩
  · have hprevious : (published fs p content).testLeaf p.previous = false := by
      rw [FileSystem.testLeaf_eq_false, FileSystem.read_of_absent (cleared_published h).previousGone]
    have hrename : Script.Calmly (renameIntoPlace p false) ⟨fs, false, journal⟩ (.ok ⟨⟩)
        ⟨published fs p content, false, journal⟩ := by
      rw [renameIntoPlace, if_neg Bool.false_ne_true]
      exact calmly_moveFile (move_published h habsent)
    have hclear : Script.Calmly (deleteIfLeaf p.previous) ⟨published fs p content, true, journal⟩
        (.ok ⟨⟩) ⟨published fs p content, true, journal⟩ := by
      apply calmly_ask
      simp only [hprevious, Bool.false_eq_true, ↓reduceIte]
      exact Script.Calmly.pure _ _
    simp only [FileSystem.testLeaf_eq_false.mpr (FileSystem.read_of_absent habsent)]
    exact ((calmly_publishRenaming hrename (Finmap.lookup_insert _) hclear hhash).onError _).always
      hfinally
  · have hprevious := FileSystem.testLeaf_of_file (lookup_replaced_previous p fs content old)
    have hrename : Script.Calmly (renameIntoPlace p true) ⟨fs, false, journal⟩ (.ok ⟨⟩)
        ⟨replaced fs p content old, false, journal⟩ := by
      rw [renameIntoPlace, if_pos rfl]
      exact calmly_fileOperation (replace_published h hold)
    have hclear : Script.Calmly (deleteIfLeaf p.previous) ⟨replaced fs p content old, true, journal⟩
        (.ok ⟨⟩) ⟨published fs p content, true, journal⟩ := by
      apply calmly_ask
      simp only [hprevious, ↓reduceIte]
      rw [← erase_replaced h old]
      exact calmly_deleteFile hprevious
    simp only [FileSystem.testLeaf_of_file hold]
    exact ((calmly_publishRenaming hrename (lookup_replaced_destination p fs content old) hclear
      hhash).onError _).always hfinally

def sampleDigest (content : List UInt8) : Digest := fun i =>
  if content = [] then
    ([0xE3, 0xB0, 0xC4, 0x42, 0x98, 0xFC, 0x1C, 0x14, 0x9A, 0xFB, 0xF4, 0xC8, 0x99, 0x6F, 0xB9, 0x24,
      0x27, 0xAE, 0x41, 0xE4, 0x64, 0x9B, 0x93, 0x4C, 0xA4, 0x95, 0x99, 0x1B, 0x78, 0x52, 0xB8, 0x55] :
        List (Fin 256)).getD i.val 0
  else 0

def samplePublication : Publication where
  partialPath := ⟨["dist".toList], "plugin.partial.zip".toList⟩
  destination := ⟨["dist".toList], "plugin.zip".toList⟩
  expectedSha256 := (sampleDigest []).toHex
  guid := "0".toList
  rejectedGuid := "1".toList

def sampleArchives : FileSystem (List UInt8) :=
  (Finmap.singleton samplePublication.partialPath (Installer.Entry.file [])).insert
    samplePublication.destination (.file [0x61])

theorem sample_publishable : Publishable samplePublication sampleArchives [] where
  expects := by decide +kernel
  present := by decide +kernel
  sameFolder := by decide +kernel
  differ := by decide +kernel
  previousFree := by decide +kernel
  rejectedFree := by decide +kernel

theorem sample_publish_atomic :
    Script.Ends (publishValidatedArchive ⟨sampleDigest, none⟩ samplePublication)
      (⟨sampleArchives, false, []⟩ : Session (List UInt8) Bool PUnit)
      (fun hash s => hash = samplePublication.expectedSha256 ∧
        (s.files.read samplePublication.destination).map (Host.sha256 ⟨sampleDigest, none⟩) =
          some samplePublication.expectedSha256 ∧ Cleared samplePublication sampleArchives s.files)
      fun s => s.files.lookup samplePublication.destination =
          sampleArchives.lookup samplePublication.destination ∧
        Cleared samplePublication sampleArchives s.files :=
  publish_atomic _ samplePublication sampleArchives [] [] sample_publishable
    (.inr ⟨[0x61], by decide +kernel⟩)

end Atomic

end FfbInterceptor.Release
