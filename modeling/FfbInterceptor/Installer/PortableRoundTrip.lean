import FfbInterceptor.Installer.PortableRemoval
import FfbInterceptor.Installer.PortableRollback
import FfbInterceptor.Library.Layers

/-! Whoever removes games in the opposite order of their installation, and only files the package has
changed, gets everything back. -/
namespace FfbInterceptor.Installer.Portable
open FfbInterceptor.Library

variable {γ : Type} {machine : Machine γ}

section Layers

/-- The same under every path that an installation of the destination may change. -/
def SameAt (destination : Path) (fs fs' : FileSystem (Content γ)) : Prop :=
  ∀ path, Touched destination path → fs'.lookup path = fs.lookup path

theorem SameAt.trans {destination : Path} {a b c : FileSystem (Content γ)}
    (h : SameAt destination a b) (h' : SameAt destination b c) : SameAt destination a c :=
  fun path hpath => (h' path hpath).trans (h path hpath)

def Change (machine : Machine γ) (destination : Path) (record : ManagedFile)
    (fs fs' : FileSystem (Content γ)) : Prop :=
  ∃ setup content, Installed (machine.on setup) content destination fs record fs'

/-- At a destination the files are the first ones with those of the records laid over them. -/
abbrev Layers (machine : Machine γ) (first : FileSystem (Content γ)) (destination : Path) :
    List ManagedFile → FileSystem (Content γ) → Prop :=
  Layered (SameAt destination) (Change machine destination) first

variable {first fs fs' : FileSystem (Content γ)} {destination : Path} {records : List ManagedFile}
  {record : ManagedFile} {s : State γ}

theorem layers_congr (h : Layers machine first destination records fs)
    (hsame : SameAt destination fs fs') :
    Layers machine first destination records fs' :=
  Layered.congr SameAt.trans h hsame

theorem Installed.recorded {setup : Setup γ} {content : Content γ}
    (h : Installed setup content destination fs record fs') : record.destination = destination := by
  cases h with
  | same hold hhash => rfl
  | added hfree => rfl
  | replaced hold hdiffers hmove => rfl

theorem Layers.inPlace (h : Layers machine first destination (records ++ [record]) fs) :
    ∃ content, fs.read destination = some content ∧ machine.sha256 content = record.installedSha256 := by
  obtain ⟨below, above, -, ⟨setup, content, hinstalled⟩, hsame⟩ := h.top
  have hthere : fs.read destination = above.read destination :=
    FileSystem.read_congr (hsame destination (.inl rfl))
  rw [hthere]
  cases hinstalled with
  | @same old hold hhash => exact ⟨old, hold, hhash⟩
  | added hfree => exact ⟨content, FileSystem.read_of_file (Finmap.lookup_insert _), rfl⟩
  | replaced hold hdiffers hmove =>
    exact ⟨content, FileSystem.read_of_file (Finmap.lookup_insert _), rfl⟩

/-- A top layer that has changed something can be taken off. -/
theorem calmly_removeManagedFile (h : Layers machine first destination (records ++ [record]) s.files)
    (hchanged : record.changed) :
    ∃ fs', Script.Calmly (removeManagedFile machine.toHost record) s (.ok ⟨⟩) { s with files := fs' } ∧
      Layers machine first destination records fs' ∧
        ∀ path, ¬Touched destination path → fs'.lookup path = s.files.lookup path := by
  obtain ⟨content, hread, hhash⟩ := h.inPlace
  obtain ⟨below, above, hbelow, ⟨setup, content', hinstalled⟩, hsame⟩ := h.top
  have hdestination := hinstalled.recorded
  have hleaf : s.files.testLeaf destination = true := FileSystem.testLeaf_iff.mpr ⟨content, hread⟩
  have hdelete : ∀ {fs'}, Script.Calmly (restoreBackup record)
      { s with files := s.files.erase destination } (.ok ⟨⟩) { s with files := fs' } →
        Script.Calmly (removeManagedFile machine.toHost record) s (.ok ⟨⟩) { s with files := fs' } := by
    intro fs' hrestore
    rw [removeManagedFile, hdestination]
    apply calmly_ask
    rw [hleaf, if_pos rfl]
    apply (calmly_getFileSha256 hread).bind
    rw [hhash, if_neg (not_not_intro rfl)]
    exact (calmly_deleteFile hleaf).bind hrestore
  cases hinstalled with
  | same hold hhash => cases hchanged
  | added hfree =>
    refine ⟨s.files.erase destination, hdelete (Script.Calmly.pure _ _), layers_congr hbelow ?_, ?_⟩
    · intro path hpath
      by_cases hp : path = destination
      · rw [hp, Finmap.lookup_erase, hfree]
      · rw [Finmap.lookup_erase_ne hp, hsame path hpath, Finmap.lookup_insert_of_ne _ hp]
    · intro path hpath
      exact Finmap.lookup_erase_ne fun heq => hpath (.inl heq)
  | @replaced old moved hold hdiffers hmove =>
    obtain ⟨entry, hentry, hfile, hfree, rfl⟩ := FileSystem.move_eq_some hmove
    obtain ⟨n, hn⟩ := exists_getBackupPath below destination
    generalize getBackupPath below destination = backup at hn hfree hsame hdelete
    have hne : backup ≠ destination := hn ▸ backupCandidate_ne destination n
    have hbackup : s.files.lookup backup = some entry := by
      rw [hsame backup (.inr ⟨n, hn⟩), Finmap.lookup_insert_of_ne _ hne, Finmap.lookup_insert]
    have hbehind : (s.files.erase destination).lookup backup = some entry := by
      rw [Finmap.lookup_erase_ne hne, hbackup]
    have hback := FileSystem.move_of_lookup hbehind
      (by rw [FileSystem.testLeaf, FileSystem.read_congr (hbehind.trans hentry.symm)]; exact hfile)
      (Finmap.lookup_erase destination s.files)
    refine ⟨((s.files.erase destination).erase backup).insert destination entry, hdelete ?_,
      layers_congr hbelow ?_, ?_⟩
    · rw [restoreBackup]
      apply calmly_ask
      simp only [FileSystem.testPath_of_lookup hbehind, if_true]
      apply calmly_ask
      simp only [FileSystem.testPath_eq_false.mpr (Finmap.lookup_erase destination s.files),
        Bool.false_eq_true, if_false]
      exact calmly_moveFile (s := { s with files := s.files.erase destination }) hback
    · intro path hpath
      rw [FileSystem.lookup_insert_erase]
      by_cases hp : path = destination
      · rw [if_pos hp, hp, hentry]
      · rw [if_neg hp]
        by_cases hp' : path = backup
        · rw [if_pos hp', hp', hfree]
        · rw [if_neg hp', Finmap.lookup_erase_ne hp, hsame path hpath, Finmap.lookup_insert_of_ne _ hp,
            FileSystem.lookup_insert_erase, if_neg hp', if_neg hp]
    · intro path hpath
      have hp : path ≠ destination := fun heq => hpath (.inl heq)
      have hp' : path ≠ backup := fun heq => hpath (.inr ⟨n, heq.trans hn⟩)
      rw [FileSystem.lookup_insert_erase, if_neg hp, if_neg hp', Finmap.lookup_erase_ne hp]

end Layers

section Targets

variable {first fs fs' : FileSystem (Content γ)} {before after records : List ManagedFile}
  {record : ManagedFile} {target : Target} {path : Path} {s : State γ}

theorem touched_apart {other : Target} (hne : target.destination ≠ other.destination)
    (h : Touched target.destination path) : ¬Touched other.destination path := by
  by_cases hfile : target.1 = other.1
  · intro h'
    obtain ⟨suffix, rfl⟩ := h.append
    obtain ⟨suffix', heq⟩ := h'.append
    have hfolder : target.2 = other.2 := congrArg Path.folder heq
    rw [Target.destination, Target.destination, hfile, hfolder] at hne
    exact hne rfl
  · exact not_touched hfile h

def Outside (path : Path) : Prop := ∀ target : Target, ¬Touched target.destination path

/-- At every target the files of the records lie over the first ones, in their order. -/
def Stacked (machine : Machine γ) (first : FileSystem (Content γ)) (records : List ManagedFile)
    (fs : FileSystem (Content γ)) : Prop :=
  ∀ target : Target, Layers machine first target.destination
    (records.filter fun record => record.destination = target.destination) fs

theorem Stacked.congr (h : Stacked machine first records fs)
    (hsame : ∀ target : Target, SameAt target.destination fs fs') : Stacked machine first records fs' :=
  fun target => layers_congr (h target) (hsame target)

theorem filter_here (records : List ManagedFile) (h : record.destination = target.destination) :
    (record :: records).filter (fun record => record.destination = target.destination) =
      record :: records.filter fun record => record.destination = target.destination := by
  rw [List.filter_cons, if_pos (decide_eq_true h)]

theorem filter_elsewhere (records : List ManagedFile) (h : record.destination ≠ target.destination) :
    (record :: records).filter (fun record => record.destination = target.destination) =
      records.filter fun record => record.destination = target.destination := by
  rw [List.filter_cons, if_neg (by rw [decide_eq_true_eq]; exact h)]

theorem Stacked.install {setup : Setup γ} {content : Content γ} (h : Stacked machine first records fs)
    (hinstalled : Installed (machine.on setup) content target.destination fs record fs') :
    Stacked machine first (records ++ [record]) fs' := by
  intro other
  rw [List.filter_append]
  by_cases hsame : target.destination = other.destination
  · have hrecord : record.destination = other.destination := hinstalled.recorded.trans hsame
    rw [filter_here [] hrecord, List.filter_nil, ← hsame]
    have hbelow := h target
    exact Layered.push hbelow ⟨setup, content, hinstalled⟩ fun _ _ => rfl
  · have hrecord : record.destination ≠ other.destination := hinstalled.recorded ▸ hsame
    rw [filter_elsewhere [] hrecord, List.filter_nil, List.append_nil]
    exact layers_congr (h other) fun path hpath =>
      hinstalled.frame (touched_apart (Ne.symm hsame) hpath)

theorem Stacked.installAll {setup : Setup γ} {targets : List Target} {journal : List ManagedFile}
    (h : Stacked machine first records fs)
    (hinstalled : InstalledAll (machine.on setup) fs targets journal fs') :
    Stacked machine first (records ++ journal) fs' := by
  induction hinstalled with
  | nil =>
    rw [List.append_nil]
    exact h
  | snoc hbefore hlast ih =>
    obtain ⟨content, -, hinstalled⟩ := hlast
    rw [← List.append_assoc]
    exact ih.install hinstalled

theorem Stacked.remove (h : Stacked machine first (before ++ record :: after) s.files)
    (htarget : record.destination = target.destination)
    (hlast : ∀ later ∈ after, later.destination ≠ record.destination) (hchanged : record.changed) :
    ∃ fs', Script.Calmly (removeManagedFile machine.toHost record) s (.ok ⟨⟩) { s with files := fs' } ∧
      Stacked machine first (before ++ after) fs' ∧
        ∀ path, Outside path → fs'.lookup path = s.files.lookup path := by
  have hnone : (after.filter fun later => later.destination = target.destination) = [] := by
    refine List.filter_eq_nil_iff.mpr fun later hlater => ?_
    rw [decide_eq_true_eq, ← htarget]
    exact hlast later hlater
  have hlayers := h target
  rw [List.filter_append, filter_here after htarget, hnone] at hlayers
  obtain ⟨fs', hcalm, hbelow, hframe⟩ := calmly_removeManagedFile hlayers hchanged
  refine ⟨fs', hcalm, fun other => ?_, fun path hpath => hframe path (hpath target)⟩
  by_cases hsame : target.destination = other.destination
  · rw [List.filter_append, ← hsame, hnone, List.append_nil]
    exact hbelow
  · have hrecord : record.destination ≠ other.destination := htarget ▸ hsame
    have hother := h other
    rw [List.filter_append, filter_elsewhere after hrecord, ← List.filter_append] at hother
    exact layers_congr hother fun path hpath => hframe path (touched_apart (Ne.symm hsame) hpath)

theorem Stacked.removeAll (h : Stacked machine first records s.files)
    (htargets : ∀ record ∈ records, ∃ target : Target, record.destination = target.destination)
    (hchanged : ∀ record ∈ records, record.changed)
    (hapart : (records.map ManagedFile.destination).Nodup) :
    ∃ fs', Script.Calmly (records.forM (removeManagedFile machine.toHost)) s (.ok ⟨⟩)
        { s with files := fs' } ∧
      Stacked machine first [] fs' ∧ ∀ path, Outside path → fs'.lookup path = s.files.lookup path := by
  induction records generalizing s with
  | nil => exact ⟨s.files, Script.Calmly.pure _ _, h, fun _ _ => rfl⟩
  | cons record records ih =>
    obtain ⟨target, htarget⟩ := htargets record List.mem_cons_self
    rw [List.map_cons, List.nodup_cons] at hapart
    have hlast : ∀ later ∈ records, later.destination ≠ record.destination :=
      fun later hlater heq => hapart.1 (heq ▸ List.mem_map_of_mem hlater)
    have hsplit : Stacked machine first ([] ++ record :: records) s.files := h
    obtain ⟨fs₁, hcalm₁, hstacked₁, hframe₁⟩ :=
      hsplit.remove htarget hlast (hchanged record List.mem_cons_self)
    obtain ⟨fs₂, hcalm₂, hstacked₂, hframe₂⟩ := ih (s := { s with files := fs₁ }) hstacked₁
      (fun r hr => htargets r (List.mem_cons_of_mem _ hr))
      (fun r hr => hchanged r (List.mem_cons_of_mem _ hr)) hapart.2
    exact ⟨fs₂, hcalm₁.bind hcalm₂, hstacked₂, fun path hpath =>
      (hframe₂ path hpath).trans (hframe₁ path hpath)⟩

end Targets

section Invariant

def Machine.state (machine : Machine γ) (fs : FileSystem (Content γ)) : Option InstallState :=
  match fs.read machine.statePath with
  | some (.state state) => some state
  | _ => none

def gamesOf (state : Option InstallState) : List GameRecord := (state.map InstallState.games).getD []

def managedFiles : Option InstallState → List ManagedFile
  | some state => state.simHubFiles ++ state.games.map GameRecord.proxy
  | none => []

def proxyPath (gamePath : Path) : Path := Target.destination (.proxy, gamePath.folder)

structure WellFormed (state : InstallState) : Prop where
  distinct : (state.games.map GameRecord.gameExecutable).Nodup
  nonempty : state.games ≠ []
  proxies : ∀ game ∈ state.games, game.proxy.destination = proxyPath game.gameExecutable
  plugIn : ∀ record ∈ state.simHubFiles, ∃ target : Target, target.1 ≠ .proxy ∧
    record.destination = target.destination
  apart : (state.simHubFiles.map ManagedFile.destination).Nodup

/-- The files are the first ones, with the files of the record laid over them. -/
structure Managed (machine : Machine γ) (first : FileSystem (Content γ)) (state : Option InstallState)
    (fs : FileSystem (Content γ)) : Prop where
  record : fs.lookup machine.statePath = state.map fun state => .file (.state state)
  stacked : Stacked machine first (managedFiles state) fs
  outside : ∀ path ≠ machine.statePath, Outside path → fs.lookup path = first.lookup path
  wellFormed : ∀ present, state = some present → WellFormed present

variable {first fs fs' : FileSystem (Content γ)} {present : InstallState}
  {recorded : Option InstallState}
  {game : GameRecord} {before after : List GameRecord} {gamePath : Path}

theorem outside_statePath (machine : Machine γ) : Outside machine.statePath :=
  fun target => record_not_touched machine.stateDirectory target

theorem Managed.read (h : Managed machine first recorded fs) : machine.state fs = recorded := by
  rw [Machine.state, FileSystem.read, h.record]
  cases recorded <;> rfl

theorem Managed.eq_first (h : Managed machine first none fs)
    (hfirst : first.lookup machine.statePath = none) : fs = first := by
  apply Finmap.ext_lookup
  intro path
  by_cases hrecord : path = machine.statePath
  · rw [hrecord, hfirst]
    exact h.record
  · by_cases houtside : Outside path
    · exact h.outside path hrecord houtside
    · obtain ⟨target, htouched⟩ := not_forall.mp houtside
      exact (h.stacked target).agree_of_nil path (not_not.mp htouched)

def InstallState.without (present : InstallState) (remaining : List GameRecord) : Option InstallState :=
  if remaining = [] then none else some ⟨1, present.installedAtUtc, present.simHub, remaining⟩

theorem WellFormed.split (h : WellFormed present) (hgames : present.games = before ++ game :: after)
    (hgame : game.gameExecutable = gamePath) :
    present.gameRecord gamePath = some game ∧ present.remainingGames gamePath = before ++ after := by
  have hdistinct := h.distinct
  rw [hgames, List.map_append, List.map_cons, List.nodup_append, List.nodup_cons] at hdistinct
  obtain ⟨-, ⟨hafter, -⟩, hbefore⟩ := hdistinct
  have hearlier : ∀ other ∈ before, other.gameExecutable ≠ gamePath := fun other hother => by
    have hne := hbefore _ (List.mem_map_of_mem hother) _ List.mem_cons_self
    rwa [hgame] at hne
  have hlater : ∀ other ∈ after, other.gameExecutable ≠ gamePath := fun other hother heq =>
    hafter (hgame.trans heq.symm ▸ List.mem_map_of_mem hother)
  constructor
  · rw [InstallState.gameRecord, hgames]
    refine List.find?_eq_some_iff_append.mpr ⟨decide_eq_true hgame, before, after, rfl, ?_⟩
    intro other hother
    rw [decide_eq_false (hearlier other hother)]
    rfl
  · rw [InstallState.remainingGames, hgames, List.filter_append, List.filter_cons,
      if_neg (by rw [hgame]; simp only [ne_eq, not_true_eq_false, decide_false, Bool.false_eq_true,
        not_false_eq_true])]
    rw [List.filter_eq_self.mpr fun other hother => decide_eq_true (hearlier other hother),
      List.filter_eq_self.mpr fun other hother => decide_eq_true (hlater other hother)]

theorem calmly_readRecord (h : Managed machine first (some present) fs) :
    Script.Calmly (readRecord machine) ⟨fs, none, []⟩ (.ok present) ⟨fs, none, []⟩ := by
  have hfile : fs.lookup machine.statePath = some (.file (.state present)) := h.record
  have hthere : Script.Calmly (refuseIf (fun fs => !fs.testLeaf machine.statePath)
      (.thrown "No FFB Interceptor installation state was found for this Windows user."))
      (⟨fs, none, []⟩ : State γ) (.ok ⟨⟩) ⟨fs, none, []⟩ := by
    apply calmly_refuseIf
    rw [FileSystem.testLeaf_of_file hfile]
    rfl
  apply hthere.bind
  apply calmly_ask
  simp only [FileSystem.read_of_file hfile]
  exact Script.Calmly.pure _ _

theorem calmly_saveRemaining {content : Content γ} (present : InstallState)
    (remaining : List GameRecord) (h : fs.lookup machine.statePath = some (.file content)) :
    ∃ fs', Script.Calmly (saveRemaining machine present remaining) ⟨fs, none, []⟩ (.ok ⟨⟩)
        ⟨fs', none, []⟩ ∧
      fs'.lookup machine.statePath =
        (present.without remaining).map (fun state => .file (.state state)) ∧
        ∀ path ≠ machine.statePath, fs'.lookup path = fs.lookup path := by
  rw [saveRemaining, InstallState.without]
  by_cases hempty : remaining = []
  · rw [if_pos hempty, if_pos hempty]
    exact ⟨_, calmly_deleteFile (s := ⟨fs, none, []⟩) (FileSystem.testLeaf_of_file h),
      Finmap.lookup_erase _ _, fun path hpath => Finmap.lookup_erase_ne hpath⟩
  · rw [if_neg hempty, if_neg hempty]
    have hfolder : fs.isFolder machine.statePath = false := by
      rw [FileSystem.isFolder, FileSystem.testLeaf_of_file h, Bool.not_true, Bool.and_false]
    refine ⟨_, calmly_fileOperation (s := ⟨fs, none, []⟩) ?_, Finmap.lookup_insert _,
      fun path hpath => Finmap.lookup_insert_of_ne _ hpath⟩
    rw [FileSystem.write, hfolder, if_neg Bool.false_ne_true]

theorem Stacked.rewrite {records : List ManagedFile} (h : Stacked machine first records fs)
    (hframe : ∀ path ≠ machine.statePath, fs'.lookup path = fs.lookup path) :
    Stacked machine first records fs' := by
  refine h.congr fun target path hpath => hframe path fun heq => ?_
  exact outside_statePath machine target (heq ▸ hpath)

theorem WellFormed.without (h : WellFormed present) {remaining : List GameRecord}
    (hsome : remaining ≠ []) (hsub : remaining.Sublist present.games) (now : String) :
    WellFormed ⟨1, now, present.simHub, remaining⟩ where
  distinct := h.distinct.sublist (hsub.map _)
  nonempty := hsome
  proxies game hmem := h.proxies game (hsub.subset hmem)
  plugIn := h.plugIn
  apart := h.apart

/-- The latest game of its folder is taken away, if its proxy had been put in; with the last game also
the files beside SimHub. -/
theorem Managed.uninstall (h : Managed machine first (some present) fs)
    (hgames : present.games = before ++ game :: after) (hgame : game.gameExecutable = gamePath)
    (hchanged : game.proxy.changed)
    (hlatest : ∀ later ∈ after, later.gameExecutable.folder ≠ gamePath.folder)
    (hplugIn : before ++ after = [] → ∀ record ∈ present.simHubFiles, record.changed) :
    ∃ fs', Script.Calmly (uninstallFFBInterceptor machine gamePath) ⟨fs, none, []⟩ (.ok ⟨⟩)
        ⟨fs', none, []⟩ ∧ Managed machine first (present.without (before ++ after)) fs' := by
  have hwell := h.wellFormed present rfl
  obtain ⟨hfind, hremaining⟩ := hwell.split hgames hgame
  have hmem : ∀ other ∈ game :: after, other ∈ present.games := fun other hother =>
    hgames ▸ List.mem_append_right before hother
  have hproxy : game.proxy.destination = Target.destination (.proxy, gamePath.folder) := by
    rw [hwell.proxies game (hmem game List.mem_cons_self), proxyPath, hgame]
  have hlast : ∀ later ∈ after.map GameRecord.proxy, later.destination ≠ game.proxy.destination := by
    intro later hlater heq
    obtain ⟨other, hother, rfl⟩ := List.mem_map.mp hlater
    rw [hwell.proxies other (hmem other (List.mem_cons_of_mem _ hother)), hproxy] at heq
    have hfolder := congrArg Path.folder heq
    exact hlatest other hother hfolder
  have hstacked : Stacked machine first ((present.simHubFiles ++ before.map GameRecord.proxy) ++
      game.proxy :: after.map GameRecord.proxy) fs := by
    have hall := h.stacked
    rw [managedFiles, hgames, List.map_append, List.map_cons, ← List.append_assoc] at hall
    exact hall
  obtain ⟨fs₁, hremove, hbelow, hframe₁⟩ :=
    Stacked.remove (s := ⟨fs, none, []⟩) hstacked hproxy hlast hchanged
  rw [List.append_assoc, ← List.map_append] at hbelow
  -- the files beside SimHub stay or go
  have hplugInGone : ∃ fs₂, Script.Calmly (removePlugIn machine present (before ++ after))
        ⟨fs₁, none, []⟩ (.ok ⟨⟩) ⟨fs₂, none, []⟩ ∧
      Stacked machine first (managedFiles (present.without (before ++ after))) fs₂ ∧
        ∀ path, Outside path → fs₂.lookup path = fs₁.lookup path := by
    rw [removePlugIn, InstallState.without]
    by_cases hempty : before ++ after = []
    · rw [hempty, List.map_nil, List.append_nil] at hbelow
      obtain ⟨fs₂, hcalm, hbare, hframe⟩ := Stacked.removeAll (s := ⟨fs₁, none, []⟩) hbelow
        (fun record hrecord => by
          obtain ⟨target, -, htarget⟩ := hwell.plugIn record hrecord
          exact ⟨target, htarget⟩) (hplugIn hempty) hwell.apart
      rw [if_pos hempty, if_pos hempty]
      exact ⟨fs₂, hcalm, hbare, hframe⟩
    · rw [if_neg hempty, if_neg hempty]
      exact ⟨fs₁, Script.Calmly.pure _ _, hbelow, fun _ _ => rfl⟩
  obtain ⟨fs₂, hplugInCalm, hrest, hframe₂⟩ := hplugInGone
  have hrecord : fs₂.lookup machine.statePath = some (.file (.state present)) := by
    rw [hframe₂ _ (outside_statePath machine), hframe₁ _ (outside_statePath machine)]
    exact h.record
  obtain ⟨fs₃, hsave, hsaved, hframe₃⟩ :=
    calmly_saveRemaining present (before ++ after) hrecord
  refine ⟨fs₃, ?_, ⟨hsaved, hrest.rewrite hframe₃, fun path hne houtside => ?_, ?_⟩⟩
  · rw [uninstallFFBInterceptor]
    apply (calmly_readRecord h).bind
    simp only [hfind, hremaining]
    exact hremove.bind (hplugInCalm.bind hsave)
  · rw [hframe₃ path hne, hframe₂ path houtside, hframe₁ path houtside]
    exact h.outside path hne houtside
  · intro left hleft
    rw [InstallState.without] at hleft
    split at hleft
    · cases hleft
    · next hsome =>
      obtain rfl := Option.some.inj hleft
      refine hwell.without hsome ?_ _
      rw [hgames]
      exact (List.sublist_cons_self game after).append_left before

theorem InstalledAll.destinations {setup : Setup γ} {targets : List Target} {journal : List ManagedFile}
    (h : InstalledAll setup fs targets journal fs') :
    journal.map ManagedFile.destination = targets.map Target.destination := by
  induction h with
  | nil => rfl
  | snoc hbefore hlast ih =>
    obtain ⟨content, -, hinstalled⟩ := hlast
    rw [List.map_append, List.map_append, ih, List.map_singleton, List.map_singleton, hinstalled.recorded]

theorem simHubTargets_plugIn (setup : Setup γ) (old : Option SimHubRecord) :
    (∀ target ∈ simHubTargets setup old, target.1 ≠ .proxy) ∧
      ((simHubTargets setup old).map Target.destination).Nodup := by
  unfold simHubTargets
  split
  next folder _ =>
    split
    · exact ⟨fun target htarget => absurd htarget List.not_mem_nil, List.nodup_nil⟩
    · constructor
      · intro target htarget
        cases List.mem_cons.mp htarget with
        | inl heq =>
          rw [heq]
          exact PackageFile.noConfusion
        | inr htail =>
          rw [List.mem_singleton.mp htail]
          exact PackageFile.noConfusion
      · refine List.nodup_cons.mpr ⟨fun hmem => ?_, List.nodup_singleton _⟩
        have hname : PackageFile.simHub.name = PackageFile.core.name :=
          congrArg Path.name (List.mem_singleton.mp hmem)
        exact absurd hname (by decide)
  next => exact ⟨fun target htarget => absurd htarget List.not_mem_nil, List.nodup_nil⟩

theorem destination_ne_proxyPath {target : Target} (h : target.1 ≠ .proxy) (gamePath : Path) :
    target.destination ≠ proxyPath gamePath := by
  intro heq
  have hname : target.1.name = PackageFile.proxy.name := congrArg Path.name heq
  cases hfile : target.1 with
  | proxy => exact h hfile
  | simHub => exact absurd (hfile ▸ hname) (by decide)
  | core => exact absurd (hfile ▸ hname) (by decide)

/-- At each target the order of proxies and files beside SimHub makes no difference. -/
theorem filter_plugIn {files proxies : List ManagedFile}
    (hfiles : ∀ record ∈ files, ∃ target : Target, target.1 ≠ .proxy ∧
      record.destination = target.destination)
    (hproxies : ∀ record ∈ proxies, ∃ gamePath, record.destination = proxyPath gamePath)
    (rest : List ManagedFile) (target : Target) :
    (files ++ (proxies ++ rest)).filter (fun record => record.destination = target.destination) =
      (proxies ++ (files ++ rest)).filter fun record => record.destination = target.destination := by
  have hnone : (files.filter fun record => record.destination = target.destination) = [] ∨
      (proxies.filter fun record => record.destination = target.destination) = [] := by
    by_cases hproxy : target.1 = .proxy
    · refine .inl (List.filter_eq_nil_iff.mpr fun record hrecord heq => ?_)
      obtain ⟨other, hother, hdestination⟩ := hfiles record hrecord
      have hpath : target.destination = proxyPath ⟨target.2, []⟩ := by
        rw [Target.destination, hproxy]
        rfl
      rw [decide_eq_true_eq, hdestination, hpath] at heq
      exact destination_ne_proxyPath hother _ heq
    · refine .inr (List.filter_eq_nil_iff.mpr fun record hrecord heq => ?_)
      obtain ⟨gamePath, hdestination⟩ := hproxies record hrecord
      rw [decide_eq_true_eq, hdestination] at heq
      exact destination_ne_proxyPath hproxy gamePath heq.symm
  rw [List.filter_append, List.filter_append, List.filter_append, List.filter_append]
  cases hnone with
  | inl hempty => rw [hempty, List.nil_append, List.nil_append]
  | inr hempty => rw [hempty, List.nil_append, List.nil_append]

theorem filesAfter_meets {script : PortableScript γ PUnit} {P : FileSystem (Content γ) → Prop}
    (h : Script.Ends script ⟨fs, none, []⟩ (fun _ s' => P s'.files) fun _ => True)
    (hafter : filesAfter script fs = some fs') : P fs' := by
  have hnone := h none
  rw [filesAfter] at hafter
  cases hout : script.outcome ⟨⟨fs, none, []⟩, none⟩ with
  | mk result w =>
    rw [hout] at hnone hafter
    cases result with
    | error refusal => cases hafter
    | ok _ =>
      obtain rfl := Option.some.inj hafter
      exact hnone

theorem filesAfter_of_calmly {script : PortableScript γ PUnit}
    (hcalm : Script.Calmly script ⟨fs, none, []⟩ (.ok ⟨⟩) ⟨fs', none, []⟩) :
    filesAfter script fs = some fs' := by
  rw [filesAfter, hcalm]

theorem installed_of_filesAfter {setup : Setup γ}
    (hplain : ∀ target ∈ targets setup fs, Plain setup fs target.destination)
    (hrecord : fs.isFolder setup.statePath = false)
    (h : filesAfter (installFFBInterceptor setup) fs = some fs') :
    ∃ fs₁ journal state, InstalledAll setup fs (targets setup fs) journal fs₁ ∧
      Updates setup fs journal state ∧ fs' = fs₁.insert setup.statePath (.file (.state state)) := by
  refine filesAfter_meets (P := fun after => ∃ fs₁ journal state,
    InstalledAll setup fs (targets setup fs) journal fs₁ ∧ Updates setup fs journal state ∧
      after = fs₁.insert setup.statePath (.file (.state state))) ?_ h
  have hfiles := ends_installFiles (s := ⟨fs, none, []⟩) rfl hplain
  apply (hfiles.weaken (fun _ _ h => h) fun _ _ => trivial).bind
  intro state s' hdone
  obtain ⟨hrest, hundoable, hupdates⟩ := hdone
  refine (ends_saveInstallState (s := s') ?_ ?_).weaken (fun _ s'' hsaved => ?_) fun _ h => h
  · rw [isFolder_congr hundoable.statePath]
    exact hrecord
  · intro label hlabel
    rw [hrest] at hlabel
    cases hlabel
  · exact ⟨s'.files, s'.journal, state, hundoable, hupdates, hsaved⟩

theorem journal_destinations {setup : Setup γ} {fs₁ : FileSystem (Content γ)} {files : List ManagedFile}
    {proxy : ManagedFile} (h : InstalledAll setup fs (targets setup fs) (files ++ [proxy]) fs₁) :
    proxy.destination = proxyPath setup.gamePath ∧
      files.map ManagedFile.destination =
        (simHubTargets setup ((readState setup fs).bind InstallState.simHub)).map
          Target.destination := by
  have hall := h.destinations
  rw [targets, List.map_append, List.map_append, List.map_singleton, List.map_singleton] at hall
  obtain ⟨hfiles, hproxy⟩ := List.append_inj' hall rfl
  exact ⟨List.singleton_injective hproxy, hfiles⟩

def filesOf (simHub : Option SimHubRecord) : List ManagedFile := (simHub.map SimHubRecord.files).getD []

theorem managedFiles_eq (recorded : Option InstallState) : managedFiles recorded =
    filesOf (recorded.bind InstallState.simHub) ++ (gamesOf recorded).map GameRecord.proxy := by
  cases recorded <;> rfl

theorem Registers.files_eq {old simHub : Option SimHubRecord} {files : List ManagedFile}
    (h : Registers old simHub files) :
    filesOf simHub = filesOf old ++ files ∧ (files = [] ∨ filesOf old = []) := by
  cases h with
  | inl hkept =>
    rw [hkept.1, hkept.2, List.append_nil]
    exact ⟨rfl, .inl rfl⟩
  | inr hnew =>
    obtain ⟨hold, installPath, hsimHub⟩ := hnew
    rw [hold, hsimHub]
    exact ⟨rfl, .inr rfl⟩

structure WellKept (recorded : Option InstallState) : Prop where
  distinct : ((gamesOf recorded).map GameRecord.gameExecutable).Nodup
  proxies : ∀ game ∈ gamesOf recorded, game.proxy.destination = proxyPath game.gameExecutable
  plugIn : ∀ record ∈ filesOf (recorded.bind InstallState.simHub), ∃ target : Target,
    target.1 ≠ .proxy ∧ record.destination = target.destination
  apart : ((filesOf (recorded.bind InstallState.simHub)).map ManagedFile.destination).Nodup

theorem Managed.wellKept (h : Managed machine first recorded fs) : WellKept recorded := by
  cases recorded with
  | none =>
    exact ⟨List.nodup_nil, fun _ hmem => absurd hmem List.not_mem_nil,
      fun _ hmem => absurd hmem List.not_mem_nil, List.nodup_nil⟩
  | some present =>
    have hwell := h.wellFormed present rfl
    exact ⟨hwell.distinct, hwell.proxies, hwell.plugIn, hwell.apart⟩

theorem Managed.install {setup : Setup γ} (h : Managed machine first recorded fs)
    (hplain : ∀ target ∈ targets (machine.on setup) fs, Plain (machine.on setup) fs target.destination)
    (hafter : filesAfter (installFFBInterceptor (machine.on setup)) fs = some fs') :
    ∃ present, Managed machine first (some present) fs' := by
  have hrecord : fs.isFolder machine.statePath = false := by
    rw [FileSystem.isFolder, FileSystem.testPath, FileSystem.testLeaf, FileSystem.read, h.record]
    cases recorded <;> rfl
  have hread : readState (machine.on setup) fs = recorded := h.read
  obtain ⟨fs₁, journal, state, hinstalled, hupdates, rfl⟩ :=
    installed_of_filesAfter hplain hrecord hafter
  obtain ⟨hnew, simHub, files, proxy, rfl, hregisters, rfl⟩ := hupdates
  obtain ⟨hproxy, hfiles⟩ := journal_destinations hinstalled
  obtain ⟨hnotProxy, hnodup⟩ := simHubTargets_plugIn (machine.on setup)
    ((readState (machine.on setup) fs).bind InstallState.simHub)
  have hplugIn : ∀ record ∈ files, ∃ target : Target, target.1 ≠ .proxy ∧
      record.destination = target.destination := by
    intro record hmem
    have hdestination : record.destination ∈ files.map ManagedFile.destination :=
      List.mem_map_of_mem hmem
    rw [hfiles] at hdestination
    obtain ⟨target, htarget, heq⟩ := List.mem_map.mp hdestination
    exact ⟨target, hnotProxy target htarget, heq.symm⟩
  rw [← hfiles] at hnodup
  have hgames : existingGames (machine.on setup) fs = gamesOf recorded := by
    rw [existingGames, hread, gamesOf]
  rw [hread] at hregisters
  rw [hgames] at hnew ⊢
  have hkept := h.wellKept
  obtain ⟨hsimHub, hone⟩ := hregisters.files_eq
  have hframe : ∀ path ≠ machine.statePath, (fs₁.insert machine.statePath (.file (.state
      ⟨1, setup.now, simHub, gamesOf recorded ++ [⟨setup.gamePath, setup.architecture, proxy⟩]⟩))).lookup
        path = fs₁.lookup path := fun path hpath => Finmap.lookup_insert_of_ne _ hpath
  refine ⟨_, ⟨Finmap.lookup_insert _, ?_, fun path hne houtside => ?_, ?_⟩⟩
  · have hstacked : Stacked machine first _ fs₁ := h.stacked.installAll hinstalled
    refine Stacked.rewrite (fun target => ?_) hframe
    have htarget := hstacked target
    have hproxies : ∀ record ∈ (gamesOf recorded).map GameRecord.proxy, ∃ gamePath,
        record.destination = proxyPath gamePath := by
      intro record hmem
      obtain ⟨game, hgame, rfl⟩ := List.mem_map.mp hmem
      exact ⟨game.gameExecutable, hkept.proxies game hgame⟩
    have hsame := filter_plugIn hplugIn hproxies [proxy] target
    rw [managedFiles_eq, List.append_assoc, List.filter_append, ← hsame, ← List.filter_append,
      ← List.append_assoc, ← hsimHub] at htarget
    rw [managedFiles, List.map_append, List.map_singleton]
    exact htarget
  · refine (hframe path hne).trans ?_
    rw [hinstalled.frame fun target _ => houtside target]
    exact h.outside path hne houtside
  · intro present hpresent
    obtain rfl := Option.some.inj hpresent
    refine ⟨?_, List.append_ne_nil_of_right_ne_nil _ (List.cons_ne_nil _ _), ?_, ?_, ?_⟩
    · rw [List.map_append, List.map_singleton]
      refine List.nodup_append.mpr
        ⟨hkept.distinct, List.nodup_singleton _, fun path hpath other hother => ?_⟩
      obtain ⟨game, hgame, rfl⟩ := List.mem_map.mp hpath
      rw [List.mem_singleton.mp hother]
      exact hnew game hgame
    · intro game hgame
      cases List.mem_append.mp hgame with
      | inl hold => exact hkept.proxies game hold
      | inr hlast =>
        rw [List.mem_singleton.mp hlast]
        exact hproxy
    · intro record hmem
      change record ∈ filesOf simHub at hmem
      rw [hsimHub] at hmem
      cases List.mem_append.mp hmem with
      | inl hold => exact hkept.plugIn record hold
      | inr hlast => exact hplugIn record hlast
    · change ((filesOf simHub).map ManagedFile.destination).Nodup
      rw [hsimHub]
      cases hone with
      | inl hempty =>
        rw [hempty, List.append_nil]
        exact hkept.apart
      | inr hempty =>
        rw [hempty, List.nil_append]
        exact hnodup

end Invariant

section Runs

/-- What a step must find for the files to come back. An installation meets no folder at its
destinations and nothing in the place of its copies; a removal is that of the latest game of its folder,
and what is taken away has been put in by the package. -/
def Action.Careful (machine : Machine γ) : Action γ → FileSystem (Content γ) → Prop
  | .install setup, fs =>
    ∀ target ∈ targets (machine.on setup) fs, Plain (machine.on setup) fs target.destination
  | .uninstall gamePath, fs =>
    ∀ before game after, gamesOf (machine.state fs) = before ++ game :: after →
      game.gameExecutable = gamePath → game.proxy.changed ∧
        (∀ later ∈ after, later.gameExecutable.folder ≠ gamePath.folder) ∧
          (before ++ after = [] →
            ∀ record ∈ filesOf ((machine.state fs).bind InstallState.simHub), record.changed)

/-- Successful steps from files without a record on. -/
inductive Run (machine : Machine γ) (first : FileSystem (Content γ)) :
    List (Action γ) → FileSystem (Content γ) → Prop
  | start : first.lookup machine.statePath = none → Run machine first [] first
  | step {actions : List (Action γ)} {action : Action γ} {fs fs' : FileSystem (Content γ)} :
      Run machine first actions fs → action.Careful machine fs → action.perform machine fs = some fs' →
        Run machine first (actions ++ [action]) fs'

structure RoundTrip (machine : Machine γ) (first fs fs' : FileSystem (Content γ)) (gamePath : Path) :
    Prop where
  games : gamesOf (machine.state fs') =
    (gamesOf (machine.state fs)).filter fun game => game.gameExecutable ≠ gamePath
  restored : (∀ game ∈ gamesOf (machine.state fs'), game.gameExecutable.folder ≠ gamePath.folder) →
    fs'.lookup (proxyPath gamePath) = first.lookup (proxyPath gamePath)
  inPlace : (∃ game ∈ gamesOf (machine.state fs'), game.gameExecutable.folder = gamePath.folder) →
    ∃ user ∈ gamesOf (machine.state fs'), user.gameExecutable.folder = gamePath.folder ∧
      ∃ content, fs'.read (proxyPath gamePath) = some content ∧
        machine.sha256 content = user.proxy.installedSha256
  last : gamesOf (machine.state fs') = [] → fs' = first

variable {first fs fs' : FileSystem (Content γ)} {actions : List (Action γ)} {gamePath : Path}
  {recorded : Option InstallState} {action : Action γ}

theorem ends_of_holds {α : Type} {m : PortableScript γ α} {s : State γ} {P : Prop} (h : P) :
    Script.Ends m s (fun _ _ => P) fun _ => True := by
  intro n
  cases hout : m.outcome ⟨s, n⟩ with
  | mk result w =>
    cases result with
    | ok _ => exact h
    | error _ => exact trivial

theorem managed_of_uninstall (h : Managed machine first recorded fs)
    (hafter : (Action.uninstall gamePath).perform machine fs = some fs') :
    ∃ present before game after, recorded = some present ∧ present.games = before ++ game :: after ∧
      game.gameExecutable = gamePath := by
  refine @filesAfter_meets γ fs fs' _ (fun _ => _) ?_ hafter
  have hread : Script.Ends (readRecord machine) ⟨fs, none, []⟩
      (fun present _ => recorded = some present) fun _ => True := by
    refine (reads_refuseIf _ _).ends_bind trivial fun _ => ?_
    apply ends_ask
    have hstate := h.read
    rw [Machine.state] at hstate
    split
    next present hpresent =>
      rw [hpresent] at hstate
      exact Script.Ends.pure _ hstate.symm
    next => exact Script.Ends.throw _ trivial
  apply hread.bind
  intro present s' hpresent
  cases hfind : present.gameRecord gamePath with
  | none => exact Script.Ends.throw _ trivial
  | some game =>
    obtain ⟨hgame, before, after, hgames, -⟩ := List.find?_eq_some_iff_append.mp hfind
    exact ends_of_holds ⟨present, before, game, after, hpresent, hgames, of_decide_eq_true hgame⟩

theorem Managed.careful_uninstall (h : Managed machine first recorded fs)
    (hcareful : (Action.uninstall gamePath).Careful machine fs)
    (hafter : (Action.uninstall gamePath).perform machine fs = some fs') :
    ∃ present, recorded = some present ∧
      Managed machine first (present.without (present.remainingGames gamePath)) fs' := by
  obtain ⟨present, before, game, after, rfl, hgames, hgame⟩ := managed_of_uninstall h hafter
  rw [Action.Careful, h.read] at hcareful
  obtain ⟨hchanged, hlatest, hplugIn⟩ := hcareful before game after hgames hgame
  obtain ⟨fs'', hcalm, hmanaged⟩ := h.uninstall hgames hgame hchanged hlatest hplugIn
  rw [Action.perform, filesAfter_of_calmly hcalm] at hafter
  obtain rfl := Option.some.inj hafter
  rw [← ((h.wellFormed present rfl).split hgames hgame).2] at hmanaged
  exact ⟨present, rfl, hmanaged⟩

/-- One step of a run. -/
theorem Managed.step (h : Managed machine first recorded fs) (hcareful : action.Careful machine fs)
    (hafter : action.perform machine fs = some fs') :
    ∃ recorded', Managed machine first recorded' fs' := by
  cases action with
  | install setup =>
    obtain ⟨present, hmanaged⟩ := h.install hcareful hafter
    exact ⟨_, hmanaged⟩
  | uninstall gamePath =>
    obtain ⟨present, -, hmanaged⟩ := h.careful_uninstall hcareful hafter
    exact ⟨_, hmanaged⟩

theorem Run.managed (h : Run machine first actions fs) :
    first.lookup machine.statePath = none ∧ ∃ recorded, Managed machine first recorded fs := by
  induction h with
  | start hfirst =>
    refine ⟨hfirst, none, hfirst, fun target => .bare fun _ _ => rfl, fun _ _ _ => rfl, ?_⟩
    intro present hpresent
    cases hpresent
  | step hrun hcareful hafter ih =>
    obtain ⟨hfirst, recorded, hmanaged⟩ := ih
    exact ⟨hfirst, hmanaged.step hcareful hafter⟩

theorem Managed.proxy_inPlace {user : GameRecord} (h : Managed machine first recorded fs)
    (hmem : user ∈ gamesOf recorded) (hfolder : user.gameExecutable.folder = gamePath.folder) :
    ∃ user ∈ gamesOf recorded, user.gameExecutable.folder = gamePath.folder ∧
      ∃ content, fs.read (proxyPath gamePath) = some content ∧
        machine.sha256 content = user.proxy.installedSha256 := by
  have hkept := h.wellKept
  have hlayers := h.stacked (.proxy, gamePath.folder)
  have hhere : user.proxy ∈ (managedFiles recorded).filter fun record =>
      record.destination = Target.destination (.proxy, gamePath.folder) := by
    rw [managedFiles_eq]
    refine List.mem_filter.mpr ⟨List.mem_append_right _ (List.mem_map_of_mem hmem), decide_eq_true ?_⟩
    rw [hkept.proxies user hmem, proxyPath, hfolder]
  generalize hrecords : (managedFiles recorded).filter _ = records at hlayers hhere
  cases List.eq_nil_or_concat records with
  | inl hempty => exact absurd (hempty ▸ hhere) List.not_mem_nil
  | inr hsome =>
    obtain ⟨below, top, rfl⟩ := hsome
    rw [List.concat_eq_append] at hlayers hrecords
    obtain ⟨content, hread, hhash⟩ := Layers.inPlace hlayers
    have htop : top ∈ below ++ [top] := List.mem_append_right _ (List.mem_singleton_self top)
    rw [← hrecords, managedFiles_eq] at htop
    obtain ⟨hmem', hdestination⟩ := List.mem_filter.mp htop
    rw [decide_eq_true_eq] at hdestination
    cases List.mem_append.mp hmem' with
    | inl hplugIn =>
      obtain ⟨target, htarget, heq⟩ := hkept.plugIn top hplugIn
      exact absurd (heq.symm.trans hdestination) (destination_ne_proxyPath htarget gamePath)
    | inr hproxy =>
      obtain ⟨game, hgame, rfl⟩ := List.mem_map.mp hproxy
      have hfolder' := congrArg Path.folder ((hkept.proxies game hgame).symm.trans hdestination)
      exact ⟨game, hgame, hfolder', content, hread, hhash⟩

/-- Where no managed game uses a folder its proxy is what was there first. -/
theorem Managed.proxy_restored (h : Managed machine first recorded fs)
    (hnone : ∀ game ∈ gamesOf recorded, game.gameExecutable.folder ≠ gamePath.folder) :
    fs.lookup (proxyPath gamePath) = first.lookup (proxyPath gamePath) := by
  have hkept := h.wellKept
  have hlayers := h.stacked (.proxy, gamePath.folder)
  have hempty : ((managedFiles recorded).filter fun record =>
      record.destination = Target.destination (.proxy, gamePath.folder)) = [] := by
    refine List.filter_eq_nil_iff.mpr fun record hrecord heq => ?_
    rw [decide_eq_true_eq] at heq
    rw [managedFiles_eq] at hrecord
    cases List.mem_append.mp hrecord with
    | inl hplugIn =>
      obtain ⟨target, htarget, hdestination⟩ := hkept.plugIn record hplugIn
      exact destination_ne_proxyPath htarget gamePath (hdestination.symm.trans heq)
    | inr hproxy =>
      obtain ⟨game, hgame, rfl⟩ := List.mem_map.mp hproxy
      have hfolder := congrArg Path.folder ((hkept.proxies game hgame).symm.trans heq)
      exact hnone game hgame hfolder
  rw [hempty] at hlayers
  exact hlayers.agree_of_nil _ (.inl rfl)

theorem gamesOf_without (present : InstallState) (remaining : List GameRecord) :
    gamesOf (present.without remaining) = remaining := by
  rw [InstallState.without]
  split
  next hempty => exact hempty.symm
  next => rfl

/-- After a run of careful steps a careful removal gives back what it should, and the last one
everything. -/
theorem portable_round_trip (hrun : Run machine first actions fs)
    (hcareful : (Action.uninstall gamePath).Careful machine fs)
    (hafter : (Action.uninstall gamePath).perform machine fs = some fs') :
    RoundTrip machine first fs fs' gamePath := by
  obtain ⟨hfirst, recorded, hmanaged⟩ := hrun.managed
  obtain ⟨present, rfl, hafterwards⟩ := hmanaged.careful_uninstall hcareful hafter
  have hgames : gamesOf (machine.state fs') = present.remainingGames gamePath := by
    rw [hafterwards.read, gamesOf_without]
  have hread : Managed machine first (machine.state fs') fs' := by
    rw [hafterwards.read]
    exact hafterwards
  refine ⟨?_, hread.proxy_restored, fun huser => ?_, fun hempty => ?_⟩
  · rw [hgames, hmanaged.read]
    rfl
  · obtain ⟨user, hmem, hfolder⟩ := huser
    exact hread.proxy_inPlace hmem hfolder
  · rw [hgames] at hempty
    rw [hempty] at hafterwards
    exact hafterwards.eq_first hfirst

def Action.isCareful (machine : Machine γ) (fs : FileSystem (Content γ)) : Action γ → Bool
  | .install setup => (targets (machine.on setup) fs).all fun target =>
      !fs.isFolder target.destination &&
        (fs.lookup (temporaryFile (machine.on setup) target.destination)).isNone
  | .uninstall gamePath =>
    let games := gamesOf (machine.state fs)
    (List.range games.length).all fun n => (games.drop n).head?.all fun game =>
      game.gameExecutable ≠ gamePath || (game.proxy.changed &&
        (games.drop (n + 1)).all (fun later => later.gameExecutable.folder ≠ gamePath.folder) &&
          (games.take n ++ games.drop (n + 1) ≠ [] ||
            (filesOf ((machine.state fs).bind InstallState.simHub)).all ManagedFile.changed))

theorem careful_of_isCareful (h : action.isCareful machine fs = true) : action.Careful machine fs := by
  cases action with
  | install setup =>
    intro target hmem
    have htarget := List.all_eq_true.mp h target hmem
    rw [Bool.and_eq_true, Bool.not_eq_true', Option.isNone_iff_eq_none] at htarget
    exact ⟨htarget.1, htarget.2⟩
  | uninstall gamePath =>
    intro before game after hgames hgame
    have hlength : before.length < (gamesOf (machine.state fs)).length := by
      rw [hgames, List.length_append, List.length_cons]
      omega
    have hhere := List.all_eq_true.mp h before.length (List.mem_range.mpr hlength)
    have hafter : (gamesOf (machine.state fs)).drop (before.length + 1) = after := by
      rw [hgames, ← List.drop_drop, List.drop_left]
      rfl
    rw [hafter, hgames, List.drop_left, List.take_left] at hhere
    simp only [List.head?_cons, Option.all_some, hgame, ne_eq, not_true_eq_false, decide_false,
      Bool.false_or, Bool.and_eq_true, Bool.or_eq_true, List.all_eq_true, decide_eq_true_eq] at hhere
    obtain ⟨⟨hchanged, hlatest⟩, hplugIn⟩ := hhere
    exact ⟨hchanged, hlatest, fun hempty => hplugIn.resolve_left fun hne => hne hempty⟩

def performCarefully (machine : Machine γ) (actions : List (Action γ)) (fs : FileSystem (Content γ)) :
    Option (FileSystem (Content γ)) :=
  actions.foldlM (fun fs action =>
    if action.isCareful machine fs then action.perform machine fs else none) fs

theorem run_of_performCarefully (hfirst : first.lookup machine.statePath = none)
    (h : performCarefully machine actions first = some fs) : Run machine first actions fs := by
  induction actions using List.reverseRecOn generalizing fs with
  | nil =>
    obtain rfl := Option.some.inj h
    exact .start hfirst
  | append_singleton actions action ih =>
    rw [performCarefully, List.foldlM_append, Option.bind_eq_bind, Option.bind_eq_some_iff] at h
    obtain ⟨before, hbefore, hlast⟩ := h
    rw [List.foldlM_cons, Option.bind_eq_bind, Option.bind_eq_some_iff] at hlast
    obtain ⟨after, hafter, hsame⟩ := hlast
    obtain rfl := Option.some.inj hsame
    split at hafter
    · next hcareful => exact .step (ih hbefore) (careful_of_isCareful hcareful) hafter
    · cases hafter

end Runs

section Samples

def sampleMachine : Machine Nat where
  digest := sampleDigest
  torn := none
  stateDirectory := sampleSetup.stateDirectory

def sampleInstall : Action Nat := .install sampleSetup

def sampleUninstall : Action Nat := .uninstall sampleSetup.gamePath

/-- Two games, the first with another `dinput8.dll` beside it, and SimHub with an older plug-in. -/
def twoGameFiles : FileSystem (Content Nat) :=
  ((sampleFiles.insert (proxyPath sampleSetup.gamePath) (.file (.bytes 7))).insert
    ⟨["Other".toList], "other.exe".toList⟩ (.file (.bytes 9))).insert
      ⟨["SimHub".toList], PackageFile.core.name⟩ (.file (.bytes 6))

def otherPath : Path := ⟨["Other".toList], "other.exe".toList⟩

/-- Both games are installed, the first of them with SimHub, and the first is removed. -/
def twoGameActions : List (Action Nat) :=
  [.install { sampleSetup with skipSimHub := false },
    .install { sampleSetup with gamePath := otherPath }, sampleUninstall]

/-- The last removal gives everything back. -/
theorem two_games_round_trip : ∃ fs fs', Run sampleMachine twoGameFiles twoGameActions fs ∧
    (Action.uninstall otherPath).perform sampleMachine fs = some fs' ∧
      RoundTrip sampleMachine twoGameFiles fs fs' otherPath ∧ fs' = twoGameFiles := by
  have hdone : ((performCarefully sampleMachine twoGameActions twoGameFiles).bind fun fs =>
      if (Action.uninstall otherPath).isCareful sampleMachine fs then
        (Action.uninstall otherPath).perform sampleMachine fs else none).map
          (fun fs => gamesOf (sampleMachine.state fs)) = some [] := by decide +kernel
  obtain ⟨fs', hboth, hgames⟩ := Option.map_eq_some_iff.mp hdone
  obtain ⟨fs, hrun, hlast⟩ := Option.bind_eq_some_iff.mp hboth
  split at hlast
  · next hcareful =>
    have htrip := portable_round_trip (run_of_performCarefully (by decide +kernel) hrun)
      (careful_of_isCareful hcareful) hlast
    exact ⟨fs, fs', run_of_performCarefully (by decide +kernel) hrun, hlast, htrip, htrip.last hgames⟩
  · cases hlast

/-- The folder of the game before, with the proxy of the package already in it. -/
def identicalFiles : FileSystem (Content Nat) :=
  sampleFiles.insert (proxyPath sampleSetup.gamePath) (.file (.bytes 3))

/-- The proxy that was there before the installation is gone after the removal. -/
theorem identical_proxy_lost :
    identicalFiles.lookup (proxyPath sampleSetup.gamePath) = some (.file (.bytes 3)) ∧
      ((sampleInstall.perform sampleMachine identicalFiles).bind
        (sampleUninstall.perform sampleMachine)).map
          (fun fs => fs.lookup (proxyPath sampleSetup.gamePath)) = some none := by
  constructor
  · exact Finmap.lookup_insert _
  · decide +kernel

end Samples

end FfbInterceptor.Installer.Portable
