import FfbInterceptor.Manager.IntegrityExact

/-! The read lock on a package is complete or absent. -/
namespace FfbInterceptor.Manager
open FfbInterceptor.Launcher

section Handles

variable {system : System} {world : World} {request : OpenRequest} {candidate : Handle}

theorem close_live (handle : Handle) :
    (world.close handle).live = world.live.filter (· ≠ handle) := rfl

theorem createFile_some {after : World}
    (h : world.createFile system request = (some candidate, after)) :
    candidate = ⟨world.attempts, request⟩ ∧ after.live = candidate :: world.live ∧
      after.attempts = world.attempts + 1 ∧ (after.close candidate).live = world.live := by
  rw [World.createFile] at h
  split at h
  · obtain ⟨hcandidate, hafter⟩ := Prod.mk.inj h
    obtain rfl := Option.some.inj hcandidate
    subst hafter
    refine ⟨rfl, rfl, rfl, ?_⟩
    have hothers : ∀ handle ∈ world.live, decide (handle ≠ ⟨world.attempts, request⟩) = true := by
      intro handle hmem
      refine decide_eq_true fun heq => ?_
      have hless := world.fresh handle hmem
      rw [heq] at hless
      exact Nat.lt_irrefl _ hless
    rw [close_live]
    exact (List.filter_cons_of_neg (by simp)).trans (List.filter_eq_self.mpr hothers)
  · cases h

theorem createFile_none {after : World} (h : world.createFile system request = (none, after)) :
    after.live = world.live ∧ after.attempts = world.attempts + 1 := by
  rw [World.createFile] at h
  split at h
  · cases h
  · obtain ⟨-, rfl⟩ := Prod.mk.inj h
    exact ⟨rfl, rfl⟩

/-- The same handles are live, after any number of attempts. -/
def SameLive (before after : World) : Prop :=
  after.live = before.live ∧ before.attempts ≤ after.attempts

theorem openRegularFile_live (path : WString) :
    (∃ after, openRegularFile system world path = (none, after) ∧ SameLive world after) ∨
    ∃ candidate after, openRegularFile system world path = (some candidate, after) ∧
      SameLive world (after.close candidate) := by
  cases hcreate : world.createFile system ⟨path, true, true, true, false⟩ with
  | mk opened after =>
    cases opened with
    | none =>
      obtain ⟨hlive, hattempts⟩ := createFile_none hcreate
      refine Or.inl ⟨after, ?_, hlive, by omega⟩
      simp only [openRegularFile, hcreate]
    | some candidate =>
      obtain ⟨-, -, hattempts, hclosed⟩ := createFile_some hcreate
      have hsame : SameLive world (after.close candidate) := ⟨hclosed, by simp [World.close]; omega⟩
      cases hinformation : system.fileInformation candidate with
      | none =>
        refine Or.inl ⟨after.close candidate, ?_, hsame⟩
        simp only [openRegularFile, hcreate, hinformation]
      | some attributes =>
        by_cases hkind : (attributes.directory || attributes.reparsePoint) = true
        · refine Or.inl ⟨after.close candidate, ?_, hsame⟩
          simp only [openRegularFile, hcreate, hinformation, hkind, ↓reduceIte]
        · refine Or.inr ⟨candidate, after, ?_, hsame⟩
          simp only [openRegularFile, hcreate, hinformation, hkind, Bool.false_eq_true, ↓reduceIte]

theorem readFileLimited_live (path : WString) (limit : Nat) :
    SameLive world (readFileLimited system world path limit).2 := by
  obtain ⟨after, hopen, hsame⟩ | ⟨candidate, after, hopen, hsame⟩ :=
    @openRegularFile_live system world path
  · simpa only [readFileLimited, hopen] using hsame
  · simp only [readFileLimited, hopen]
    split
    · exact hsame
    · split
      · exact hsame
      · split
        · exact hsame
        · exact hsame

theorem closeAll_live (handles : List Handle) :
    (world.closeAll handles).live = world.live.filter (· ∉ handles) ∧
      (world.closeAll handles).attempts = world.attempts := by
  induction handles generalizing world with
  | nil =>
    refine ⟨?_, rfl⟩
    simp [World.closeAll]
  | cons handle handles ih =>
    obtain ⟨hlive, hattempts⟩ := @ih (world.close handle)
    refine ⟨?_, hattempts⟩
    have hstep : (world.closeAll (handle :: handles)).live =
        ((world.close handle).closeAll handles).live := rfl
    rw [hstep, hlive, close_live, List.filter_filter]
    refine List.filter_congr fun other _ => ?_
    simp [Bool.and_comm]

end Handles

section Extension

variable {system : System}

/-- A handle of the lock that keeps what it stands for from being replaced. -/
structure Held (system : System) (lockedRoot : WString) (handle : Handle) : Prop where
  unshared : handle.request.sharesWriting = false ∧ handle.request.sharesDeletion = false
  kind : ∃ information, system.fileInformation handle = some information ∧
    information.reparsePoint = false ∧ information.directory = handle.request.backupSemantics
  inside : ∃ finalPath, finalPathForHandle system handle = some finalPath ∧
    pathWithinOrEqual finalPath lockedRoot = true

/-- The lock has got more handles, all of them live and held, and nothing else is open. -/
structure Extended (system : System) (before after : Locking) (more : List Handle) : Prop where
  handles : after.handles = before.handles ++ more
  live : after.world.live = more.reverse ++ before.world.live
  attempts : before.world.attempts ≤ after.world.attempts
  numbers : ∀ handle ∈ more, before.world.attempts ≤ handle.number
  root : after.lockedRoot = before.lockedRoot
  held : ∀ handle ∈ more, Held system before.lockedRoot handle

variable {before between after : Locking} {more others : List Handle}

theorem Extended.refl (locking : Locking) : Extended system locking locking [] :=
  ⟨(List.append_nil _).symm, rfl, Nat.le_refl _, nofun, rfl, nofun⟩

theorem Extended.append (h : Extended system before between more)
    (hothers : Extended system between after others) :
    Extended system before after (more ++ others) := by
  refine ⟨?_, ?_, h.attempts.trans hothers.attempts, ?_, hothers.root.trans h.root, ?_⟩
  · rw [hothers.handles, h.handles, List.append_assoc]
  · rw [hothers.live, h.live, List.reverse_append, List.append_assoc]
  · intro handle hmem
    cases List.mem_append.mp hmem with
    | inl hin => exact h.numbers handle hin
    | inr hin => exact h.attempts.trans (hothers.numbers handle hin)
  · intro handle hmem
    cases List.mem_append.mp hmem with
    | inl hin => exact h.held handle hin
    | inr hin => exact h.root ▸ hothers.held handle hin

theorem Extended.of_sameLive {world : World} (h : SameLive before.world world) :
    Extended system before { before with world } [] :=
  ⟨(List.append_nil _).symm, h.1, h.2, nofun, rfl, nofun⟩

theorem Extended.clear (h : Extended system before after more) (hempty : before.handles = []) :
    after.clear.handles = [] ∧ after.clear.world.live = before.world.live := by
  refine ⟨rfl, ?_⟩
  have hhandles : after.handles = more := by rw [h.handles, hempty, List.nil_append]
  rw [Locking.clear, (closeAll_live after.handles).1, h.live, hhandles, List.filter_append]
  have hmore : more.reverse.filter (· ∉ more) = [] := by
    rw [List.filter_eq_nil_iff]
    simp
  have hothers : before.world.live.filter (· ∉ more) = before.world.live := by
    refine List.filter_eq_self.mpr fun handle hmem => decide_eq_true fun hin => ?_
    have hold := before.world.fresh handle hmem
    have hnew := h.numbers handle hin
    omega
  rw [hmore, hothers, List.nil_append]

end Extension

section Paths

variable {system : System} {locking : Locking} {path : WString} {directory : Bool}

theorem lockPath_inside : ∃ more,
    Extended system locking (lockPath system locking path directory true).locking more ∧
    ((lockPath system locking path directory true).error = none →
      more.map Handle.request = [lockRequest path directory]) := by
  rw [lockPath]
  cases hcreate : locking.world.createFile system (lockRequest path directory) with
  | mk opened after =>
    cases opened with
    | none =>
      obtain ⟨hlive, hattempts⟩ := createFile_none hcreate
      exact ⟨[], .of_sameLive ⟨hlive, by omega⟩, fun h => absurd h (Option.some_ne_none _)⟩
    | some candidate =>
      obtain ⟨hcandidate, hlive, hattempts, hclosed⟩ := createFile_some hcreate
      have hfailed : Extended system locking { locking with world := after.close candidate } [] :=
        .of_sameLive ⟨hclosed, by simp [World.close]; omega⟩
      dsimp only
      cases hinformation : system.fileInformation candidate with
      | none => exact ⟨[], hfailed, fun h => absurd h (Option.some_ne_none _)⟩
      | some information =>
        dsimp only
        split
        · exact ⟨[], hfailed, fun h => absurd h (Option.some_ne_none _)⟩
        · next hkind =>
          simp only [Bool.or_eq_true, decide_eq_true_eq, not_or, not_not, Bool.not_eq_true] at hkind
          cases hfinal : finalPathForHandle system candidate with
          | none => exact ⟨[], hfailed, fun h => absurd h (Option.some_ne_none _)⟩
          | some finalPath =>
            dsimp only
            rw [if_pos rfl]
            split
            · exact ⟨[], hfailed, fun h => absurd h (Option.some_ne_none _)⟩
            · next hinside =>
              simp only [Bool.or_eq_true, Bool.not_eq_true', not_or, Bool.not_eq_false] at hinside
              refine ⟨[candidate], ⟨rfl, hlive, ?_, ?_, rfl, ?_⟩, fun _ => by rw [hcandidate]; rfl⟩
              · exact hattempts ▸ Nat.le_succ _
              · intro handle hmem
                rw [List.mem_singleton.mp hmem, hcandidate]
              · intro handle hmem
                rw [List.mem_singleton.mp hmem]
                refine ⟨?_, ⟨information, hinformation, hkind.1, ?_⟩, finalPath, hfinal, hinside.2⟩
                · rw [hcandidate]
                  exact ⟨rfl, rfl⟩
                · rw [hcandidate]
                  exact hkind.2

theorem pathWithinOrEqual_self (path : WString) : pathWithinOrEqual path path = true := by
  rw [pathWithinOrEqual, Bool.or_eq_true]
  exact Or.inl (decide_eq_true rfl)

theorem lockPath_root :
    let locked := lockPath system locking path true false
    (locked.error ≠ none → Extended system locking locked.locking []) ∧
    (locked.error = none → ∃ handle lockedRoot, handle.request = lockRequest path true ∧
      pathIsAbsoluteLocal system.getDriveType lockedRoot = true ∧
      finalPathForHandle system handle = some lockedRoot ∧
      Extended system { locking with lockedRoot } locked.locking [handle]) := by
  intro locked
  have hlocked : locked = lockPath system locking path true false := rfl
  clear_value locked
  rw [lockPath] at hlocked
  cases hcreate : locking.world.createFile system (lockRequest path true) with
  | mk opened after =>
    rw [hcreate] at hlocked
    cases opened with
    | none =>
      obtain ⟨hlive, hattempts⟩ := createFile_none hcreate
      subst hlocked
      exact ⟨fun _ => .of_sameLive ⟨hlive, by omega⟩, fun h => absurd h (Option.some_ne_none _)⟩
    | some candidate =>
      obtain ⟨hcandidate, hlive, hattempts, hclosed⟩ := createFile_some hcreate
      have hfailed : Extended system locking { locking with world := after.close candidate } [] :=
        .of_sameLive ⟨hclosed, by simp [World.close]; omega⟩
      dsimp only at hlocked
      cases hinformation : system.fileInformation candidate with
      | none =>
        rw [hinformation] at hlocked
        subst hlocked
        exact ⟨fun _ => hfailed, fun h => absurd h (Option.some_ne_none _)⟩
      | some information =>
        rw [hinformation] at hlocked
        dsimp only at hlocked
        split at hlocked
        · subst hlocked
          exact ⟨fun _ => hfailed, fun h => absurd h (Option.some_ne_none _)⟩
        · next hkind =>
          rw [Bool.or_eq_true, not_or, decide_eq_true_eq, not_not, Bool.not_eq_true] at hkind
          cases hfinal : finalPathForHandle system candidate with
          | none =>
            rw [hfinal] at hlocked
            subst hlocked
            exact ⟨fun _ => hfailed, fun h => absurd h (Option.some_ne_none _)⟩
          | some finalPath =>
            rw [hfinal] at hlocked
            dsimp only at hlocked
            rw [if_neg Bool.false_ne_true] at hlocked
            split at hlocked
            · subst hlocked
              exact ⟨fun _ => hfailed, fun h => absurd h (Option.some_ne_none _)⟩
            · next hlocal =>
              rw [Bool.not_eq_true', Bool.not_eq_false] at hlocal
              subst hlocked
              refine ⟨fun h => absurd rfl h, fun _ => ⟨candidate, finalPath, ?_, hlocal,
                hfinal, rfl, hlive, ?_, ?_, rfl, ?_⟩⟩
              · rw [hcandidate]
              · exact hattempts ▸ Nat.le_succ _
              · intro handle hmem
                rw [List.mem_singleton.mp hmem, hcandidate]
              · intro handle hmem
                rw [List.mem_singleton.mp hmem]
                refine ⟨?_, ⟨information, hinformation, hkind.1, ?_⟩, finalPath, hfinal,
                  pathWithinOrEqual_self finalPath⟩
                · rw [hcandidate]
                  exact ⟨rfl, rfl⟩
                · rw [hcandidate]
                  exact hkind.2

end Paths

section Loops

variable {system : System} {root : WString}

/-- A folder on the way to a file of a package. -/
def FolderOf (folder relativePath : WString) : Prop :=
  ∃ rest, relativePath = folder ++ backslash :: rest

theorem mem_foldersFrom {front path folder : WString} :
    folder ∈ foldersFrom front path ↔
      ∃ between rest, path = between ++ backslash :: rest ∧ folder = front ++ between := by
  induction path generalizing front with
  | nil =>
    refine iff_of_false List.not_mem_nil fun h => ?_
    obtain ⟨between, rest, hpath, -⟩ := h
    cases between with
    | nil => cases hpath
    | cons c between => cases hpath
  | cons c path ih =>
    have hlater : folder ∈ foldersFrom (front ++ [c]) path ↔
        ∃ between rest, c :: path = c :: between ++ backslash :: rest ∧
          folder = front ++ c :: between := by
      rw [ih]
      simp
    rw [foldersFrom]
    constructor
    · intro h
      split at h
      · next hseparator =>
        cases List.mem_cons.mp h with
        | inl hhere => exact ⟨[], path, by rw [hseparator]; rfl, by rw [hhere, List.append_nil]⟩
        | inr hmore =>
          obtain ⟨between, rest, hpath, hfolder⟩ := hlater.mp hmore
          exact ⟨c :: between, rest, hpath, hfolder⟩
      · obtain ⟨between, rest, hpath, hfolder⟩ := hlater.mp h
        exact ⟨c :: between, rest, hpath, hfolder⟩
    · intro h
      obtain ⟨between, rest, hpath, hfolder⟩ := h
      cases between with
      | nil =>
        obtain ⟨hseparator, -⟩ := List.cons.inj hpath
        rw [if_pos hseparator, hfolder, List.append_nil]
        exact List.mem_cons_self
      | cons d between =>
        obtain ⟨rfl, -⟩ := List.cons.inj hpath
        have hmore := hlater.mpr ⟨between, rest, hpath, hfolder⟩
        split
        · exact List.mem_cons_of_mem _ hmore
        · exact hmore

theorem mem_foldersOf {path folder : WString} : folder ∈ foldersOf path ↔ FolderOf folder path := by
  rw [foldersOf, mem_foldersFrom]
  constructor
  · intro h
    obtain ⟨between, rest, hpath, rfl⟩ := h
    exact ⟨rest, hpath⟩
  · intro h
    obtain ⟨rest, hpath⟩ := h
    exact ⟨folder, rest, hpath, rfl⟩

def folderRequests (root : WString) (folders : List WString) : List OpenRequest :=
  folders.map fun folder => lockRequest (joinPath root folder) true

theorem lockFolders_spec (lockedDirectories : List WString) (locking : Locking)
    (folders : List WString) :
    let locked := (lockFolders system root lockedDirectories locking folders).2
    ∃ more, Extended system locking locked.locking more ∧ (locked.error = none → ∃ added,
      more.map Handle.request = folderRequests root added ∧
      (lockFolders system root lockedDirectories locking folders).1 =
        lockedDirectories ++ added.map lowerCopy ∧
      (∀ folder ∈ added, folder ∈ folders) ∧
      (∀ folder ∈ folders, lowerCopy folder ∈ lockedDirectories ++ added.map lowerCopy) ∧
      (lockedDirectories.Nodup → (lockedDirectories ++ added.map lowerCopy).Nodup)) := by
  induction folders generalizing lockedDirectories locking with
  | nil =>
    refine ⟨[], .refl locking, fun _ => ⟨[], rfl, (List.append_nil _).symm, nofun, nofun, ?_⟩⟩
    intro h
    rwa [List.map_nil, List.append_nil]
  | cons folder folders ih =>
    by_cases hold : lowerCopy folder ∈ lockedDirectories
    · have hstep : lockFolders system root lockedDirectories locking (folder :: folders) =
          lockFolders system root lockedDirectories locking folders := by
        rw [lockFolders, if_pos (List.contains_iff_mem.mpr hold)]
      rw [hstep]
      obtain ⟨more, hmore, hadded⟩ := ih lockedDirectories locking
      refine ⟨more, hmore, fun herror => ?_⟩
      obtain ⟨added, hrequests, hdirectories, hin, hall, hdistinct⟩ := hadded herror
      refine ⟨added, hrequests, hdirectories, fun f hf => List.mem_cons_of_mem _ (hin f hf),
        List.forall_mem_cons.mpr ⟨List.mem_append_left _ hold, hall⟩, hdistinct⟩
    · have hnew : ¬lockedDirectories.contains (lowerCopy folder) = true :=
        fun h => hold (List.contains_iff_mem.mp h)
      obtain ⟨first, hfirst, hrequest⟩ :=
        @lockPath_inside system locking (joinPath root folder) true
      cases hlocked : lockPath system locking (joinPath root folder) true true with
      | mk error next =>
        rw [hlocked] at hfirst hrequest
        cases error with
        | some error =>
          have hstep : lockFolders system root lockedDirectories locking (folder :: folders) =
              (lockedDirectories ++ [lowerCopy folder], ⟨some error, next⟩) := by
            rw [lockFolders, if_neg hnew, hlocked]
          rw [hstep]
          exact ⟨first, hfirst, nofun⟩
        | none =>
          have hstep : lockFolders system root lockedDirectories locking (folder :: folders) =
              lockFolders system root (lockedDirectories ++ [lowerCopy folder]) next folders := by
            rw [lockFolders, if_neg hnew, hlocked]
          rw [hstep]
          obtain ⟨more, hmore, hadded⟩ := ih (lockedDirectories ++ [lowerCopy folder]) next
          refine ⟨first ++ more, hfirst.append hmore, fun herror => ?_⟩
          obtain ⟨added, hrequests, hdirectories, hin, hall, hdistinct⟩ := hadded herror
          have hcons : lockedDirectories ++ (folder :: added).map lowerCopy =
              lockedDirectories ++ [lowerCopy folder] ++ added.map lowerCopy := by
            rw [List.map_cons, List.append_assoc, List.singleton_append]
          refine ⟨folder :: added, ?_, ?_, ?_, ?_, ?_⟩
          · rw [List.map_append, hrequest rfl, hrequests]
            rfl
          · rw [hdirectories, hcons]
          · exact List.forall_mem_cons.mpr
              ⟨List.mem_cons_self, fun f hf => List.mem_cons_of_mem _ (hin f hf)⟩
          · rw [hcons]
            refine List.forall_mem_cons.mpr ⟨?_, hall⟩
            exact List.mem_append_left _ (List.mem_append_right _ (List.mem_singleton_self _))
          · intro hnodup
            rw [hcons]
            refine hdistinct (List.nodup_append.mpr ⟨hnodup, List.nodup_singleton _, ?_⟩)
            intro key hkey other hother heq
            rw [List.mem_singleton.mp hother] at heq
            exact hold (heq ▸ hkey)

/-- The handles for the folders and those for the files among others. -/
def foldersAmong (handles : List Handle) : List OpenRequest :=
  (handles.filter fun handle => handle.request.backupSemantics).map Handle.request

def filesAmong (handles : List Handle) : List OpenRequest :=
  (handles.filter fun handle => !handle.request.backupSemantics).map Handle.request

/-- The handles of a lock on entries: one for each file, and one for each folder that was new. -/
structure Covers (root : WString) (lockedDirectories : List WString) (entries : List ManifestEntry)
    (handles : List Handle) : Prop where
  files : filesAmong handles =
    entries.map fun entry => lockRequest (joinPath root entry.relativePath) false
  folders : ∃ added, foldersAmong handles = folderRequests root added ∧
    (∀ folder ∈ added, ∃ entry ∈ entries, FolderOf folder entry.relativePath) ∧
    (∀ entry ∈ entries, ∀ folder, FolderOf folder entry.relativePath →
      lowerCopy folder ∈ lockedDirectories ++ added.map lowerCopy) ∧
    (lockedDirectories.Nodup → (lockedDirectories ++ added.map lowerCopy).Nodup)

theorem among_of_folders {handles : List Handle} {folders : List WString}
    (h : handles.map Handle.request = folderRequests root folders) :
    filesAmong handles = [] ∧ foldersAmong handles = folderRequests root folders := by
  have hall : ∀ handle ∈ handles, handle.request.backupSemantics = true := by
    intro handle hmem
    have hrequest : handle.request ∈ folderRequests root folders :=
      h ▸ List.mem_map.mpr ⟨handle, hmem, rfl⟩
    obtain ⟨folder, -, hfolder⟩ := List.mem_map.mp hrequest
    rw [← hfolder]
    rfl
  have hnone : handles.filter (fun handle => !handle.request.backupSemantics) = [] :=
    List.filter_eq_nil_iff.mpr fun handle hmem => by simp [hall handle hmem]
  have hsame : handles.filter (fun handle => handle.request.backupSemantics) = handles :=
    List.filter_eq_self.mpr hall
  rw [filesAmong, foldersAmong, hnone, hsame]
  exact ⟨rfl, h⟩

theorem filesAmong_append (handles others : List Handle) :
    filesAmong (handles ++ others) = filesAmong handles ++ filesAmong others := by
  rw [filesAmong, List.filter_append, List.map_append]
  rfl

theorem foldersAmong_append (handles others : List Handle) :
    foldersAmong (handles ++ others) = foldersAmong handles ++ foldersAmong others := by
  rw [foldersAmong, List.filter_append, List.map_append]
  rfl

theorem among_of_file {handles : List Handle} {path : WString}
    (h : handles.map Handle.request = [lockRequest path false]) :
    filesAmong handles = [lockRequest path false] ∧ foldersAmong handles = [] := by
  obtain ⟨handle, rfl⟩ : ∃ handle, handles = [handle] :=
    List.length_eq_one_iff.mp (by simpa using congrArg List.length h)
  have hrequest : handle.request = lockRequest path false := (List.cons.inj h).1
  simp [filesAmong, foldersAmong, hrequest, lockRequest]

theorem lockEntries_spec (lockedDirectories : List WString) (locking : Locking)
    (entries : List ManifestEntry) :
    let locked := lockEntries system root lockedDirectories locking entries
    ∃ more, Extended system locking locked.locking more ∧
      (locked.error = none → Covers root lockedDirectories entries more) := by
  induction entries generalizing lockedDirectories locking with
  | nil =>
    refine ⟨[], .refl locking, fun _ => ⟨rfl, [], rfl, nofun, nofun, fun h => ?_⟩⟩
    rwa [List.map_nil, List.append_nil]
  | cons entry entries ih =>
    obtain ⟨way, hway, hwaySpec⟩ := @lockFolders_spec system root lockedDirectories locking
      (foldersOf entry.relativePath)
    cases hfolders : lockFolders system root lockedDirectories locking
        (foldersOf entry.relativePath) with
    | mk directories locked =>
      rw [hfolders] at hway hwaySpec
      cases locked with
      | mk error between =>
        cases error with
        | some error =>
          have hstep : lockEntries system root lockedDirectories locking (entry :: entries) =
              ⟨some error, between⟩ := by rw [lockEntries, hfolders]
          rw [hstep]
          exact ⟨way, hway, nofun⟩
        | none =>
          obtain ⟨added, hrequests, hdirectories, hin, hall, hdistinct⟩ := hwaySpec rfl
          obtain ⟨file, hfile, hfileRequest⟩ :=
            @lockPath_inside system between (joinPath root entry.relativePath) false
          cases hlocked : lockPath system between (joinPath root entry.relativePath) false true with
          | mk error next =>
            rw [hlocked] at hfile hfileRequest
            cases error with
            | some error =>
              have hstep : lockEntries system root lockedDirectories locking (entry :: entries) =
                  ⟨some error, next⟩ := by
                rw [lockEntries, hfolders]
                dsimp only
                rw [hlocked]
              rw [hstep]
              exact ⟨way ++ file, hway.append hfile, nofun⟩
            | none =>
              have hstep : lockEntries system root lockedDirectories locking (entry :: entries) =
                  lockEntries system root directories next entries := by
                rw [lockEntries, hfolders]
                dsimp only
                rw [hlocked]
              rw [hstep]
              obtain ⟨more, hmore, hcovers⟩ := ih directories next
              refine ⟨way ++ file ++ more, (hway.append hfile).append hmore, fun herror => ?_⟩
              obtain ⟨hfiles, added', hfolders', hin', hall', hdistinct'⟩ := hcovers herror
              obtain ⟨hwayFiles, hwayFolders⟩ := among_of_folders hrequests
              obtain ⟨hfileFiles, hfileFolders⟩ := among_of_file (hfileRequest rfl)
              have hdirectories' : directories = lockedDirectories ++ added.map lowerCopy :=
                hdirectories
              have hjoined : lockedDirectories ++ (added ++ added').map lowerCopy =
                  directories ++ added'.map lowerCopy := by
                rw [hdirectories', List.map_append, List.append_assoc]
              refine ⟨?_, added ++ added', ?_, ?_, ?_, ?_⟩
              · rw [filesAmong_append, filesAmong_append, hwayFiles, hfileFiles, hfiles]
                rfl
              · rw [foldersAmong_append, foldersAmong_append, hwayFolders, hfileFolders, hfolders',
                  List.append_nil]
                exact List.map_append.symm
              · intro folder hfolder
                cases List.mem_append.mp hfolder with
                | inl hnow => exact ⟨entry, List.mem_cons_self, mem_foldersOf.mp (hin folder hnow)⟩
                | inr hlater =>
                  obtain ⟨other, hother, hof⟩ := hin' folder hlater
                  exact ⟨other, List.mem_cons_of_mem _ hother, hof⟩
              · rw [hjoined]
                refine List.forall_mem_cons.mpr ⟨fun folder hof => ?_, hall'⟩
                rw [hdirectories']
                exact List.mem_append_left _ (hall folder (mem_foldersOf.mpr hof))
              · intro hnodup
                rw [hjoined]
                exact hdistinct' (hdirectories' ▸ hdistinct hnodup)

end Loops

section Acquisition

variable {system : System} {layout : PackageLayout}

/-- No two folders on the way to a file have paths that differ in the case of letters only. -/
def ApartFromCase (entries : List ManifestEntry) : Prop :=
  ∀ entry ∈ entries, ∀ other ∈ entries, ∀ folder another, FolderOf folder entry.relativePath →
    FolderOf another other.relativePath → lowerCopy folder = lowerCopy another → folder = another

/-- A complete lock: one handle for the root, for the manifest, for every file the manifest lists, and
for the folders on the way to one, of those that differ in case only for one of them. -/
structure Complete (system : System) (layout : PackageLayout) (entries : List ManifestEntry)
    (lockedRoot : WString) (handles : List Handle) : Prop where
  cover : ∃ rootHandle manifestHandle others folders,
    handles = rootHandle :: manifestHandle :: others ∧
    rootHandle.request = lockRequest layout.root true ∧
    finalPathForHandle system rootHandle = some lockedRoot ∧
    manifestHandle.request = lockRequest layout.manifestPath false ∧
    filesAmong others =
      entries.map (fun entry => lockRequest (joinPath layout.root entry.relativePath) false) ∧
    foldersAmong others = folderRequests layout.root folders ∧
    (folders.map lowerCopy).Nodup ∧
    (∀ folder ∈ folders, ∃ entry ∈ entries, FolderOf folder entry.relativePath) ∧
    ∀ entry ∈ entries, ∀ folder, FolderOf folder entry.relativePath →
      lowerCopy folder ∈ folders.map lowerCopy
  everyFolder : ApartFromCase entries → ∀ entry ∈ entries, ∀ folder,
    FolderOf folder entry.relativePath →
      ∃ handle ∈ handles, handle.request = lockRequest (joinPath layout.root folder) true
  rootLocal : pathIsAbsoluteLocal system.getDriveType lockedRoot = true
  held : ∀ handle ∈ handles, Held system lockedRoot handle

/-- A folder that differs from all others beyond case is among those that are locked. -/
theorem exists_handle_of_folder {entries : List ManifestEntry} {handles : List Handle}
    {folders : List WString} {root : WString} (hapart : ApartFromCase entries)
    (hfolders : foldersAmong handles = folderRequests root folders)
    (hin : ∀ folder ∈ folders, ∃ entry ∈ entries, FolderOf folder entry.relativePath)
    {folder : WString} (hkey : lowerCopy folder ∈ folders.map lowerCopy) {entry : ManifestEntry}
    (hentry : entry ∈ entries) (hof : FolderOf folder entry.relativePath) :
    ∃ handle ∈ handles, handle.request = lockRequest (joinPath root folder) true := by
  obtain ⟨other, hother, hsame⟩ := List.mem_map.mp hkey
  obtain ⟨source, hsource, hotherOf⟩ := hin other hother
  have hfolder : other = folder := hapart source hsource entry hentry other folder hotherOf hof hsame
  have hrequest : lockRequest (joinPath root folder) true ∈ foldersAmong handles := by
    rw [hfolders, ← hfolder]
    exact List.mem_map_of_mem hother
  obtain ⟨handle, hhandle, hequal⟩ := List.mem_map.mp hrequest
  exact ⟨handle, List.mem_of_mem_filter hhandle, hequal⟩

/-- However the lock ends, it has the handles it has opened; when it succeeds, they are complete. -/
theorem lockPackage_spec (locking : Locking) :
    let locked := lockPackage system layout locking
    ∃ lockedRoot more, Extended system { locking with lockedRoot } locked.locking more ∧
      (locked.error = none → ∃ entries world, HasManifest system world layout entries ∧
        world.live = (more.take 2).reverse ++ locking.world.live ∧
        Complete system layout entries lockedRoot more) := by
  intro locked
  have hdone : locked = lockPackage system layout locking := rfl
  clear_value locked
  obtain ⟨hrootFailed, hrootLocked⟩ := @lockPath_root system locking layout.root
  rw [lockPackage] at hdone
  cases hroot : lockPath system locking layout.root true false with
  | mk error first =>
    rw [hroot] at hdone hrootFailed hrootLocked
    cases error with
    | some error =>
      subst hdone
      have hfailed : Extended system locking first [] := hrootFailed nofun
      exact ⟨locking.lockedRoot, [], hfailed, nofun⟩
    | none =>
      obtain ⟨rootHandle, lockedRoot, hrootRequest, hlocal, hfinal, hfirst⟩ := hrootLocked rfl
      obtain ⟨manifestHandles, hsecond, hmanifestRequest⟩ :=
        @lockPath_inside system first layout.manifestPath false
      dsimp only at hdone
      cases hmanifest : lockPath system first layout.manifestPath false true with
      | mk error second =>
        rw [hmanifest] at hdone hsecond hmanifestRequest
        have hboth := hfirst.append hsecond
        cases error with
        | some error =>
          subst hdone
          exact ⟨lockedRoot, _, hboth, nofun⟩
        | none =>
          have hreadLive := @readFileLimited_live system second.world layout.manifestPath
            kMaximumManifestBytes
          dsimp only at hdone
          cases hread : readFileLimited system second.world layout.manifestPath
              kMaximumManifestBytes with
          | mk result world =>
            rw [hread] at hdone hreadLive
            have hthird : Extended system second { second with world } [] := .of_sameLive hreadLive
            have hunlisted := hboth.append hthird
            cases result with
            | error error =>
              subst hdone
              exact ⟨lockedRoot, _, hunlisted, nofun⟩
            | ok contents =>
              dsimp only at hdone
              cases hparsed : (parseManifestText contents).succeeded with
              | false =>
                rw [hparsed, if_neg Bool.false_ne_true] at hdone
                subst hdone
                exact ⟨lockedRoot, _, hunlisted, nofun⟩
              | true =>
                rw [hparsed, if_pos rfl] at hdone
                subst hdone
                obtain ⟨others, hothers, hcovers⟩ := @lockEntries_spec system layout.root []
                  { second with world } (parseManifestText contents).entries
                refine ⟨lockedRoot, _, hunlisted.append hothers, fun hnone => ?_⟩
                refine ⟨(parseManifestText contents).entries, second.world,
                  ⟨contents, by rw [hread], eq_of_succeeded hparsed⟩, ?_⟩
                obtain ⟨hfiles, folders, hfolders, hin, hall, hdistinct⟩ := hcovers hnone
                obtain ⟨manifestHandle, rfl⟩ : ∃ handle, manifestHandles = [handle] :=
                  List.length_eq_one_iff.mp
                    (by simpa using congrArg List.length (hmanifestRequest rfl))
                refine ⟨hboth.live, ?_⟩
                refine ⟨⟨rootHandle, manifestHandle, others, folders, rfl, hrootRequest, hfinal,
                  (List.cons.inj (hmanifestRequest rfl)).1, hfiles, hfolders,
                  hdistinct List.nodup_nil, hin, hall⟩, ?_, hlocal, (hunlisted.append hothers).held⟩
                intro hapart entry hentry folder hof
                obtain ⟨handle, hhandle, hrequest⟩ := exists_handle_of_folder hapart hfolders hin
                  (hall entry hentry folder hof) hentry hof
                exact ⟨handle, List.mem_append_right _ hhandle, hrequest⟩

/-- Acquiring the read lock on a package completes it for the manifest that is read while the root and
the manifest are locked, or leaves no handle at all, also none of those the lock has held before. Only a
root that is not absolute and local leaves the lock as it was. -/
theorem package_lock_complete_or_absent (system : System) (layout : PackageLayout) (world : World)
    (handles : List Handle) :
    let locked := acquirePackageReadLock system layout world handles
    let others := world.live.filter (· ∉ handles)
    (locked.error = none → ∃ entries lockedRoot world', HasManifest system world' layout entries ∧
      world'.live = (locked.locking.handles.take 2).reverse ++ others ∧
      Complete system layout entries lockedRoot locked.locking.handles ∧
      locked.locking.world.live = locked.locking.handles.reverse ++ others) ∧
    (locked.error ≠ none → pathIsAbsoluteLocal system.getDriveType layout.root = true →
      locked.locking.handles = [] ∧ locked.locking.world.live = others) ∧
    (pathIsAbsoluteLocal system.getDriveType layout.root = false →
      locked.error = some .invalidRoot ∧ locked.locking.handles = handles ∧
      locked.locking.world = world) := by
  intro locked others
  cases hlocal : pathIsAbsoluteLocal system.getDriveType layout.root with
  | false =>
    have hlocked : locked = ⟨some .invalidRoot, ⟨world, handles, []⟩⟩ := by
      simp only [locked, acquirePackageReadLock, hlocal, Bool.not_false, ↓reduceIte]
    rw [hlocked]
    exact ⟨nofun, nofun, fun _ => ⟨rfl, rfl, rfl⟩⟩
  | true =>
    let cleared := Locking.clear ⟨world, handles, []⟩
    have hcleared : cleared.world.live = others := (closeAll_live handles).1
    have hlocked : locked = (lockPackage system layout cleared).clearFailed := by
      simp only [locked, acquirePackageReadLock, hlocal, Bool.not_true, Bool.false_eq_true,
        ↓reduceIte, cleared]
    obtain ⟨lockedRoot, more, hextended, hcomplete⟩ :=
      @lockPackage_spec system layout cleared
    have hmore : (lockPackage system layout cleared).locking.handles = more := hextended.handles
    refine ⟨?_, ?_, nofun⟩
    · intro hnone
      cases herror : (lockPackage system layout cleared).error with
      | some error =>
        rw [hlocked, Locked.clearFailed, herror, Option.isSome_some] at hnone
        rw [if_pos rfl] at hnone
        cases hnone
      | none =>
        have hsame : locked = lockPackage system layout cleared := by
          rw [hlocked, Locked.clearFailed, herror]
          rfl
        obtain ⟨entries, world', hmanifest, hread, hall⟩ := hcomplete herror
        refine ⟨entries, lockedRoot, world', hmanifest, ?_, ?_, ?_⟩
        · rw [hsame, hmore, hread]
          exact congrArg ((more.take 2).reverse ++ ·) hcleared
        · rw [hsame, hmore]
          exact hall
        · rw [hsame, hmore, hextended.live]
          exact congrArg (more.reverse ++ ·) hcleared
    · intro hsome _
      cases herror : (lockPackage system layout cleared).error with
      | none =>
        rw [hlocked, Locked.clearFailed, herror] at hsome
        exact absurd herror hsome
      | some error =>
        have hfailed : locked.locking = (lockPackage system layout cleared).locking.clear := by
          rw [hlocked, Locked.clearFailed, herror]
          rfl
        rw [hfailed]
        obtain ⟨hhandles, hlive⟩ := hextended.clear rfl
        exact ⟨hhandles, hlive.trans hcleared⟩

theorem plain_locked : ∃ entries lockedRoot,
    Complete (windowsFor plain emptyDigest).toSystem (makePackageLayout plain.root) entries lockedRoot
      (acquirePackageReadLock (windowsFor plain emptyDigest).toSystem (makePackageLayout plain.root)
        .initial []).locking.handles := by
  obtain ⟨entries, lockedRoot, -, -, -, hcomplete, -⟩ := (package_lock_complete_or_absent
    (windowsFor plain emptyDigest).toSystem (makePackageLayout plain.root) .initial []).1
      (by decide +kernel)
  exact ⟨entries, lockedRoot, hcomplete⟩

def twoCases : Package :=
  packageOf sampleRoot [] [(kManifestName, .file (emptyFiles ["Sub/a", "sub/b"])),
    (wide "Sub", .folder (named ["a"])), (wide "sub", .folder (named ["b"]))]

def twoCasesLocked : Locked :=
  acquirePackageReadLock (windowsFor twoCases emptyDigest).toSystem (makePackageLayout sampleRoot)
    .initial []

theorem second_folder_unlocked : Reflects (windowsFor twoCases emptyDigest) twoCases ∧
    twoCasesLocked.error = none ∧
    (∃ entry ∈ (parseManifestText (emptyFiles ["Sub/a", "sub/b"])).entries,
      FolderOf (wide "sub") entry.relativePath) ∧
    ∀ handle ∈ twoCasesLocked.locking.handles,
      handle.request.path ≠ joinPath sampleRoot (wide "sub") := by
  refine ⟨windowsFor_reflects (by decide +kernel) emptyDigest, by decide +kernel, ?_,
    by decide +kernel⟩
  simp only [← mem_foldersOf]
  decide +kernel

end Acquisition

end FfbInterceptor.Manager
