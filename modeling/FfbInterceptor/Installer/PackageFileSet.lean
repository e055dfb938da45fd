import FfbInterceptor.Installer.ManifestRecords

/-! The files of a package as the installer finds them, with their names. -/
namespace FfbInterceptor.Installer
open FfbInterceptor.Launcher FfbInterceptor.Library FfbInterceptor.Manager

section Names

structure Named (found : Found) : Prop where
  nonempty : found.name ≠ []
  separators : ∀ c ∈ found.name, isWideSeparator c = false
  noNul : 0 ∉ found.name

structure Placed (root : WString) (directory : Directory) : Prop where
  fullPath : directory.fullPath = joinPath root directory.relativePath
  ending : ∀ c, directory.relativePath.getLast? = some c → isWideSeparator c = false

variable {runtime : Runtime} {longest : Nat} {package : Manager.Package} {found : Found}

theorem Placed.join (hresolves : Resolves runtime package longest)
    (h : Placed package.root found.directory) (hnamed : Named found) :
    fullName found = joinPath package.root found.relativePath ∧
      found.relativePath ≠ [] ∧
      ∀ c, found.relativePath.getLast? = some c → isWideSeparator c = false := by
  have hlast : ∀ start : WString, ∀ c, (start ++ found.name).getLast? = some c →
      isWideSeparator c = false := by
    intro start c hc
    rw [List.getLast?_append_of_ne_nil _ hnamed.nonempty] at hc
    exact hnamed.separators c (List.mem_of_getLast? hc)
  by_cases hempty : found.directory.relativePath = []
  · have hrelative : found.relativePath = found.name := if_pos (List.isEmpty_iff.mpr hempty)
    have hroot : found.directory.fullPath = package.root := by
      rw [h.fullPath, hempty, joinPath, if_neg]
      · rfl
      · exact fun heq => hresolves.nonempty (List.isEmpty_iff.mp heq)
    rw [hrelative, fullName, hroot]
    exact ⟨rfl, hnamed.nonempty, hlast []⟩
  · have hrelative : found.relativePath =
        found.directory.relativePath ++ [backslash] ++ found.name := by
      rw [Found.relativePath, Directory.relative, if_neg]
      · exact joinPath_of_ending hempty h.ending hnamed.nonempty
      · exact fun heq => hempty (List.isEmpty_iff.mp heq)
    have hfolder : found.directory.fullPath =
        package.root ++ [backslash] ++ found.directory.relativePath := by
      rw [h.fullPath, hresolves.joinPath_eq hempty]
    have hends : ∀ c, found.directory.fullPath.getLast? = some c → isWideSeparator c = false := by
      intro c hc
      rw [hfolder, List.getLast?_append_of_ne_nil _ hempty] at hc
      exact h.ending c hc
    have hne : found.directory.fullPath ≠ [] := by
      rw [hfolder]
      exact List.append_ne_nil_of_right_ne_nil _ hempty
    refine ⟨?_, ?_, ?_⟩
    · rw [fullName, joinPath_of_ending hne hends hnamed.nonempty, hrelative, hresolves.joinPath_eq,
        hfolder]
      · simp only [List.append_assoc]
      · exact List.append_ne_nil_of_right_ne_nil _ hnamed.nonempty
    · rw [hrelative]
      exact List.append_ne_nil_of_right_ne_nil _ hnamed.nonempty
    · rw [hrelative]
      exact hlast _

/-- The order in which the installer meets what lies in a package. -/
def order (package : Manager.Package) : List Found :=
  walkOrder children Found.folder? (package.folders.length + 1) [(package.directory, package.items)]

theorem order_perm (package : Manager.Package) : (order package).Perm package.all := by
  have hqueue : [(package.directory, package.items)].flatMap
      (fun folder => everything folder.1 folder.2) = package.all := by
    rw [List.flatMap_singleton, Manager.Package.all]
  have hall : ∀ folder : Directory × List (WString × Item), (everything folder.1 folder.2).Perm
      (children folder ++ ((children folder).filterMap Found.folder?).flatMap fun folder =>
        everything folder.1 folder.2) := fun folder => everything_perm folder.1 folder.2
  rw [← hqueue]
  apply walkOrder_perm hall
  rw [hqueue, List.length_singleton, Nat.add_comm]
  exact Nat.le_refl _

theorem placed_of_mem (hresolves : Resolves runtime package longest)
    (hnamed : ∀ found ∈ package.all, Named found) (hfound : found ∈ package.all) :
    Placed package.root found.directory := by
  have hall := @forall_walkOrder _ _ children Found.folder?
    (fun folder => Placed package.root folder.1 ∧ ∀ found ∈ everything folder.1 folder.2, Named found)
    (fun found => Placed package.root found.directory ∧ Named found ∧
      ∀ folder, found.folder? = some folder → ∀ found ∈ everything folder.1 folder.2, Named found)
    ?_ ?_ (package.folders.length + 1) [(package.directory, package.items)] ?_
  · exact (hall found ((order_perm package).mem_iff.mpr hfound)).1
  · intro folder hfolder found hmem
    have hperm := everything_perm folder.1 folder.2
    obtain ⟨item, hitem, rfl⟩ := List.mem_map.mp hmem
    refine ⟨hfolder.1, hfolder.2 _ (hperm.mem_iff.mpr (List.mem_append_left _ hmem)), ?_⟩
    intro inner hinner other hother
    refine hfolder.2 other (hperm.mem_iff.mpr (List.mem_append_right _ ?_))
    exact List.mem_flatMap.mpr ⟨inner, List.mem_filterMap.mpr ⟨_, hmem, hinner⟩, hother⟩
  · intro found folder hitem hsome
    obtain ⟨hplaced, hname, hbelow⟩ := hitem
    refine ⟨?_, hbelow folder hsome⟩
    obtain ⟨hfull, -, hending⟩ := hplaced.join hresolves hname
    cases hkind : found.item with
    | file contents => simp [Found.folder?, hkind] at hsome
    | link isDirectory => simp [Found.folder?, hkind] at hsome
    | folder items =>
      simp only [Found.folder?, hkind, Option.some.injEq] at hsome
      rw [← hsome]
      exact ⟨hfull, hending⟩
  · intro folder hfolder
    rw [List.mem_singleton.mp hfolder]
    refine ⟨⟨?_, fun c hc => by cases hc⟩, hnamed⟩
    have hempty : ¬package.root.isEmpty = true := fun heq =>
      hresolves.nonempty (List.isEmpty_iff.mp heq)
    exact (if_neg hempty).symm

theorem fullName_eq (hresolves : Resolves runtime package longest)
    (hnamed : ∀ found ∈ package.all, Named found) (hfound : found ∈ package.all) :
    fullName found = joinPath package.root found.relativePath ∧ found.relativePath ≠ [] :=
  have h := (placed_of_mem hresolves hnamed hfound).join hresolves (hnamed found hfound)
  ⟨h.1, h.2.1⟩

theorem drop_fullName (hresolves : Resolves runtime package longest)
    (hnamed : ∀ found ∈ package.all, Named found) (hfound : found ∈ package.all) :
    (fullName found).drop (package.root.length + 1) = found.relativePath := by
  rw [(fullName_eq hresolves hnamed hfound).1]
  apply drop_joinPath hresolves.nonempty
  · exact fun heq => absurd (hresolves.ending backslash heq) (by decide)
  · exact fun heq => absurd (hresolves.ending wideSlash heq) (by decide)

theorem cString_eq {value : WString} (h : 0 ∉ value) : cString value = value := by
  rw [cString, List.takeWhile_eq_self_iff]
  intro c hc
  exact decide_eq_true fun heq => h (heq ▸ hc)

theorem kManifestName_eq : kManifestName = [0x53, 0x48, 0x41, 0x32, 0x35, 0x36, 0x53, 0x55, 0x4D, 0x53,
    0x2E, 0x74, 0x78, 0x74] := by decide +kernel

theorem equals_manifest (hresolves : Resolves runtime package longest)
    (hnamed : ∀ found ∈ package.all, Named found) (hfound : found ∈ package.all) :
    runtime.equals (fullName found) (joinPath package.root kManifestName) =
      found.directory.skips found.name := by
  obtain ⟨hfull, hne⟩ := fullName_eq hresolves hnamed hfound
  have hname := hnamed found hfound
  have hmanifest : kManifestName ≠ [] := by
    rw [kManifestName_eq]
    exact List.cons_ne_nil _ _
  have hall : (kManifestName.all (· ≤ 0x7E)) = true := by decide +kernel
  have hascii : ∀ c ∈ kManifestName, c ≤ 0x7E := fun c hc =>
    of_decide_eq_true (List.all_eq_true.mp hall c hc)
  rw [hfull, hresolves.joinPath_eq hne, hresolves.joinPath_eq hmanifest, equals_append_left, equals_comm,
    Bool.eq_iff_iff, equals_iff runtime hascii, Directory.skips]
  by_cases hempty : found.directory.relativePath = []
  · have hrelative : found.relativePath = found.name := if_pos (List.isEmpty_iff.mpr hempty)
    have hclean : cString kManifestName = kManifestName := by
      apply cString_eq
      rw [kManifestName_eq]
      decide +kernel
    rw [hrelative, List.isEmpty_iff.mpr hempty, Bool.true_and, equalIgnoringCase,
      cString_eq hname.noNul, hclean, decide_eq_true_eq, eq_comm]
  · have hrelative : found.relativePath =
        found.directory.relativePath ++ [backslash] ++ found.name := by
      rw [Found.relativePath, Directory.relative, if_neg]
      · exact joinPath_of_ending hempty (placed_of_mem hresolves hnamed hfound).ending hname.nonempty
      · exact fun heq => hempty (List.isEmpty_iff.mp heq)
    have hbackslash : backslash ∈ lowerCopy found.relativePath := by
      have hlower : wideLower backslash = backslash := by decide
      rw [hrelative]
      exact List.mem_map.mpr ⟨backslash, by simp, hlower⟩
    have hnone : backslash ∉ lowerCopy kManifestName := by
      rw [kManifestName_eq]
      decide +kernel
    rw [List.isEmpty_eq_false_iff.mpr hempty, Bool.false_and]
    constructor
    · intro heq
      exact absurd (heq ▸ hbackslash) hnone
    · intro heq
      cases heq

end Names

section Discovering
variable {package : Manager.Package} {found : Found} {items : List Found} {discovery next : Discovery}

def isFile (found : Found) : Bool :=
  match found.item with
  | .file _ => true
  | _ => false

def allFiles (package : Manager.Package) : List Found := package.all.filter isFile

theorem discover_ok_iff (hfolders : discovery.directoryCount ≤ 128)
    (hfiles : discovery.discoveredFiles.length ≤ 129) :
    discover discovery found = .ok next ↔ found.isLink = false ∧
      discovery.directoryCount + ([found].filterMap Found.folder?).length ≤ 128 ∧
      discovery.discoveredFiles.length + ([found].filter isFile).length ≤ 129 ∧
      next = ⟨discovery.directoryCount + ([found].filterMap Found.folder?).length,
        discovery.discoveredFiles ++ [found].filter isFile⟩ := by
  obtain ⟨directory, name, item⟩ := found
  cases item with
  | link isDirectory => simp [discover, Item.attributes, Found.isLink]
  | folder inner =>
    simp only [discover, Item.attributes, Bool.false_eq_true, ↓reduceIte, Found.isLink,
      Found.folder?, isFile, List.filterMap_cons, List.filterMap_nil, List.length_singleton,
      List.filter_cons, List.filter_nil, List.length_nil, Nat.add_zero, List.append_nil, hfiles,
      true_and]
    by_cases hroom : 128 < discovery.directoryCount + 1
    · simp only [hroom, ↓reduceIte, reduceCtorEq, Nat.not_le.mpr hroom, false_and]
    · simp only [hroom, ↓reduceIte, Except.ok.injEq, Nat.not_lt.mp hroom, true_and, eq_comm]
  | file contents =>
    simp only [discover, Item.attributes, Bool.false_eq_true, ↓reduceIte, Found.isLink,
      Found.folder?, isFile, List.filterMap_cons, List.filterMap_nil, List.length_singleton,
      List.filter_cons, List.filter_nil, List.length_nil, Nat.add_zero, hfolders, true_and]
    by_cases hroom : 129 ≤ discovery.discoveredFiles.length
    · have hfull : ¬discovery.discoveredFiles.length + 1 ≤ 129 := by omega
      simp only [hroom, ↓reduceIte, reduceCtorEq, hfull, false_and]
    · have hfits : discovery.discoveredFiles.length + 1 ≤ 129 := by omega
      simp only [hroom, ↓reduceIte, Except.ok.injEq, hfits, true_and, eq_comm]

theorem foldlM_discover_iff (hfolders : discovery.directoryCount ≤ 128)
    (hfiles : discovery.discoveredFiles.length ≤ 129) :
    items.foldlM discover discovery = .ok next ↔ (∀ found ∈ items, found.isLink = false) ∧
      discovery.directoryCount + (items.filterMap Found.folder?).length ≤ 128 ∧
      discovery.discoveredFiles.length + (items.filter isFile).length ≤ 129 ∧
      next = ⟨discovery.directoryCount + (items.filterMap Found.folder?).length,
        discovery.discoveredFiles ++ items.filter isFile⟩ := by
  induction items generalizing discovery with
  | nil =>
    simp only [List.foldlM_nil, List.not_mem_nil, IsEmpty.forall_iff, implies_true,
      List.filterMap_nil, List.filter_nil, List.length_nil, Nat.add_zero, List.append_nil, hfolders,
      hfiles, true_and]
    constructor
    · intro h
      exact (Except.ok.inj h).symm
    · intro h
      rw [h]
      rfl
  | cons found items ih =>
    have hfolderCount : ((found :: items).filterMap Found.folder?).length =
        ([found].filterMap Found.folder?).length + (items.filterMap Found.folder?).length := by
      rw [← List.length_append, ← List.filterMap_append, List.singleton_append]
    have hfileList : (found :: items).filter isFile = [found].filter isFile ++ items.filter isFile := by
      rw [← List.filter_append, List.singleton_append]
    rw [List.foldlM_cons, List.forall_mem_cons, hfolderCount, hfileList, List.length_append]
    cases hstep : discover discovery found with
    | error error =>
      constructor
      · intro h
        cases h
      · intro h
        obtain ⟨⟨hlink, -⟩, hroom, hmore, -⟩ := h
        have hok := (discover_ok_iff hfolders hfiles).mpr ⟨hlink, by omega, by omega, rfl⟩
        rw [hstep] at hok
        cases hok
    | ok middle =>
      obtain ⟨hlink, hroom, hmore, rfl⟩ := (discover_ok_iff hfolders hfiles).mp hstep
      have hlength : (discovery.discoveredFiles ++ [found].filter isFile).length ≤ 129 := by
        rw [List.length_append]
        exact hmore
      refine (ih hroom hlength).trans ?_
      simp only [hlink, true_and, List.length_append, Nat.add_assoc, List.append_assoc]

/-- When the loop over the folders ends, and with which files. -/
theorem discoverFiles_iff {files : List Found} : discoverFiles package = .ok files ↔
    (∀ found ∈ package.all, found.isLink = false) ∧ package.folders.length ≤ 128 ∧
      (allFiles package).length ≤ 129 ∧ files = (order package).filter isFile := by
  have hperm := order_perm package
  have hlinks : (∀ found ∈ order package, found.isLink = false) ↔
      ∀ found ∈ package.all, found.isLink = false :=
    forall_congr' fun found => imp_congr_left hperm.mem_iff
  have hfolders : ((order package).filterMap Found.folder?).length = package.folders.length :=
    (hperm.filterMap Found.folder?).length_eq
  have hfiles : ((order package).filter isFile).length = (allFiles package).length :=
    (hperm.filter isFile).length_eq
  have hfold : ∀ next, (order package).foldlM discover ⟨0, []⟩ = .ok next ↔ _ := fun next =>
    @foldlM_discover_iff (order package) ⟨0, []⟩ next (Nat.zero_le _) (Nat.zero_le _)
  simp only [hlinks, hfolders, hfiles, List.length_nil, Nat.zero_add, List.nil_append] at hfold
  have hwalk : walk children Found.folder? discover (package.folders.length + 1)
      [(package.directory, package.items)] ⟨0, []⟩ = (order package).foldlM discover ⟨0, []⟩ :=
    walk_eq_foldlM _ _ _ _ _ _
  rw [discoverFiles, hwalk]
  cases hrun : (order package).foldlM discover ⟨0, []⟩ with
  | error error =>
    constructor
    · intro h
      cases h
    · intro h
      obtain ⟨hnone, hroom, hmore, -⟩ := h
      have hok := (hfold _).mpr ⟨hnone, hroom, hmore, rfl⟩
      rw [hrun] at hok
      cases hok
  | ok next =>
    obtain ⟨hnone, hroom, hmore, rfl⟩ := (hfold next).mp hrun
    constructor
    · intro h
      exact ⟨hnone, hroom, hmore, (Except.ok.inj h).symm⟩
    · intro h
      rw [h.2.2.2]

end Discovering

end FfbInterceptor.Installer
