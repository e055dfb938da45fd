import FfbInterceptor.Manager.Integrity

/-! Package folders as trees, and the enumeration of their files. -/
namespace FfbInterceptor.Manager
open FfbInterceptor.Launcher

section Tree

inductive Item where
  | file (contents : List UInt8)
  | link (directory : Bool)
  | folder (items : List (WString × Item))

def Item.attributes : Item → FileAttributes
  | .file _ => ⟨false, false⟩
  | .link directory => ⟨directory, true⟩
  | .folder _ => ⟨true, false⟩

/-- An item with the folder it lies in. -/
structure Found where
  directory : Directory
  name : WString
  item : Item

/-- An item and all below it. -/
def Item.contained (directory : Directory) (name : WString) : Item → List Found
  | .file contents => [⟨directory, name, .file contents⟩]
  | .link isDirectory => [⟨directory, name, .link isDirectory⟩]
  | .folder items => ⟨directory, name, .folder items⟩ :: inside (directory.child name) items
where
  inside (directory : Directory) : List (WString × Item) → List Found
  | [] => []
  | (name, item) :: items => item.contained directory name ++ inside directory items
termination_by structural item => item

abbrev everything (directory : Directory) (items : List (WString × Item)) : List Found :=
  Item.contained.inside directory items

def Found.relativePath (found : Found) : WString := found.directory.relative found.name

def Found.isLink (found : Found) : Bool :=
  match found.item with
  | .link _ => true
  | _ => false

def Found.folder? (found : Found) : Option (Directory × List (WString × Item)) :=
  match found.item with
  | .folder items => some (found.directory.child found.name, items)
  | _ => none

/-- The path of a file that a manifest has to list. -/
def Found.listed? (found : Found) : Option WString :=
  match found.item with
  | .file _ => if found.directory.skips found.name then none else some found.relativePath
  | _ => none

def direct (directory : Directory) (items : List (WString × Item)) : List Found :=
  items.map fun item => ⟨directory, item.1, item.2⟩

/-- A package folder, and what Windows finds in it under a relative path. -/
structure Package where
  root : WString
  items : List (WString × Item)
  resolve : WString → Option Found
  resolve_mem : ∀ path found, resolve path = some found → found ∈ everything ⟨root, []⟩ items

namespace Package
variable (package : Package)

def directory : Directory := ⟨package.root, []⟩

def all : List Found := everything package.directory package.items

/-- The files a manifest has to list: all but those in the root that are named like the manifest. -/
def files : List WString := package.all.filterMap Found.listed?

def folders : List (Directory × List (WString × Item)) := package.all.filterMap Found.folder?

/-- The paths below the root that are looked up: the manifest's own and, once the search has met no
link, those that a manifest can list. -/
inductive Asked : WString → Prop where
  | manifest : Asked kManifestName
  | entry {input : List UInt8} {path : WString} :
      (∀ found ∈ package.all, found.isLink = false) → normalizeManifestPath input = some path →
        Asked path

/-- No entry names its file by an alias, such as the short name that a volume keeps for a long one. -/
def Unaliased (entries : List ManifestEntry) : Prop :=
  ∀ entry ∈ entries, ∀ found, package.resolve entry.relativePath = some found →
    lowerCopy found.relativePath = lowerCopy entry.relativePath

def Located (folder : Directory × List (WString × Item)) : Prop :=
  folder = (package.directory, package.items) ∨ folder ∈ package.folders

def contents? (path : WString) : Option (List UInt8) :=
  match (package.resolve path).map Found.item with
  | some (.file contents) => some contents
  | _ => none

def fileSize (path : WString) : Nat := ((package.contents? path).map List.length).getD 0

end Package

end Tree

section Enumerating
variable {package : Package} {directory : Directory} {items : List (WString × Item)}
  {enumeration next : Enumeration}

theorem everything_perm (directory : Directory) (items : List (WString × Item)) :
    (everything directory items).Perm (direct directory items ++
      ((direct directory items).filterMap Found.folder?).flatMap fun folder =>
        everything folder.1 folder.2) := by
  induction items with
  | nil => exact List.Perm.refl _
  | cons item items ih =>
    obtain ⟨name, item⟩ := item
    cases item with
    | file contents => exact ih.cons _
    | link isDirectory => exact ih.cons _
    | folder inner =>
      simp only [everything, Item.contained.inside, Item.contained, direct, List.map_cons,
        List.cons_append, List.filterMap_cons, Found.folder?, List.flatMap_cons] at ih ⊢
      refine List.Perm.cons _ ?_
      refine (ih.append_left _).trans ?_
      rw [← List.append_assoc, ← List.append_assoc]
      exact List.perm_append_comm.append_right _

/-- What listing files and folders makes of the locals. -/
def Enumeration.after (enumeration : Enumeration) (found : List Found) : Enumeration where
  pending := enumeration.pending ++ (found.filterMap Found.folder?).map Prod.fst
  folders := enumeration.folders + (found.filterMap Found.folder?).length
  relativePaths := enumeration.relativePaths ++ found.filterMap Found.listed?

structure Enumeration.Bounded (enumeration : Enumeration) : Prop where
  folders : enumeration.folders ≤ kMaximumManifestEntries + 1
  files : enumeration.relativePaths.length ≤ kMaximumManifestEntries

theorem Enumeration.after_append (enumeration : Enumeration) (found more : List Found) :
    enumeration.after (found ++ more) = (enumeration.after found).after more := by
  simp only [Enumeration.after, List.filterMap_append, List.map_append, List.length_append,
    List.append_assoc, Nat.add_assoc]

theorem Enumeration.Bounded.before {found : List Found} (h : (enumeration.after found).Bounded) :
    enumeration.Bounded where
  folders := (Nat.le_add_right _ _).trans h.folders
  files := by
    have hfiles := h.files
    rw [Enumeration.after, List.length_append] at hfiles
    omega

theorem visit_ok_iff {name : WString} {item : Item} (hdots : isDots name = false)
    (hbounded : enumeration.Bounded) :
    visit directory enumeration ⟨name, item.attributes⟩ = .ok next ↔
      next = enumeration.after [⟨directory, name, item⟩] ∧
        Found.isLink ⟨directory, name, item⟩ = false ∧ next.Bounded := by
  have hfolders := hbounded.folders
  have hfiles := hbounded.files
  cases item with
  | link isDirectory => simp [visit, hdots, Item.attributes, Found.isLink]
  | folder items =>
    simp only [visit, hdots, Item.attributes, Bool.false_eq_true, ↓reduceIte, Found.isLink]
    by_cases hroom : kMaximumManifestEntries + 1 ≤ enumeration.folders
    · rw [if_pos hroom]
      constructor
      · intro h
        cases h
      · intro h
        obtain ⟨hnext, -, hbound⟩ := h
        have hmore := hbound.folders
        rw [hnext] at hmore
        simp only [Enumeration.after, List.filterMap_cons, Found.folder?, List.filterMap_nil,
          List.length_singleton] at hmore
        omega
    · rw [if_neg hroom, Except.ok.injEq, eq_comm]
      simp only [Enumeration.after, Found.folder?, Found.listed?, List.filterMap_cons,
        List.filterMap_nil, List.map_cons, List.map_nil, List.length_singleton, List.append_nil,
        true_and, iff_self_and]
      intro hnext
      rw [hnext]
      exact ⟨by simp only; omega, hfiles⟩
  | file contents =>
    simp only [visit, hdots, Item.attributes, Bool.false_eq_true, ↓reduceIte, Found.isLink]
    cases hskips : directory.skips name with
    | true =>
      rw [if_pos rfl, Except.ok.injEq, eq_comm]
      simp only [Enumeration.after, Found.folder?, Found.listed?, List.filterMap_cons, hskips,
        List.filterMap_nil, List.map_nil, List.length_nil, List.append_nil, ↓reduceIte, Nat.add_zero,
        true_and, iff_self_and]
      intro hnext
      rw [hnext]
      exact hbounded
    | false =>
      rw [if_neg Bool.false_ne_true]
      by_cases hroom : kMaximumManifestEntries ≤ enumeration.relativePaths.length
      · rw [if_pos hroom]
        constructor
        · intro h
          cases h
        · intro h
          obtain ⟨hnext, -, hbound⟩ := h
          have hmore := hbound.files
          rw [hnext] at hmore
          simp only [Enumeration.after, List.filterMap_cons, Found.listed?, hskips,
            List.filterMap_nil, List.length_append, List.length_singleton, Bool.false_eq_true,
            ↓reduceIte] at hmore
          omega
      · rw [if_neg hroom, Except.ok.injEq, eq_comm]
        simp only [Enumeration.after, Found.folder?, Found.listed?, List.filterMap_cons, hskips,
          List.filterMap_nil, List.map_nil, List.length_nil, List.append_nil, Bool.false_eq_true,
          ↓reduceIte, Nat.add_zero, Found.relativePath, true_and, iff_self_and]
        intro hnext
        rw [hnext]
        exact ⟨hfolders, by rw [List.length_append, List.length_singleton]; omega⟩

/-- What a search tells of a folder's items, besides the folder itself and the one above. -/
def listing (found : List FindData) : List FindData := found.filter fun data => !isDots data.name

def Shows (found : List FindData) (items : List (WString × Item)) : Prop :=
  listing found = items.map fun item => ⟨item.1, item.2.attributes⟩

theorem visitAll_ok_iff {found : List FindData} (hshows : Shows found items)
    (hbounded : enumeration.Bounded) :
    visitAll directory enumeration found = .ok next ↔
      next = enumeration.after (direct directory items) ∧
        (∀ f ∈ direct directory items, f.isLink = false) ∧ next.Bounded := by
  induction found generalizing items enumeration with
  | nil =>
    obtain rfl : items = [] := by simpa [Shows, listing] using hshows.symm
    simp only [visitAll, Except.ok.injEq, eq_comm, Enumeration.after, direct, List.map_nil,
      List.filterMap_nil, List.length_nil, List.append_nil, Nat.add_zero, List.not_mem_nil,
      IsEmpty.forall_iff, implies_true, true_and, iff_self_and]
    intro hnext
    rw [hnext]
    exact hbounded
  | cons data found ih =>
    cases hdots : isDots data.name with
    | true =>
      have hrest : Shows found items := by simpa [Shows, listing, hdots] using hshows
      simp only [visitAll, visit, hdots, ↓reduceIte]
      exact ih hrest hbounded
    | false =>
      cases items with
      | nil => simp [Shows, listing, hdots] at hshows
      | cons item items =>
        obtain ⟨hdata, hrest⟩ : data = ⟨item.1, item.2.attributes⟩ ∧ Shows found items := by
          simpa [Shows, listing, hdots] using hshows
        rw [hdata] at hdots ⊢
        have hdirect : direct directory (item :: items) =
            [⟨directory, item.1, item.2⟩] ++ direct directory items := rfl
        rw [hdirect, Enumeration.after_append, visitAll]
        cases hvisit : visit directory enumeration ⟨item.1, item.2.attributes⟩ with
        | error error =>
          simp only [reduceCtorEq, false_iff]
          intro h
          obtain ⟨hnext, hlinks, hbound⟩ := h
          rw [hnext] at hbound
          have hfirst := (@visit_ok_iff directory _ _ _ _ hdots hbounded).mpr
            ⟨rfl, hlinks _ List.mem_cons_self, hbound.before⟩
          rw [hvisit] at hfirst
          cases hfirst
        | ok middle =>
          obtain ⟨hmiddle, hlink, hbound⟩ := (visit_ok_iff hdots hbounded).mp hvisit
          have hlinked : Found.isLink ⟨directory, item.1, item.2⟩ = false := hlink
          have hafter : enumeration.after [⟨directory, item.1, item.2⟩] = middle := hmiddle.symm
          simp only [List.singleton_append, List.forall_mem_cons, hlinked, hafter, true_and]
          exact ih hrest hbound

variable {system : PackageSystem}

/-- Whatever Windows answers about the package is so; it may refuse to answer. -/
structure Reflects (system : PackageSystem) (package : Package) : Prop where
  findFiles : ∀ folder found, package.Located folder →
    system.findFiles (joinPath folder.1.fullPath (wide "*")) = some (found, true) →
      Shows found folder.2
  attributesEx : ∀ path data, package.Asked path →
    system.getFileAttributesEx (joinPath package.root path) = some data →
      ∃ found, package.resolve path = some found ∧ data.attributes = found.item.attributes ∧
        ∀ contents, found.item = .file contents → data.fileBytes.toNat = contents.length
  information : ∀ path handle attributes, package.Asked path →
    handle.request.path = joinPath package.root path →
      system.fileInformation handle = some attributes →
        ∃ found, package.resolve path = some found ∧ attributes = found.item.attributes
  fileSize : ∀ path handle size contents, package.Asked path →
    handle.request.path = joinPath package.root path → package.contents? path = some contents →
      system.fileSize handle = some size → size = contents.length
  readFile : ∀ path handle offset requested bytes contents, package.Asked path →
    handle.request.path = joinPath package.root path → package.contents? path = some contents →
      system.readFile handle offset requested = some bytes →
        bytes <+: contents.drop offset ∧ bytes.length ≤ requested ∧
          (bytes = [] → 0 < requested → contents.length ≤ offset)

/-- A path that is looked up and names a file. -/
structure Package.Readable (package : Package) (path : WString) : Prop where
  asked : package.Asked path
  file : (package.contents? path).isSome

/-- Windows refuses nothing: what the package has is found, opened, resolved below the root, read and
hashed. -/
structure Responds (system : PackageSystem) (package : Package) : Prop where
  findFiles : ∀ folder, package.Located folder →
    ∃ found, system.findFiles (joinPath folder.1.fullPath (wide "*")) = some (found, true)
  attributesEx : ∀ path, package.Readable path →
    (system.getFileAttributesEx (joinPath package.root path)).isSome
  createFile : ∀ path attempt request, package.Readable path →
    request.path = joinPath package.root path → system.createFile attempt request = true
  information : ∀ path handle, package.Readable path →
    handle.request.path = joinPath package.root path → (system.fileInformation handle).isSome
  finalPath : ∀ path handle, package.Readable path →
    handle.request.path = joinPath package.root path →
      ∃ finalFile finalRoot, finalPathForHandle system.toSystem handle = some finalFile ∧
        system.finalRoot handle = some finalRoot ∧ pathWithinOrEqual finalFile finalRoot = true
  fileSize : ∀ path handle, package.Readable path →
    handle.request.path = joinPath package.root path → (system.fileSize handle).isSome
  readFile : ∀ path handle offset requested, package.Readable path →
    handle.request.path = joinPath package.root path →
      (system.readFile handle offset requested).isSome
  hashes : ∀ path handle, package.Readable path →
    handle.request.path = joinPath package.root path → system.hashes handle = true

/-- How far the loop over the folders has come: `queue` holds the folders still to be listed with their
items, `visited` what has been met. -/
structure Progress (package : Package) (enumeration : Enumeration)
    (queue : List (Directory × List (WString × Item))) (visited : List Found) : Prop where
  pending : enumeration.pending = queue.map Prod.fst
  located : ∀ folder ∈ queue, package.Located folder
  split : package.all.Perm (visited ++ queue.flatMap fun folder => everything folder.1 folder.2)
  folders : enumeration.folders = 1 + (visited.filterMap Found.folder?).length
  files : enumeration.relativePaths = visited.filterMap Found.listed?
  noLinks : ∀ found ∈ visited, found.isLink = false
  bounded : enumeration.Bounded

theorem Progress.start (package : Package) :
    Progress package ⟨[package.directory], 1, []⟩ [(package.directory, package.items)] [] where
  pending := rfl
  located := List.forall_mem_singleton.mpr (.inl rfl)
  split := by
    rw [List.flatMap_singleton, List.nil_append]
    exact List.Perm.refl _
  folders := rfl
  files := rfl
  noLinks := nofun
  bounded := ⟨Nat.le_add_left _ _, Nat.zero_le _⟩

/-- The next folder's items join what has been met, and its folders the queue. -/
theorem Progress.advance {folder : Directory × List (WString × Item)}
    {queue : List (Directory × List (WString × Item))} {visited : List Found}
    (h : Progress package enumeration (folder :: queue) visited)
    (hnext : next = Enumeration.after { enumeration with pending := queue.map Prod.fst }
      (direct folder.1 folder.2))
    (hlinks : ∀ found ∈ direct folder.1 folder.2, found.isLink = false) (hbounded : next.Bounded) :
    Progress package next (queue ++ (direct folder.1 folder.2).filterMap Found.folder?)
      (visited ++ direct folder.1 folder.2) := by
  have hsplit : package.all.Perm (visited ++ direct folder.1 folder.2 ++
      (queue ++ (direct folder.1 folder.2).filterMap Found.folder?).flatMap fun folder =>
        everything folder.1 folder.2) := by
    have hfolder := everything_perm folder.1 folder.2
    rw [List.flatMap_append, List.append_assoc]
    refine h.split.trans (List.Perm.append_left _ ?_)
    rw [List.flatMap_cons]
    refine (hfolder.append_right _).trans ?_
    rw [List.append_assoc]
    exact List.perm_append_comm.append_left _
  constructor
  case pending => rw [hnext, Enumeration.after, List.map_append]
  case located =>
    intro other hother
    rcases List.mem_append.mp hother with hother | hother
    · exact h.located other (List.mem_cons_of_mem _ hother)
    · obtain ⟨found, hfound, hitem⟩ := List.mem_filterMap.mp hother
      refine .inr (List.mem_filterMap.mpr ⟨found, hsplit.mem_iff.mpr ?_, hitem⟩)
      exact List.mem_append_left _ (List.mem_append_right _ hfound)
  case split => exact hsplit
  case folders =>
    rw [hnext, Enumeration.after, List.filterMap_append, List.length_append, ← Nat.add_assoc,
      ← h.folders]
  case files => rw [hnext, Enumeration.after, List.filterMap_append, ← h.files]
  case noLinks =>
    intro found hfound
    rcases List.mem_append.mp hfound with hfound | hfound
    · exact h.noLinks found hfound
    · exact hlinks found hfound
  case bounded => exact hbounded

/-- No links, and no more folders and files than the code allows. -/
structure Package.Listable (package : Package) : Prop where
  noLinks : ∀ found ∈ package.all, found.isLink = false
  folders : package.folders.length ≤ kMaximumManifestEntries
  files : package.files.length ≤ kMaximumManifestEntries

theorem Progress.finish {visited : List Found} (h : Progress package enumeration [] visited) :
    package.Listable ∧ enumeration.relativePaths.Perm package.files := by
  have hall : package.all.Perm visited := by simpa using h.split
  have hfolders := h.bounded.folders
  have hfiles := h.bounded.files
  have hcount := (hall.filterMap Found.folder?).length_eq
  have hlisted := hall.filterMap Found.listed?
  rw [h.folders] at hfolders
  refine ⟨⟨?_, ?_, ?_⟩, ?_⟩
  · intro found hfound
    exact h.noLinks found (hall.mem_iff.mp hfound)
  · rw [Package.folders, hcount]
    omega
  · rw [Package.files, hlisted.length_eq, ← h.files]
    exact hfiles
  · rw [h.files]
    exact hlisted.symm

theorem enumerateLoop_ok (hreflects : Reflects system package)
    {queue : List (Directory × List (WString × Item))} {visited : List Found} {fuel : Nat}
    {paths : List WString} (h : Progress package enumeration queue visited)
    (hfuel : kMaximumManifestEntries + 1 + queue.length = fuel + enumeration.folders)
    (hok : enumerateLoop system fuel enumeration = .ok paths) :
    package.Listable ∧ paths.Perm package.files := by
  induction fuel generalizing enumeration queue visited with
  | zero =>
    have hbound := h.bounded.folders
    obtain rfl : queue = [] := List.eq_nil_of_length_eq_zero (by omega)
    obtain rfl : enumeration.relativePaths = paths := Except.ok.inj hok
    exact h.finish
  | succ fuel ih =>
    cases queue with
    | nil =>
      have hpending : enumeration.pending = [] := h.pending
      simp only [enumerateLoop, hpending, Except.ok.injEq] at hok
      rw [← hok]
      exact h.finish
    | cons folder queue =>
      have hpending : enumeration.pending = folder.1 :: queue.map Prod.fst := h.pending
      simp only [enumerateLoop, hpending] at hok
      cases hfind : system.findFiles (joinPath folder.1.fullPath (wide "*")) with
      | none =>
        simp only [hfind, reduceCtorEq] at hok
      | some answer =>
        obtain ⟨found, finished⟩ := answer
        simp only [hfind] at hok
        cases hvisit : visitAll folder.1 { enumeration with pending := queue.map Prod.fst } found with
        | error error => simp only [hvisit, reduceCtorEq] at hok
        | ok next =>
          simp only [hvisit] at hok
          cases finished with
          | false => simp only [Bool.false_eq_true, ↓reduceIte, reduceCtorEq] at hok
          | true =>
            rw [if_pos rfl] at hok
            have hshows := hreflects.findFiles folder found (h.located _ List.mem_cons_self) hfind
            have hbounded : Enumeration.Bounded { enumeration with pending := queue.map Prod.fst } :=
              ⟨h.bounded.folders, h.bounded.files⟩
            obtain ⟨hnext, hlinks, hbound⟩ := (visitAll_ok_iff hshows hbounded).mp hvisit
            refine ih (h.advance hnext hlinks hbound) ?_ hok
            rw [hnext, Enumeration.after, List.length_append]
            simp only [List.length_cons] at hfuel ⊢
            omega

theorem Progress.room {queue : List (Directory × List (WString × Item))} {visited : List Found}
    {folder : Directory × List (WString × Item)}
    (h : Progress package enumeration (folder :: queue) visited) (hlistable : package.Listable) :
    (∀ found ∈ direct folder.1 folder.2, found.isLink = false) ∧
      (Enumeration.after { enumeration with pending := queue.map Prod.fst }
        (direct folder.1 folder.2)).Bounded := by
  have hsplit : package.all.Perm (visited ++ direct folder.1 folder.2 ++
      (((direct folder.1 folder.2).filterMap Found.folder?).flatMap (fun folder =>
        everything folder.1 folder.2) ++ queue.flatMap fun folder =>
          everything folder.1 folder.2)) := by
    refine h.split.trans ?_
    rw [List.flatMap_cons, List.append_assoc, ← List.append_assoc (direct _ _)]
    exact ((everything_perm folder.1 folder.2).append_right _).append_left _
  refine ⟨?_, ?_, ?_⟩
  · intro found hfound
    apply hlistable.noLinks found
    apply hsplit.mem_iff.mpr
    exact List.mem_append_left _ (List.mem_append_right _ hfound)
  · have hcount := (hsplit.filterMap Found.folder?).length_eq
    have hlimit := hlistable.folders
    rw [Package.folders, hcount] at hlimit
    simp only [List.filterMap_append, List.length_append] at hlimit
    simp only [Enumeration.after, h.folders]
    omega
  · have hcount := (hsplit.filterMap Found.listed?).length_eq
    have hlimit := hlistable.files
    rw [Package.files, hcount] at hlimit
    simp only [List.filterMap_append, List.length_append] at hlimit
    simp only [Enumeration.after, h.files, List.length_append]
    omega

theorem enumerateLoop_returns (hreflects : Reflects system package) (hresponds : Responds system package)
    (hlistable : package.Listable) {queue : List (Directory × List (WString × Item))}
    {visited : List Found} {fuel : Nat} (h : Progress package enumeration queue visited) :
    ∃ paths, enumerateLoop system fuel enumeration = .ok paths := by
  induction fuel generalizing enumeration queue visited with
  | zero => exact ⟨_, rfl⟩
  | succ fuel ih =>
    cases queue with
    | nil =>
      have hpending : enumeration.pending = [] := h.pending
      exact ⟨enumeration.relativePaths, by simp only [enumerateLoop, hpending]⟩
    | cons folder queue =>
      have hpending : enumeration.pending = folder.1 :: queue.map Prod.fst := h.pending
      have hlocated := h.located _ List.mem_cons_self
      obtain ⟨found, hfind⟩ := hresponds.findFiles folder hlocated
      obtain ⟨hlinks, hbound⟩ := h.room hlistable
      have hbounded : Enumeration.Bounded { enumeration with pending := queue.map Prod.fst } :=
        ⟨h.bounded.folders, h.bounded.files⟩
      have hvisit := (visitAll_ok_iff (hreflects.findFiles folder found hlocated hfind) hbounded).mpr
        ⟨rfl, hlinks, hbound⟩
      obtain ⟨paths, hpaths⟩ := ih (h.advance rfl hlinks hbound)
      refine ⟨paths, ?_⟩
      simp only [enumerateLoop, hpending, hfind, hvisit, ↓reduceIte]
      exact hpaths

theorem enumeratePackageFiles_ok (hreflects : Reflects system package) {paths : List WString}
    (hok : enumeratePackageFiles system package.root = .ok paths) :
    package.Listable ∧ paths.Perm package.files :=
  enumerateLoop_ok hreflects (Progress.start package) rfl hok

theorem enumeratePackageFiles_returns (hreflects : Reflects system package)
    (hresponds : Responds system package) (hlistable : package.Listable) :
    ∃ paths, enumeratePackageFiles system package.root = .ok paths ∧ paths.Perm package.files := by
  obtain ⟨paths, hpaths⟩ :=
    @enumerateLoop_returns _ _ _ hreflects hresponds hlistable _ _ (kMaximumManifestEntries + 1)
      (Progress.start package)
  exact ⟨paths, hpaths, (enumeratePackageFiles_ok hreflects hpaths).2⟩

end Enumerating

end FfbInterceptor.Manager
