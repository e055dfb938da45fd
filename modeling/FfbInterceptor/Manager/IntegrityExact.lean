import FfbInterceptor.Manager.ManifestExact
import FfbInterceptor.Manager.PackageFiles

/-! When the check of a package succeeds, over every folder tree and every way Windows can refuse. -/
namespace FfbInterceptor.Manager
open FfbInterceptor.Launcher

section Names

theorem equalIgnoringCase_congr {left left' : WString} (h : lowerCopy left = lowerCopy left')
    (right : WString) : equalIgnoringCase left right = equalIgnoringCase left' right := by
  rw [equalIgnoringCase, equalIgnoringCase, lowerCopy_cString, lowerCopy_cString left', h]

theorem PathText.Safe.ascii {path : PathText} (h : path.Safe) : ∀ c ∈ path.normalized, c ≤ 0x7E := by
  have hsegment : ∀ segment, SafeSegment segment → ∀ c ∈ asciiToWide segment, c ≤ 0x7E := by
    intro segment hsafe c hc
    obtain ⟨byte, hbyte, rfl⟩ := List.mem_map.mp hc
    have hle := (hsafe.printable byte hbyte).2
    rw [UInt16.le_iff_toNat_le, UInt8.toNat_toUInt16]
    exact UInt8.le_iff_toNat_le.mp hle
  intro c hc
  rw [PathText.normalized, List.mem_append, List.mem_flatMap] at hc
  rcases hc with hc | ⟨next, hnext, hc⟩
  · exact hsegment _ h.first c hc
  · rcases List.mem_cons.mp hc with rfl | hc
    · decide
    · exact hsegment _ (h.more next hnext).2 c hc

theorem Manifest.ascii {tails : List (List UInt8)} {text : List UInt8} {entries : List ManifestEntry}
    (h : Manifest tails text entries) {entry : ManifestEntry} (hentry : entry ∈ entries) :
    ∀ c ∈ entry.relativePath, c ≤ 0x7E := by
  obtain ⟨rows, -, hvalid, rfl⟩ := h.rows
  obtain ⟨row, hrow, hrowEntry⟩ := List.mem_filterMap.mp hentry
  cases row with
  | blank => cases hrowEntry
  | entry digest path =>
    rw [← Option.some.inj hrowEntry]
    exact (hvalid _ hrow).2.2.ascii

/-- Once no link has been met, the entries of a manifest are among the paths that are looked up. -/
theorem Manifest.asked {package : Package} {tails : List (List UInt8)} {text : List UInt8}
    {entries : List ManifestEntry} (h : Manifest tails text entries)
    (hlinks : ∀ found ∈ package.all, found.isLink = false) :
    ∀ entry ∈ entries, package.Asked entry.relativePath := by
  intro entry hentry
  obtain ⟨rows, -, hvalid, rfl⟩ := h.rows
  obtain ⟨row, hrow, hrowEntry⟩ := List.mem_filterMap.mp hentry
  cases row with
  | blank => cases hrowEntry
  | entry digest path =>
    rw [← Option.some.inj hrowEntry]
    exact .entry hlinks (normalizeManifestPath_iff.mpr ⟨path, (hvalid _ hrow).2.2, rfl, rfl⟩)

end Names

section Exactness
variable {package : Package} {system : PackageSystem} {entries : List ManifestEntry}

/-- What a package has to be: a manifest of these entries, no links, every file listed up to the case of
letters and as many files as entries, all required files listed, every entry intact. -/
structure Verified (system : PackageSystem) (package : Package) (entries : List ManifestEntry) :
    Prop where
  manifest : ∃ contents, package.contents? kManifestName = some contents ∧
    parseManifestText contents = ⟨true, entries, none⟩
  listable : package.Listable
  count : package.files.length = entries.length
  listed : ∀ path ∈ package.files, ∃ entry ∈ entries, entry.key = lowerCopy path
  required : ∀ path ∈ required, ∃ entry ∈ entries, entry.key = lowerCopy path
  entries : AllIntact system package entries kMaximumPackageBytes.toNat

theorem lists_iff {path : WString} : lists entries path = true ↔
    ∃ entry ∈ entries, entry.key = lowerCopy path := by
  rw [lists, List.contains_iff_mem, List.mem_map]
  rfl

theorem filter_unlisted_isEmpty {paths : List WString} :
    (paths.filter fun path => !lists entries path).isEmpty = true ↔
      ∀ path ∈ paths, ∃ entry ∈ entries, entry.key = lowerCopy path := by
  rw [List.isEmpty_iff, List.filter_eq_nil_iff]
  apply forall₂_congr
  intro path _
  rw [← lists_iff]
  cases lists entries path <;> simp

/-- A file that is named like an entry is not skipped when the manifest does not list itself. -/
theorem skips_eq_false
    (hself : ∀ entry ∈ entries, equalIgnoringCase entry.relativePath kManifestName = false)
    {entry : ManifestEntry} (hentry : entry ∈ entries) {found : Found}
    (hname : lowerCopy found.relativePath = lowerCopy entry.relativePath) :
    found.directory.skips found.name = false := by
  cases hskips : found.directory.skips found.name with
  | false => rfl
  | true =>
    obtain ⟨hroot, hequal⟩ := Bool.and_eq_true_iff.mp hskips
    have hrelative : found.relativePath = found.name := if_pos hroot
    rw [hrelative] at hname
    rw [equalIgnoringCase_congr hname, hself entry hentry] at hequal
    cases hequal

/-- Files and entries correspond one to one when the manifest neither lists itself nor uses aliases. -/
theorem Verified.perm (h : Verified system package entries)
    (hself : ∀ entry ∈ entries, equalIgnoringCase entry.relativePath kManifestName = false)
    (halias : package.Unaliased entries) :
    (package.files.map lowerCopy).Perm (entries.map ManifestEntry.key) := by
  obtain ⟨contents, -, hparse⟩ := h.manifest
  have hmanifest := parseManifestText_iff.mp hparse
  have hsubset : entries.map ManifestEntry.key ⊆ package.files.map lowerCopy := by
    intro key hkey
    obtain ⟨entry, hentry, rfl⟩ := List.mem_map.mp hkey
    obtain ⟨contents, hintact⟩ := h.entries.intact entry hentry
    have hfile := hintact.file
    cases hresolve : package.resolve entry.relativePath with
    | none => simp [Package.contents?, hresolve] at hfile
    | some found =>
      have hname := halias entry hentry found hresolve
      have hskips := skips_eq_false hself hentry hname
      refine List.mem_map.mpr ⟨found.relativePath, ?_, hname⟩
      refine List.mem_filterMap.mpr ⟨found, package.resolve_mem _ _ hresolve, ?_⟩
      cases hitem : found.item with
      | file contents => simp only [Found.listed?, hitem, hskips, Bool.false_eq_true, ↓reduceIte]
      | link isDirectory => simp [Package.contents?, hresolve, hitem] at hfile
      | folder items => simp [Package.contents?, hresolve, hitem] at hfile
  have hsubperm := List.subperm_of_subset hmanifest.distinct hsubset
  refine (hsubperm.perm_of_length_le ?_).symm
  rw [List.length_map, List.length_map, h.count]

theorem verifyEntries_valid_iff (hreflects : Reflects system package) {world : World}
    {contents : List UInt8} (hmanifest : package.contents? kManifestName = some contents)
    (hparse : parseManifestText contents = ⟨true, entries, none⟩) :
    ((verifyEntries system world package.root entries).valid = true →
      Verified system package entries) ∧
    (Responds system package → Verified system package entries →
      (verifyEntries system world package.root entries).valid = true) := by
  have hasked := @Manifest.asked package _ _ _ (parseManifestText_iff.mp hparse)
  constructor
  · intro hvalid
    simp only [verifyEntries] at hvalid
    cases henumerate : enumeratePackageFiles system package.root with
    | error error => simp [henumerate, IntegrityReport.refused] at hvalid
    | ok actualFiles =>
      obtain ⟨hlistable, hperm⟩ := enumeratePackageFiles_ok hreflects henumerate
      simp only [henumerate] at hvalid
      by_cases hcount : actualFiles.length ≠ entries.length
      · simp [hcount, IntegrityReport.refused] at hvalid
      · rw [if_neg hcount] at hvalid
        cases hunlisted : (actualFiles.filter fun path => !lists entries path).isEmpty with
        | false => simp [hunlisted] at hvalid
        | true =>
          cases hmissing : (required.filter fun path => !lists entries path).isEmpty with
          | false => simp [hunlisted, hmissing] at hvalid
          | true =>
            simp only [hunlisted, hmissing, Bool.not_true, Bool.false_eq_true, ↓reduceIte,
              Bool.and_eq_true, List.isEmpty_iff] at hvalid
            constructor
            case manifest => exact ⟨contents, hmanifest, hparse⟩
            case listable => exact hlistable
            case count => rw [← hperm.length_eq, not_not.mp hcount]
            case listed =>
              intro path hpath
              exact Iff.mp filter_unlisted_isEmpty hunlisted path (hperm.mem_iff.mpr hpath)
            case required => exact Iff.mp filter_unlisted_isEmpty hmissing
            case entries =>
              exact checkEntries_ok hreflects _ (hasked hlistable.noLinks) _ hvalid.1 (Nat.zero_le _)
  · intro hresponds h
    obtain ⟨actualFiles, henumerate, hperm⟩ :=
      enumeratePackageFiles_returns hreflects hresponds h.listable
    have hcount : ¬actualFiles.length ≠ entries.length := by
      rw [hperm.length_eq, h.count]
      exact not_not.mpr rfl
    have hunlisted : (actualFiles.filter fun path => !lists entries path).isEmpty = true := by
      apply Iff.mpr filter_unlisted_isEmpty
      intro path hpath
      exact h.listed path (hperm.mem_iff.mp hpath)
    have hmissing := Iff.mpr filter_unlisted_isEmpty h.required
    obtain ⟨hnone, hverified⟩ := checkEntries_returns hreflects hresponds entries
      (hasked h.listable.noLinks) ⟨world, 0, 0, []⟩ h.entries (Nat.zero_le _) rfl
    simp only [verifyEntries, henumerate, if_neg hcount, hunlisted, hmissing, hnone, hverified,
      Bool.not_true, Bool.false_eq_true, ↓reduceIte, List.isEmpty_nil, Nat.zero_add, decide_true,
      Bool.and_self]

/-- When a package is valid, whatever Windows refuses; a verified one is when Windows refuses nothing. -/
theorem integrity_exact (hreflects : Reflects system package) (world : World) :
    ((verifyPackageIntegrity system world (makePackageLayout package.root)).valid = true →
      pathIsAbsoluteLocal system.getDriveType package.root = true ∧
        ∃ entries, Verified system package entries ∧
          ((∀ entry ∈ entries, equalIgnoringCase entry.relativePath kManifestName = false) →
            package.Unaliased entries →
              (package.files.map lowerCopy).Perm (entries.map ManifestEntry.key))) ∧
    (Responds system package → pathIsAbsoluteLocal system.getDriveType package.root = true →
      ∀ entries, Verified system package entries →
        (verifyPackageIntegrity system world (makePackageLayout package.root)).valid = true) := by
  constructor
  · intro hvalid
    simp only [verifyPackageIntegrity, makePackageLayout] at hvalid
    cases hempty : package.root.isEmpty with
    | true => simp [hempty, IntegrityReport.refused] at hvalid
    | false =>
      cases hlocal : pathIsAbsoluteLocal system.getDriveType package.root with
      | false => simp [hempty, hlocal, IntegrityReport.refused] at hvalid
      | true =>
        simp only [hempty, hlocal, Bool.not_true, Bool.false_eq_true, ↓reduceIte] at hvalid
        cases hread : readFileLimited system.toSystem world (joinPath package.root kManifestName)
            kMaximumManifestBytes with
        | mk answer after =>
          cases answer with
          | error error => simp [hread, IntegrityReport.refused] at hvalid
          | ok contents =>
            obtain ⟨hmanifest, -⟩ := readFileLimited_ok hreflects .manifest hread
            simp only [hread] at hvalid
            cases hsucceeded : (parseManifestText contents).succeeded with
            | false => simp [hsucceeded, IntegrityReport.refused] at hvalid
            | true =>
              rw [hsucceeded, if_pos rfl] at hvalid
              have hverified := (verifyEntries_valid_iff hreflects hmanifest
                (eq_of_succeeded hsucceeded)).1 hvalid
              exact ⟨rfl, _, hverified, hverified.perm⟩
  · intro hresponds hlocal entries h
    obtain ⟨contents, hmanifest, hparse⟩ := h.manifest
    have hempty : package.root.isEmpty = false := by
      cases hroot : package.root with
      | nil => simp [hroot, pathIsAbsoluteLocal] at hlocal
      | cons c rest => rfl
    have hlength := (parseManifestText_iff.mp hparse).size.2
    obtain ⟨after, hread⟩ :=
      readFileLimited_returns hreflects .manifest hresponds hmanifest hlength world
    simp only [verifyPackageIntegrity, makePackageLayout, hempty, hlocal, hread, hparse, Bool.not_true,
      Bool.false_eq_true, ↓reduceIte]
    exact (verifyEntries_valid_iff hreflects hmanifest hparse).2 hresponds h

end Exactness

section Samples

/-- A name is looked up as it is written, and else without regard to the case of its letters. -/
def lookUp (all : List Found) (path : WString) : Option Found :=
  (all.find? fun found => found.relativePath = path).or
    (all.find? fun found => lowerCopy found.relativePath = lowerCopy path)

theorem lookUp_some {all : List Found} {path : WString} {found : Found}
    (h : lookUp all path = some found) :
    found ∈ all ∧ lowerCopy found.relativePath = lowerCopy path := by
  rcases Option.or_eq_some_iff.mp h with h | ⟨-, h⟩
  · have hsame := List.find?_some h
    rw [of_decide_eq_true hsame]
    exact ⟨List.mem_of_find?_eq_some h, rfl⟩
  · have hsame := List.find?_some h
    exact ⟨List.mem_of_find?_eq_some h, of_decide_eq_true hsame⟩

/-- The package folder of these items, some of which have another name besides their own. -/
def packageOf (root : WString) (aliases : List (WString × WString)) (items : List (WString × Item)) :
    Package where
  root := root
  items := items
  resolve := fun path => (lookUp (everything ⟨root, []⟩ items) path).or
    ((aliases.lookup path).bind (lookUp (everything ⟨root, []⟩ items)))
  resolve_mem := by
    intro path found h
    rcases Option.or_eq_some_iff.mp h with h | ⟨-, h⟩
    · exact (lookUp_some h).1
    · obtain ⟨own, -, h⟩ := Option.bind_eq_some_iff.mp h
      exact (lookUp_some h).1

theorem sameName_packageOf {root : WString} {items : List (WString × Item)} {path : WString}
    {found : Found} (h : (packageOf root [] items).resolve path = some found) :
    lowerCopy found.relativePath = lowerCopy path := by
  rcases Option.or_eq_some_iff.mp h with h | ⟨-, h⟩
  · exact (lookUp_some h).2
  · cases h

/-- Windows, refusing nothing. All that is hashed has the same digest, and the root is found as well. -/
def windowsFor (package : Package) (digest : Installer.Digest) : PackageSystem :=
  let attributes (path : WString) :=
    if path = package.root then some ⟨true, false⟩
    else (package.resolve (path.drop (package.root.length + 1))).map fun found => found.item.attributes
  let contents (path : WString) := (package.contents? (path.drop (package.root.length + 1))).getD []
  let folders := (package.directory, package.items) :: package.folders
  { createFile := fun _ request => (attributes request.path).isSome
    fileInformation := fun handle => attributes handle.request.path
    finalPathLength := fun handle => handle.request.path.length + 4
    finalPathName := fun handle => wide "\\\\?\\" ++ handle.request.path
    fileSize := fun handle => some (contents handle.request.path).length
    readFile := fun handle offset requested =>
      some (((contents handle.request.path).drop offset).take requested)
    getDriveType := fun _ => .fixed
    findFiles := fun pattern =>
      (folders.find? fun folder => joinPath folder.1.fullPath (wide "*") = pattern).map fun folder =>
        (folder.2.map fun item => ⟨item.1, item.2.attributes⟩, true)
    getFileAttributesEx := fun path => (attributes path).map fun attributes =>
      ⟨attributes, 0, (contents path).length.toUInt32⟩
    finalRoot := fun _ => some package.root
    hashes := fun _ => true
    sha256 := fun _ => digest }

def Found.size (found : Found) : Nat :=
  match found.item with
  | .file contents => contents.length
  | _ => 0

/-- Folders that can be told apart, none of them named like the folder itself or the one above. -/
structure Package.Ordinary (package : Package) : Prop where
  root : package.root ≠ [] ∧ package.root.getLast? ≠ some backslash ∧
    package.root.getLast? ≠ some wideSlash
  patterns : (((package.directory, package.items) :: package.folders).map fun folder =>
    joinPath folder.1.fullPath (wide "*")).Nodup
  names : ∀ folder ∈ (package.directory, package.items) :: package.folders,
    ∀ item ∈ folder.2, isDots item.1 = false
  small : ∀ found ∈ package.all, found.size < 4294967296

theorem Package.ordinary_iff (package : Package) : package.Ordinary ↔
    (package.root ≠ [] ∧ package.root.getLast? ≠ some backslash ∧
      package.root.getLast? ≠ some wideSlash) ∧
    (((package.directory, package.items) :: package.folders).map fun folder =>
      joinPath folder.1.fullPath (wide "*")).Nodup ∧
    (∀ folder ∈ (package.directory, package.items) :: package.folders,
      ∀ item ∈ folder.2, isDots item.1 = false) ∧
    ∀ found ∈ package.all, found.size < 4294967296 :=
  ⟨fun h => ⟨h.root, h.patterns, h.names, h.small⟩, fun h => ⟨h.1, h.2.1, h.2.2.1, h.2.2.2⟩⟩

instance (package : Package) : Decidable package.Ordinary := decidable_of_iff _ package.ordinary_iff.symm

theorem drop_joinPath {root : WString} (hempty : root ≠ []) (hbackslash : root.getLast? ≠ some backslash)
    (hslash : root.getLast? ≠ some wideSlash) (path : WString) :
    (joinPath root path).drop (root.length + 1) = path := by
  have hnonempty : root.isEmpty = false := List.isEmpty_eq_false_iff.mpr hempty
  cases path with
  | nil => simp [joinPath, hnonempty]
  | cons c path =>
    have hjoin : joinPath root (c :: path) = root ++ [backslash] ++ c :: path := by
      simp only [joinPath, hnonempty, hbackslash, hslash, List.isEmpty_cons, Bool.false_eq_true,
        decide_false, Bool.or_self, ↓reduceIte]
    rw [hjoin]
    apply List.drop_left'
    rw [List.length_append, List.length_singleton]

theorem toNat_fileBytes {data : FileAttributeData} {length : Nat} (hlength : length < 4294967296)
    (hhigh : data.fileSizeHigh = 0) (hlow : data.fileSizeLow = length.toUInt32) :
    data.fileBytes.toNat = length := by
  rw [FileAttributeData.fileBytes, hhigh, hlow]
  have hzero : (0 : UInt32).toUInt64 <<< 32 = 0 := by decide
  rw [hzero, UInt64.zero_or, UInt32.toNat_toUInt64, Nat.toUInt32, UInt32.toNat_ofNat',
    Nat.mod_eq_of_lt hlength]

theorem Package.Asked.ne_nil {package : Package} {path : WString} (h : package.Asked path) : path ≠ [] := by
  cases h with
  | manifest => decide +kernel
  | entry hlinks hnormalized =>
    obtain ⟨text, hsafe, -, rfl⟩ := normalizeManifestPath_iff.mp hnormalized
    apply List.append_ne_nil_of_left_ne_nil
    exact fun hnil => hsafe.first.nonempty (List.map_eq_nil_iff.mp hnil)

theorem joinPath_ne_root {root path : WString}
    (hdrop : (joinPath root path).drop (root.length + 1) = path) (hpath : path ≠ []) :
    joinPath root path ≠ root := by
  intro heq
  rw [heq, List.drop_eq_nil_of_le (Nat.le_succ _)] at hdrop
  exact hpath hdrop.symm

theorem windowsFor_reflects {package : Package} (h : package.Ordinary) (digest : Installer.Digest) :
    Reflects (windowsFor package digest) package := by
  have hdrop := drop_joinPath h.root.1 h.root.2.1 h.root.2.2
  constructor
  case findFiles =>
    intro folder found hlocated hfind
    have hmem : folder ∈ (package.directory, package.items) :: package.folders := by
      rcases hlocated with rfl | hfolder
      · exact List.mem_cons_self
      · exact List.mem_cons_of_mem _ hfolder
    obtain ⟨other, hother, hanswer⟩ := Option.map_eq_some_iff.mp hfind
    have hfound := List.find?_some hother
    have hpattern := of_decide_eq_true hfound
    obtain rfl := List.inj_on_of_nodup_map h.patterns (List.mem_of_find?_eq_some hother) hmem hpattern
    rw [← (Prod.mk.inj hanswer).1, Shows, listing, List.filter_eq_self]
    intro data hdata
    obtain ⟨item, hitem, rfl⟩ := List.mem_map.mp hdata
    rw [h.names _ hmem item hitem]
    rfl
  case attributesEx =>
    intro path data hasked hdata
    simp only [windowsFor, hdrop, joinPath_ne_root (hdrop path) hasked.ne_nil, ↓reduceIte,
      Option.map_map] at hdata
    obtain ⟨found, hresolve, rfl⟩ := Option.map_eq_some_iff.mp hdata
    refine ⟨found, hresolve, rfl, ?_⟩
    intro contents hitem
    have hcontents : package.contents? path = some contents := by
      simp only [Package.contents?, hresolve, Option.map_some, hitem]
    have hsmall := h.small found (package.resolve_mem _ _ hresolve)
    rw [Found.size, hitem] at hsmall
    refine toNat_fileBytes hsmall rfl ?_
    simp only [Function.comp_apply, hcontents, Option.getD_some]
  case information =>
    intro path handle attributes hasked hpath hinformation
    simp only [windowsFor, hpath, hdrop, joinPath_ne_root (hdrop path) hasked.ne_nil,
      ↓reduceIte] at hinformation
    obtain ⟨found, hresolve, rfl⟩ := Option.map_eq_some_iff.mp hinformation
    exact ⟨found, hresolve, rfl⟩
  case fileSize =>
    intro path handle size contents _ hpath hcontents hsize
    simp only [windowsFor, hpath, hdrop, hcontents, Option.getD_some, Option.some.injEq] at hsize
    exact hsize.symm
  case readFile =>
    intro path handle offset requested bytes contents _ hpath hcontents hread
    simp only [windowsFor, hpath, hdrop, hcontents, Option.getD_some, Option.some.injEq] at hread
    rw [← hread]
    refine ⟨List.take_prefix _ _, List.length_take_le _ _, ?_⟩
    intro hnil hpositive
    rw [List.take_eq_nil_iff] at hnil
    rcases hnil with hzero | hnil
    · omega
    · exact List.drop_eq_nil_iff.mp hnil

def emptyDigest : Installer.Digest := fun i =>
  ([0xE3, 0xB0, 0xC4, 0x42, 0x98, 0xFC, 0x1C, 0x14, 0x9A, 0xFB, 0xF4, 0xC8, 0x99, 0x6F, 0xB9, 0x24,
    0x27, 0xAE, 0x41, 0xE4, 0x64, 0x9B, 0x93, 0x4C, 0xA4, 0x95, 0x99, 0x1B, 0x78, 0x52, 0xB8, 0x55] :
      List (Fin 256)).getD i.val 0

def emptyFiles (paths : List String) : List UInt8 :=
  paths.flatMap fun path =>
    (emptyDigest.toHex.map fun c => c.toNat.toUInt8) ++ ascii "  " ++ ascii path ++ [lineFeed]

def requiredNames : List String :=
  ["FFBInterceptor.Manager.exe", "Install-SimHubPlugin.ps1", "Uninstall-SimHubPlugin.ps1",
    "FFBInterceptor.Common.ps1", "launcher/x86/FFBInterceptor.Launcher.exe",
    "launcher/x86/FFBInterceptor.Hook.dll", "launcher/x64/FFBInterceptor.Launcher.exe",
    "launcher/x64/FFBInterceptor.Hook.dll", "simhub/FFBInterceptor.Core.dll",
    "simhub/FFBInterceptor.SimHub.dll", "Start-FFBInterceptor.ps1"]

def named (names : List String) : List (WString × Item) := names.map fun name => (wide name, .file [])

def launcherItems : List (WString × Item) :=
  named ["FFBInterceptor.Launcher.exe", "FFBInterceptor.Hook.dll"]

def sampleRoot : WString := wide "C:\\p"

/-- A package in a folder that tells capital from small letters, with more files and more entries than
those required. -/
def packageWith (files entries : List String) : Package :=
  packageOf sampleRoot [] <|
    [(kManifestName, .file (emptyFiles (requiredNames ++ entries)))] ++
    named (["FFBInterceptor.Manager.exe", "Install-SimHubPlugin.ps1", "Uninstall-SimHubPlugin.ps1",
      "FFBInterceptor.Common.ps1", "Start-FFBInterceptor.ps1"] ++ files) ++
    [(wide "launcher", .folder
        [(wide "x86", .folder launcherItems), (wide "x64", .folder launcherItems)]),
      (wide "simhub", .folder (named ["FFBInterceptor.Core.dll", "FFBInterceptor.SimHub.dll"]))]

theorem isSome_resolve {package : Package} {path : WString} (h : (package.contents? path).isSome) :
    (package.resolve path).isSome := by
  cases hresolve : package.resolve path with
  | some found => rfl
  | none => simp [Package.contents?, hresolve] at h

theorem sampleRoot_letters : sampleRoot = [0x43, 0x3A, 0x5C, 0x70] := by decide +kernel

theorem extended_letters : wide "\\\\?\\" = [0x5C, 0x5C, 0x3F, 0x5C] := by decide +kernel

theorem stripExtendedStart_sampleRoot (rest : WString) :
    stripExtendedStart (wide "\\\\?\\" ++ (sampleRoot ++ rest)) = sampleRoot ++ rest := by
  have hshared : wide "\\\\?\\UNC\\" = [0x5C, 0x5C, 0x3F, 0x5C, 0x55, 0x4E, 0x43, 0x5C] := by
    decide +kernel
  simp [stripExtendedStart, extended_letters, hshared, sampleRoot_letters]

theorem pathWithinOrEqual_sampleRoot (path : WString) :
    pathWithinOrEqual (joinPath sampleRoot path) sampleRoot = true := by
  cases path with
  | nil => simp [joinPath, sampleRoot_letters, pathWithinOrEqual, equalIgnoringCase]
  | cons c path =>
    simp [joinPath, sampleRoot_letters, pathWithinOrEqual, startsWithCaseInsensitive, equalIgnoringCaseUpTo,
      isWideSeparator, backslash, wideSlash, List.rdropWhile]

theorem packageWith_responds {files entries : List String}
    (hlength : ∀ found ∈ (packageWith files entries).all, found.relativePath.length ≤ 32000) :
    Responds (windowsFor (packageWith files entries) emptyDigest) (packageWith files entries) := by
  have hdrop : ∀ path, (joinPath (packageWith files entries).root path).drop
      ((packageWith files entries).root.length + 1) = path := by
    refine @drop_joinPath sampleRoot ?_ ?_ ?_ <;> rw [sampleRoot_letters] <;> decide
  constructor
  case findFiles =>
    intro folder hlocated
    have hmem : folder ∈ ((packageWith files entries).directory, (packageWith files entries).items) ::
        (packageWith files entries).folders := by
      rcases hlocated with rfl | hfolder
      · exact List.mem_cons_self
      · exact List.mem_cons_of_mem _ hfolder
    have hfind : (((packageWith files entries).directory, (packageWith files entries).items) ::
        (packageWith files entries).folders).find? (fun other =>
          joinPath other.1.fullPath (wide "*") = joinPath folder.1.fullPath (wide "*")) ≠ none := by
      rw [ne_eq, List.find?_eq_none]
      intro hnone
      exact hnone folder hmem (decide_eq_true rfl)
    obtain ⟨other, hother⟩ := Option.ne_none_iff_exists'.mp hfind
    exact ⟨_, congrArg (Option.map _) hother⟩
  case attributesEx =>
    intro path hreadable
    simp only [windowsFor, hdrop, joinPath_ne_root (hdrop path) hreadable.asked.ne_nil, ↓reduceIte,
      Option.isSome_map, isSome_resolve hreadable.file]
  case createFile =>
    intro path attempt request hreadable hpath
    simp only [windowsFor, hpath, hdrop, joinPath_ne_root (hdrop path) hreadable.asked.ne_nil,
      ↓reduceIte, Option.isSome_map, isSome_resolve hreadable.file]
  case information =>
    intro path handle hreadable hpath
    simp only [windowsFor, hpath, hdrop, joinPath_ne_root (hdrop path) hreadable.asked.ne_nil,
      ↓reduceIte, Option.isSome_map, isSome_resolve hreadable.file]
  case finalPath =>
    intro path handle hreadable hpath
    obtain ⟨found, hresolve⟩ := Option.isSome_iff_exists.mp (isSome_resolve hreadable.file)
    have hfound := hlength found (Package.resolve_mem _ _ _ hresolve)
    have hsame := congrArg List.length (sameName_packageOf hresolve)
    rw [lowerCopy, lowerCopy, List.length_map, List.length_map] at hsame
    rw [hsame] at hfound
    obtain ⟨rest, hjoin, hrest⟩ : ∃ rest, joinPath sampleRoot path = sampleRoot ++ rest ∧
        rest.length ≤ path.length + 1 := by
      cases path with
      | nil => exact ⟨[], rfl, Nat.zero_le _⟩
      | cons c path => exact ⟨backslash :: c :: path, rfl, Nat.le_refl _⟩
    have hroot : sampleRoot.length = 4 := congrArg List.length sampleRoot_letters
    refine ⟨sampleRoot ++ rest, sampleRoot, ?_, rfl, ?_⟩
    · have hpathRest : handle.request.path = sampleRoot ++ rest := hpath.trans hjoin
      have hextended : (wide "\\\\?\\").length = 4 := congrArg List.length extended_letters
      have hrequired : ¬(((sampleRoot ++ rest).length + 4 = 0 ||
          32768 < (sampleRoot ++ rest).length + 4) = true) := by
        rw [List.length_append, hroot, Bool.or_eq_true, decide_eq_true_eq, decide_eq_true_eq]
        omega
      have hwritten : ¬(((wide "\\\\?\\" ++ (sampleRoot ++ rest)).length = 0 ||
          (sampleRoot ++ rest).length + 4 + 1 ≤ (wide "\\\\?\\" ++ (sampleRoot ++ rest)).length) =
          true) := by
        rw [List.length_append, hextended, Bool.or_eq_true, decide_eq_true_eq, decide_eq_true_eq]
        omega
      simp only [finalPathForHandle, windowsFor, hpathRest, if_neg hrequired, if_neg hwritten,
        stripExtendedStart_sampleRoot]
    · rw [← hjoin]
      exact pathWithinOrEqual_sampleRoot path
  case fileSize =>
    intro path handle _ _
    rfl
  case readFile =>
    intro path handle offset requested _ _
    rfl
  case hashes =>
    intro path handle _ _
    rfl

def plain : Package := packageWith [] []

theorem plain_checked : plain.Ordinary ∧
    (verifyPackageIntegrity (windowsFor plain emptyDigest) .initial
      (makePackageLayout plain.root)).valid = true ∧
    plain.contents? kManifestName = some (emptyFiles requiredNames) ∧
    ∀ entry ∈ (parseManifestText (emptyFiles requiredNames)).entries,
      equalIgnoringCase entry.relativePath kManifestName = false := by
  decide +kernel

theorem plain_ordinary : plain.Ordinary := plain_checked.1

theorem plain_valid : (verifyPackageIntegrity (windowsFor plain emptyDigest) .initial
    (makePackageLayout plain.root)).valid = true := plain_checked.2.1

theorem plain_exact : Responds (windowsFor plain emptyDigest) plain ∧
    ∃ entries, Verified (windowsFor plain emptyDigest) plain entries ∧
      (plain.files.map lowerCopy).Perm (entries.map ManifestEntry.key) := by
  obtain ⟨-, entries, hverified, hperm⟩ :=
    (integrity_exact (windowsFor_reflects plain_ordinary emptyDigest) _).1 plain_valid
  obtain ⟨contents, hcontents, hparse⟩ := hverified.manifest
  obtain ⟨-, -, hplain, hself⟩ := plain_checked
  rw [hplain, Option.some.injEq] at hcontents
  subst hcontents
  have hentries := congrArg Parsed.entries hparse
  subst hentries
  refine ⟨packageWith_responds (by decide +kernel), _, hverified, hperm hself ?_⟩
  intro entry _ found hresolve
  exact sameName_packageOf hresolve

def Package.otherFiles (package : Package) : List WString :=
  (package.all.filterMap fun found => match found.item with
    | .file _ => some found.relativePath
    | _ => none).filter (· ≠ kManifestName)

/-- Two names that differ in case only, one of them listed, and a file named like the manifest, listed
as well. -/
def crowded : Package := packageWith ["sha256sums.TXT", "A.txt", "a.txt"] ["sha256sums.TXT", "A.txt"]

def crowdedEntries : List ManifestEntry :=
  (parseManifestText (emptyFiles (requiredNames ++ ["sha256sums.TXT", "A.txt"]))).entries

/-- Two names that differ in case only, one of them listed, the other's short name listed as well. -/
def aliased : Package :=
  packageOf sampleRoot [(wide "README~2.MAR", wide "readme.markdown")]
    (packageWith ["Readme.markdown", "readme.markdown"] ["Readme.markdown", "README~2.MAR"]).items

def aliasedEntries : List ManifestEntry :=
  (parseManifestText (emptyFiles (requiredNames ++ ["Readme.markdown", "README~2.MAR"]))).entries

theorem crowded_ordinary : crowded.Ordinary ∧ aliased.Ordinary := by decide +kernel

theorem crowded_accepted :
    (Reflects (windowsFor crowded emptyDigest) crowded ∧
      (verifyPackageIntegrity (windowsFor crowded emptyDigest) .initial
        (makePackageLayout crowded.root)).valid = true ∧
      crowded.otherFiles.length = 14 ∧ crowdedEntries.length = 13 ∧
      ¬(crowded.files.map lowerCopy).Perm (crowdedEntries.map ManifestEntry.key)) ∧
    Reflects (windowsFor aliased emptyDigest) aliased ∧
      (verifyPackageIntegrity (windowsFor aliased emptyDigest) .initial
        (makePackageLayout aliased.root)).valid = true ∧
      (∀ entry ∈ aliasedEntries, equalIgnoringCase entry.relativePath kManifestName = false) ∧
      ¬(aliased.files.map lowerCopy).Perm (aliasedEntries.map ManifestEntry.key) := by
  refine ⟨⟨windowsFor_reflects crowded_ordinary.1 emptyDigest, ?_⟩,
    windowsFor_reflects crowded_ordinary.2 emptyDigest, ?_⟩
  · decide +kernel
  · decide +kernel

end Samples

end FfbInterceptor.Manager
