import FfbInterceptor.Installer.PackageFileSet

/-! When the installer takes a package that the manager reports valid. -/
namespace FfbInterceptor.Installer
open FfbInterceptor.Launcher FfbInterceptor.Library FfbInterceptor.Manager

section Digests

theorem wideUpper_idem (c : UInt16) : wideUpper (wideUpper c) = wideUpper c := by
  rw [← wideUpper_wideLower (wideUpper c), wideLower_wideUpper, wideUpper_wideLower]

theorem wideUpper_beyond (c : UInt16) (h : 0x7E < c) : 0x7E < wideUpper c := by
  rw [wideUpper, if_neg]
  · exact h
  · rw [Bool.and_eq_true, decide_eq_true_eq, decide_eq_true_eq, not_and, UInt16.not_le]
    intro _
    exact UInt16.lt_trans (by decide) h

/-- Two texts of capital letters and digits that the manager takes for the same are the same. -/
theorem eq_of_equalIgnoringCase {left right : WString} (hleft : ∀ c ∈ left, wideUpper c = c ∧ c ≠ 0)
    (hright : ∀ c ∈ right, wideUpper c = c ∧ c ≠ 0) (h : equalIgnoringCase left right = true) :
    left = right := by
  have hclean : ∀ value : WString, (∀ c ∈ value, wideUpper c = c ∧ c ≠ 0) → cString value = value :=
    fun value hvalue => cString_eq fun hmem => (hvalue 0 hmem).2 rfl
  have hraise : ∀ value : WString, (∀ c ∈ value, wideUpper c = c ∧ c ≠ 0) →
      (lowerCopy value).map wideUpper = value := by
    intro value hvalue
    rw [lowerCopy, List.map_map]
    conv_rhs => rw [← List.map_id value]
    apply List.map_congr_left
    intro c hc
    rw [Function.comp_apply, wideUpper_wideLower, (hvalue c hc).1]
    rfl
  rw [equalIgnoringCase, decide_eq_true_eq, hclean left hleft, hclean right hright] at h
  rw [← hraise left hleft, h, hraise right hright]

theorem digestText_upper (digest : Digest) : ∀ c ∈ digestText digest, wideUpper c = c ∧ c ≠ 0 := by
  intro c hc
  obtain ⟨digit, hdigit, rfl⟩ := List.mem_map.mp hc
  obtain ⟨n, rfl⟩ := hexDigit_of_mem hdigit
  have hall : ∀ n : Fin 16, wideUpper (hexDigit n).toNat.toUInt16 = (hexDigit n).toNat.toUInt16 ∧
      (hexDigit n).toNat.toUInt16 ≠ 0 := by
    decide +kernel
  exact hall n

theorem sha256_upper {tails : List (List UInt8)} {text : List UInt8} {entries : List ManifestEntry}
    (h : Manifest tails text entries) {entry : ManifestEntry} (hentry : entry ∈ entries) :
    ∀ c ∈ entry.sha256, wideUpper c = c ∧ c ≠ 0 := by
  obtain ⟨rows, -, hvalid, rfl⟩ := h.rows
  obtain ⟨row, hrow, hrowEntry⟩ := List.mem_filterMap.mp hentry
  cases row with
  | blank => cases hrowEntry
  | entry digest path =>
    rw [← Option.some.inj hrowEntry]
    intro c hc
    obtain ⟨d, hd, rfl⟩ := List.mem_map.mp hc
    obtain ⟨byte, hbyte, rfl⟩ := List.mem_map.mp hd
    refine ⟨wideUpper_idem _, ?_⟩
    intro hzero
    have hlower := wideLower_wideUpper byte.toUInt16
    rw [hzero] at hlower
    have hnull : byte.toUInt16 = 0 := (wideLower_eq_iff (Or.inl (by decide))).mp (hlower ▸ by decide)
    have hself : byte = 0 := toUInt16_injective hnull
    exact absurd ((hvalid _ hrow).2.1 byte hbyte) (hself ▸ by decide)

end Digests

section Exactness
variable {runtime : Runtime} {longest : Nat} {package : Manager.Package} {system : PackageSystem}
  {entries : List ManifestEntry} {expected : List PackageRecord} {contents : List UInt8}
  {behind : Found → List Found} {files : List Found}

theorem keys_ascii {text : List UInt8} (h : Manifest openTails text entries) : AsciiPaths entries :=
  fun _ hentry => h.ascii hentry

/-- Reading the lines of a manifest that the manager reads. -/
theorem addLines_iff (hresolves : Resolves runtime package longest) {within : WString → Bool}
    (hwithin : ∀ path, path ≠ [] → within (joinPath package.root path) = true)
    (hmanifest : Manifest openTails contents entries)
    (hspelled : ∀ entry ∈ entries, Spelled package entry.relativePath) :
    (readLines (asciiToWide contents)).foldlM (addLine runtime package.root within) [] = .ok expected ↔
      [] ∉ readLines (asciiToWide contents) ∧ entries.length ≤ 128 ∧
        (∀ entry ∈ entries, (joinPath package.root entry.relativePath).length ≤ longest) ∧
        expected = entries.map (packageRecord package.root) := by
  obtain ⟨rows, hdocument, hvalid, rfl⟩ := hmanifest.rows
  rw [readLines_document hdocument hvalid]
  exact @foldlM_addLine_iff runtime package longest within [] expected rows hresolves hwithin hvalid
    hspelled (fun entry hentry => absurd hentry List.not_mem_nil) hmanifest.distinct (Nat.zero_le _)

theorem contents_ascii (hmanifest : Manifest openTails contents entries) : ∀ c ∈ contents, c ≤ 0x7E := by
  obtain ⟨rows, hdocument, hvalid, -⟩ := hmanifest.rows
  exact ascii_document hdocument hvalid

theorem resolve_of_contents {path : WString} (h : package.contents? path = some contents) :
    ∃ found, package.resolve path = some found ∧ found.item = .file contents := by
  cases hresolve : package.resolve path with
  | none => simp [Manager.Package.contents?, hresolve] at h
  | some found =>
    refine ⟨found, rfl, ?_⟩
    simp only [Manager.Package.contents?, hresolve, Option.map_some] at h
    cases hitem : found.item with
    | file other => simpa [hitem] using h
    | link isDirectory => simp [hitem] at h
    | folder items => simp [hitem] at h

theorem requiredRelativePaths_required {path : WString} (hpath : path ∈ requiredRelativePaths) :
    path ∈ required ∧ (∀ c ∈ path, c ≤ 0x7E) ∧ replaceSlashes path = path := by
  have hall : (requiredRelativePaths.all fun path =>
      required.contains path && path.all (· ≤ 0x7E) && replaceSlashes path == path) = true := by
    decide +kernel
  have hrow := List.all_eq_true.mp hall path hpath
  rw [Bool.and_eq_true, Bool.and_eq_true, List.contains_iff_mem, List.all_eq_true, beq_iff_eq] at hrow
  exact ⟨hrow.1.1, fun c hc => of_decide_eq_true (hrow.1.2 c hc), hrow.2⟩

/-- The manifest stage. -/
theorem enterManifest_iff (hresolves : Resolves runtime package longest)
    (hcontents : package.contents? kManifestName = some contents)
    (hmanifest : Manifest openTails contents entries)
    (hspelled : ∀ entry ∈ entries, Spelled package entry.relativePath)
    (hrequired : ∀ path ∈ required, ∃ entry ∈ entries, entry.key = lowerCopy path) :
    enterManifest runtime package package.root requiredRelativePaths = .ok expected ↔
      Admitted package.root longest contents entries ∧
        expected = entries.map (packageRecord package.root) := by
  obtain ⟨found, hresolve, hitem⟩ := resolve_of_contents hcontents
  have hpositive : ¬contents.length = 0 := by
    have hsize := hmanifest.size.1
    omega
  have hlines := fun expected => @addLines_iff runtime longest package entries expected contents
    hresolves (testChildPath runtime package.root)
    (fun path hpath => (within_joinPath hresolves hpath).1) hmanifest hspelled
  have hascii := keys_ascii hmanifest
  have hfind : requiredRelativePaths.find? (fun path => !runtime.containsKey
      (entries.map (packageRecord package.root)) (runtime.toLowerInvariant (replaceSlashes path))) =
      none := by
    rw [List.find?_eq_none]
    intro path hpath
    obtain ⟨hlisted, hletters, hslashes⟩ := requiredRelativePaths_required hpath
    rw [hslashes, toLowerInvariant_eq runtime hletters, (containsKey_iff hascii).mpr
      (hrequired path hlisted)]
    exact Bool.false_ne_true
  have hany : (entries.map (packageRecord package.root)).isEmpty = false := by
    rw [List.isEmpty_eq_false_iff, ne_eq, List.map_eq_nil_iff]
    intro hnil
    have hcount := hmanifest.count.1
    rw [hnil] at hcount
    exact absurd hcount (by decide)
  simp only [enterManifest, hresolve, hitem, decodeStrict_ascii runtime (contents_ascii hmanifest),
    hpositive, decide_false, Bool.false_or, decide_eq_true_eq]
  by_cases hsize : 1048576 < contents.length
  · rw [if_pos hsize]
    constructor
    · intro h
      cases h
    · intro h
      exact absurd h.1.size (Nat.not_le.mpr hsize)
  · rw [if_neg hsize]
    cases hrun : (readLines (asciiToWide contents)).foldlM
        (addLine runtime package.root (testChildPath runtime package.root)) [] with
    | error error =>
      constructor
      · intro h
        cases h
      · intro h
        have hok := (hlines expected).mpr ⟨h.1.noBlankLine, h.1.count, h.1.paths, h.2⟩
        rw [hrun] at hok
        cases hok
    | ok records =>
      obtain ⟨hblank, hcount, hpaths, rfl⟩ := (hlines records).mp hrun
      simp only [hany, Bool.false_eq_true, ↓reduceIte, hfind]
      constructor
      · intro h
        exact ⟨⟨Nat.not_lt.mp hsize, hblank, hcount, hpaths⟩, (Except.ok.inj h).symm⟩
      · intro h
        rw [h.2]

/-- The files that both checks hold against the manifest are those of the manager. -/
theorem actualFiles_perm (hresolves : Resolves runtime package longest)
    (hnamed : ∀ found ∈ package.all, Named found) (hperm : files.Perm (allFiles package)) :
    ((files.filter fun file => !runtime.equals (fullName file)
      (joinPath package.root kManifestName)).map Found.relativePath).Perm package.files := by
  have hlisted : ∀ items : List Found, (∀ found ∈ items, found ∈ package.all) →
      (((items.filter isFile).filter fun file => !runtime.equals (fullName file)
        (joinPath package.root kManifestName)).map Found.relativePath) =
        items.filterMap Found.listed? := by
    intro items hitems
    induction items with
    | nil => rfl
    | cons found items ih =>
      obtain ⟨hfound, hrest⟩ := List.forall_mem_cons.mp hitems
      have hskips := @equals_manifest runtime longest package found hresolves hnamed hfound
      obtain ⟨directory, name, item⟩ := found
      cases item with
      | link isDirectory => exact ih hrest
      | folder inner => exact ih hrest
      | file contents =>
        have hkeep : isFile ⟨directory, name, .file contents⟩ = true := rfl
        rw [List.filter_cons_of_pos hkeep, List.filter_cons, hskips, List.filterMap_cons,
          Found.listed?]
        cases hskip : directory.skips name with
        | true => exact ih hrest
        | false =>
          rw [Bool.not_false, if_pos rfl, List.map_cons, ih hrest]
          rfl
  refine ((hperm.filter _).map _).trans ?_
  rw [allFiles, hlisted package.all fun found hfound => hfound]
  exact List.Perm.refl _

theorem listed_of_mem (hresolves : Resolves runtime package longest)
    (hnamed : ∀ found ∈ package.all, Named found) (hverified : Verified system package entries)
    (hperm : files.Perm (allFiles package)) {file : Found}
    (hfile : file ∈ files.filter fun file => !runtime.equals (fullName file)
      (joinPath package.root kManifestName)) :
    file ∈ package.all ∧ (∃ contents, file.item = .file contents) ∧
      file.directory.skips file.name = false ∧
      runtime.toLowerInvariant ((fullName file).drop (package.root.length + 1)) =
        lowerCopy file.relativePath ∧
      ∃ entry ∈ entries, entry.key = lowerCopy file.relativePath := by
  have hactual := @actualFiles_perm runtime longest package files hresolves hnamed hperm
  obtain ⟨contents, -, hparse⟩ := hverified.manifest
  have hascii := keys_ascii (parseManifestText_iff.mp hparse)
  obtain ⟨hmem, hkept⟩ := List.mem_filter.mp hfile
  obtain ⟨hall, hkind⟩ := List.mem_filter.mp (hperm.mem_iff.mp hmem)
  obtain ⟨entry, hentry, hkey⟩ := hverified.listed file.relativePath
    (hactual.mem_iff.mp (List.mem_map_of_mem hfile))
  have hletters : ∀ c ∈ file.relativePath, c ≤ 0x7E := by
    apply ascii_of_lowerCopy
    rw [← hkey]
    exact ascii_lowerCopy (hascii entry hentry)
  refine ⟨hall, ?_, ?_, ?_, entry, hentry, hkey⟩
  · cases hitem : file.item with
    | file contents => exact ⟨contents, rfl⟩
    | link isDirectory => simp [isFile, hitem] at hkind
    | folder items => simp [isFile, hitem] at hkind
  · rw [equals_manifest hresolves hnamed hall] at hkept
    simpa using hkept
  · rw [drop_fullName hresolves hnamed hall, toLowerInvariant_eq runtime hletters]

theorem length_actualFiles (hresolves : Resolves runtime package longest)
    (hnamed : ∀ found ∈ package.all, Named found) (hverified : Verified system package entries)
    (hperm : files.Perm (allFiles package)) :
    (files.filter fun file => !runtime.equals (fullName file)
      (joinPath package.root kManifestName)).length =
        (entries.map (packageRecord package.root)).length := by
  have hactual := @actualFiles_perm runtime longest package files hresolves hnamed hperm
  rw [List.length_map, ← hverified.count, ← hactual.length_eq, List.length_map]

/-- The file-set stage. -/
theorem enterFileSet_iff (hresolves : Resolves runtime package longest)
    (hnamed : ∀ found ∈ package.all, Named found) (hverified : Verified system package entries) :
    enterFileSet runtime package package.root (entries.map (packageRecord package.root)) = .ok () ↔
      package.folders.length ≤ 128 ∧ (allFiles package).length ≤ 129 := by
  obtain ⟨contents, -, hparse⟩ := hverified.manifest
  have hascii := keys_ascii (parseManifestText_iff.mp hparse)
  rw [enterFileSet]
  cases hdiscover : discoverFiles package with
  | error error =>
    constructor
    · intro h
      cases h
    · intro h
      have hok := discoverFiles_iff.mpr ⟨hverified.listable.noLinks, h.1, h.2, rfl⟩
      rw [hdiscover] at hok
      cases hok
  | ok files =>
    obtain ⟨-, hfolders, hfiles, rfl⟩ := discoverFiles_iff.mp hdiscover
    have hperm : ((order package).filter isFile).Perm (allFiles package) :=
      (order_perm package).filter isFile
    have hlength := @length_actualFiles runtime longest package system entries _ hresolves hnamed
      hverified hperm
    have hnone : (((order package).filter isFile).filter fun file => !runtime.equals (fullName file)
        (joinPath package.root kManifestName)).findSome?
          (fileFault runtime package.root (entries.map (packageRecord package.root))) = none := by
      rw [List.findSome?_eq_none_iff]
      intro file hfile
      obtain ⟨-, ⟨contents, hitem⟩, -, hrelative, hlisted⟩ :=
        listed_of_mem hresolves hnamed hverified hperm hfile
      rw [fileFault, hitem, hrelative, (containsKey_iff hascii).mpr hlisted]
      rfl
    simp only [hlength, hnone, ne_eq, not_true_eq_false, ↓reduceIte, hfolders, hfiles, and_self]

theorem intact_of_listed (hverified : Verified system package entries)
    (hself : ∀ entry ∈ entries, equalIgnoringCase entry.relativePath kManifestName = false)
    (halias : package.Unaliased entries)
    {file : Found} (hfile : file ∈ package.all) {bytes : List UInt8} (hitem : file.item = .file bytes)
    (hkept : file.directory.skips file.name = false) {entry : ManifestEntry} (hentry : entry ∈ entries)
    (hkey : entry.key = lowerCopy file.relativePath) :
    digestText (system.sha256 bytes) = entry.sha256 := by
  obtain ⟨contents, -, hparse⟩ := hverified.manifest
  have hmanifest := parseManifestText_iff.mp hparse
  obtain ⟨other, hintact⟩ := hverified.entries.intact entry hentry
  obtain ⟨found, hresolve, hfound⟩ := resolve_of_contents hintact.file
  have hname := halias entry hentry found hresolve
  have hskips := skips_eq_false hself hentry hname
  -- No two of the files that the manager lists have names that differ in the case of letters only.
  have hlisted : package.files =
      (package.all.filter fun found => isFile found && !found.directory.skips found.name).map
        Found.relativePath := by
    rw [Manager.Package.files, ← List.filterMap_eq_map, List.filterMap_filter]
    apply List.filterMap_congr
    intro found hmem
    obtain ⟨directory, name, item⟩ := found
    cases item with
    | link isDirectory => rfl
    | folder items => rfl
    | file contents =>
      simp only [Found.listed?, isFile, Bool.true_and]
      cases directory.skips name with
      | true => rfl
      | false => rfl
  have hnodup := ((hverified.perm hself halias).nodup_iff).mpr hmanifest.distinct
  rw [hlisted, List.map_map] at hnodup
  have hmine : file ∈ package.all.filter fun found =>
      isFile found && !found.directory.skips found.name := by
    rw [List.mem_filter, isFile, hitem, hkept]
    exact ⟨hfile, rfl⟩
  have htheirs : found ∈ package.all.filter fun found =>
      isFile found && !found.directory.skips found.name := by
    rw [List.mem_filter, isFile, hfound, hskips]
    exact ⟨package.resolve_mem _ _ hresolve, rfl⟩
  have hsame : file = found := by
    apply List.inj_on_of_nodup_map hnodup hmine htheirs
    rw [Function.comp_apply, Function.comp_apply, hname, ← hkey]
    rfl
  rw [← hsame, hitem, Item.file.injEq] at hfound
  rw [hfound]
  exact eq_of_equalIgnoringCase (digestText_upper _) (sha256_upper hmanifest hentry) hintact.digest

/-- Without links only the files of the package are found. -/
theorem filesBelow_eq (hlinks : ∀ found ∈ package.all, found.isLink = false) :
    filesBelow behind package = allFiles package := by
  rw [filesBelow, allFiles]
  generalize package.all = items at hlinks
  induction items with
  | nil => rfl
  | cons found items ih =>
    obtain ⟨hlink, hrest⟩ := List.forall_mem_cons.mp hlinks
    rw [List.flatMap_cons, ih hrest]
    obtain ⟨directory, name, item⟩ := found
    cases item with
    | link isDirectory => cases hlink
    | folder inner => rfl
    | file contents => rfl

theorem assertFault_eq_none (hresolves : Resolves runtime package longest)
    (hnamed : ∀ found ∈ package.all, Named found) (hverified : Verified system package entries)
    (hself : ∀ entry ∈ entries, equalIgnoringCase entry.relativePath kManifestName = false)
    (halias : package.Unaliased entries) {file : Found}
    (hfile : file ∈ (allFiles package).filter fun file =>
      !runtime.equals (fullName file) (joinPath package.root kManifestName)) :
    assertFault runtime system.sha256 package.root (entries.map (packageRecord package.root)) file =
      none := by
  obtain ⟨contents, -, hparse⟩ := hverified.manifest
  have hmanifest := parseManifestText_iff.mp hparse
  have hascii := keys_ascii hmanifest
  obtain ⟨hall, ⟨bytes, hitem⟩, hkept, hrelative, entry, hentry, hkey⟩ :=
    listed_of_mem hresolves hnamed hverified (List.Perm.refl _) hfile
  have hmatches : ∀ other ∈ entries, runtime.equals (packageRecord package.root other).key
      (lowerCopy file.relativePath) = true ↔ other.key = lowerCopy file.relativePath := by
    intro other hother
    have hequals := @equals_iff runtime _ (lowerCopy file.relativePath)
      (ascii_lowerCopy (hascii other hother))
    rw [lowerCopy_lowerCopy, lowerCopy_lowerCopy] at hequals
    exact hequals
  cases hfind : (entries.map (packageRecord package.root)).find? fun record =>
      runtime.equals record.key (lowerCopy file.relativePath) with
  | none =>
    rw [List.find?_eq_none] at hfind
    exact absurd ((hmatches entry hentry).mpr hkey) (hfind _ (List.mem_map_of_mem hentry))
  | some record =>
    obtain ⟨other, hother, rfl⟩ := List.mem_map.mp (List.mem_of_find?_eq_some hfind)
    have hequal := List.find?_some hfind
    have hsame := (hmatches other hother).mp hequal
    have hdigest := intact_of_listed hverified hself halias hall hitem hkept hother hsame
    obtain ⟨hfull, hne⟩ := fullName_eq hresolves hnamed hall
    have hotherPath : other.relativePath ≠ [] := by
      intro hnil
      rw [ManifestEntry.key, hnil] at hsame
      exact hne (List.map_eq_nil_iff.mp hsame.symm)
    have hpath : runtime.equals (packageRecord package.root other).path (fullName file) = true := by
      rw [packageRecord, hfull, hresolves.joinPath_eq hne, hresolves.joinPath_eq hotherPath,
        equals_append_left]
      exact (equals_iff runtime (hascii other hother)).mpr hsame
    have hhash : packageFileSha256 system.sha256 file.item =
        (packageRecord package.root other).hash := by
      rw [hitem]
      exact hdigest
    have hregular : file.item.attributes.reparsePoint = false := by
      rw [hitem]
      rfl
    simp only [assertFault, hregular, Bool.false_eq_true, ↓reduceIte, hrelative, hfind, hpath, hhash,
      Bool.not_true, ne_eq, not_true_eq_false, decide_false, Bool.or_self]

theorem getNormalizedLocalPath_eq (hresolves : Resolves runtime package longest)
    {getDriveType : WString → DriveType}
    (hlocal : pathIsAbsoluteLocal getDriveType package.root = true) :
    getNormalizedLocalPath runtime package.root = .ok package.root := by
  have hfull := hresolves.full
  have htrim := hresolves.trimEnd_eq
  cases hroot : package.root with
  | nil => exact absurd hroot hresolves.nonempty
  | cons letter rest =>
    cases rest with
    | nil => simp [hroot, pathIsAbsoluteLocal] at hlocal
    | cons second rest =>
      cases rest with
      | nil => simp [hroot, pathIsAbsoluteLocal] at hlocal
      | cons third rest =>
        rw [hroot] at hfull htrim hlocal
        simp only [pathIsAbsoluteLocal, Bool.and_eq_true] at hlocal
        have hdrive : (isDriveLetter letter && decide (second = wideColon) && isWideSeparator third) =
            true := by
          rw [Bool.and_eq_true, Bool.and_eq_true]
          exact ⟨hlocal.1.1, hlocal.1.2⟩
        simp only [getNormalizedLocalPath, hdrive, ↓reduceIte, hfull, htrim, ite_self]

theorem assertPackageManifest_iff (hresolves : Resolves runtime package longest)
    (hnamed : ∀ found ∈ package.all, Named found) {getDriveType : WString → DriveType}
    (hlocal : pathIsAbsoluteLocal getDriveType package.root = true)
    (hverified : Verified system package entries)
    (hcontents : package.contents? kManifestName = some contents)
    (hmanifest : Manifest openTails contents entries)
    (hself : ∀ entry ∈ entries, equalIgnoringCase entry.relativePath kManifestName = false)
    (hspelled : ∀ entry ∈ entries, Spelled package entry.relativePath) :
    assertPackageManifest runtime system.sha256 behind package = .ok expected ↔
      Admitted package.root longest contents entries ∧
        expected = entries.map (packageRecord package.root) := by
  obtain ⟨found, hresolve, hitem⟩ := resolve_of_contents hcontents
  have hlines := fun expected => @addLines_iff runtime longest package entries expected contents
    hresolves (testPathWithinOrEqual runtime package.root)
    (fun path hpath => (within_joinPath hresolves hpath).2) hmanifest hspelled
  simp only [assertPackageManifest, getNormalizedLocalPath_eq hresolves hlocal, hresolve, hitem,
    decodeReplacing_ascii runtime (contents_ascii hmanifest), filesBelow_eq hverified.listable.noLinks]
  by_cases hsize : 1048576 < contents.length
  · rw [if_pos hsize]
    constructor
    · intro h
      cases h
    · intro h
      exact absurd h.1.size (Nat.not_le.mpr hsize)
  · rw [if_neg hsize]
    cases hrun : (readLines (asciiToWide contents)).foldlM
        (addLine runtime package.root (testPathWithinOrEqual runtime package.root)) [] with
    | error error =>
      constructor
      · intro h
        cases h
      · intro h
        have hok := (hlines expected).mpr ⟨h.1.noBlankLine, h.1.count, h.1.paths, h.2⟩
        rw [hrun] at hok
        cases hok
    | ok records =>
      obtain ⟨hblank, hcount, hpaths, rfl⟩ := (hlines records).mp hrun
      have hlength := @length_actualFiles runtime longest package system entries _ hresolves hnamed
        hverified (List.Perm.refl (allFiles package))
      have hnone : ((allFiles package).filter fun file => !runtime.equals (fullName file)
          (joinPath package.root kManifestName)).findSome? (assertFault runtime system.sha256
            package.root (entries.map (packageRecord package.root))) = none := by
        rw [List.findSome?_eq_none_iff]
        intro file hfile
        exact assertFault_eq_none hresolves hnamed hverified hself (Spelled.unaliased hspelled) hfile
      simp only [hlength, hnone, ne_eq, not_true_eq_false, ↓reduceIte]
      constructor
      · intro h
        exact ⟨⟨Nat.not_lt.mp hsize, hblank, hcount, hpaths⟩, (Except.ok.inj h).symm⟩
      · intro h
        rw [h.2]

theorem enterPackageBoundary_iff (hresolves : Resolves runtime package longest)
    (hnamed : ∀ found ∈ package.all, Named found) (hverified : Verified system package entries)
    (hcontents : package.contents? kManifestName = some contents)
    (hmanifest : Manifest openTails contents entries)
    (hspelled : ∀ entry ∈ entries, Spelled package entry.relativePath) :
    enterPackageBoundary runtime package requiredRelativePaths = .ok expected ↔
      Admitted package.root longest contents entries ∧ package.folders.length ≤ 128 ∧
        (allFiles package).length ≤ 129 ∧ expected = entries.map (packageRecord package.root) := by
  have hstage := fun expected => @enterManifest_iff runtime longest package entries expected contents
    hresolves hcontents hmanifest hspelled hverified.required
  have hset := @enterFileSet_iff runtime longest package system entries hresolves hnamed hverified
  simp only [enterPackageBoundary, hresolves.full, hresolves.trimEnd_eq]
  cases hrun : enterManifest runtime package package.root requiredRelativePaths with
  | error error =>
    constructor
    · intro h
      cases h
    · intro h
      have hok := (hstage expected).mpr ⟨h.1, h.2.2.2⟩
      rw [hrun] at hok
      cases hok
  | ok records =>
    obtain ⟨hadmitted, rfl⟩ := (hstage records).mp hrun
    cases hfiles : enterFileSet runtime package package.root
        (entries.map (packageRecord package.root)) with
    | error error =>
      simp only [hfiles]
      constructor
      · intro h
        cases h
      · intro h
        have hok := hset.mpr ⟨h.2.1, h.2.2.1⟩
        rw [hfiles] at hok
        cases hok
    | ok done =>
      simp only [hfiles]
      obtain ⟨hfolders, hcount⟩ := hset.mp hfiles
      constructor
      · intro h
        exact ⟨hadmitted, hfolders, hcount, (Except.ok.inj h).symm⟩
      · intro h
        rw [h.2.2.2]

/-- When the installer's checks take a package that the manager reports valid, and that their records
then are the manager's entries. -/
theorem boundary_exact (hreflects : Reflects system package)
    (hresolves : Resolves runtime package longest)
    (hnamed : ∀ found ∈ package.all, Named found) (world : World)
    (hvalid : (verifyPackageIntegrity system world (makePackageLayout package.root)).valid = true) :
    ∃ contents entries, package.contents? kManifestName = some contents ∧
      parseManifestText contents = ⟨true, entries, none⟩ ∧
      ((∀ entry ∈ entries, Spelled package entry.relativePath) →
        (∀ expected, enterPackageBoundary runtime package requiredRelativePaths = .ok expected ↔
          Admitted package.root longest contents entries ∧ package.folders.length ≤ 128 ∧
            (allFiles package).length ≤ 129 ∧ expected = entries.map (packageRecord package.root)) ∧
        ((∀ entry ∈ entries, equalIgnoringCase entry.relativePath kManifestName = false) →
          ∀ behind expected,
            assertPackageManifest runtime system.sha256 behind package = .ok expected ↔
              Admitted package.root longest contents entries ∧
                expected = entries.map (packageRecord package.root))) := by
  obtain ⟨hlocal, entries, hverified, -⟩ := (integrity_exact hreflects world).1 hvalid
  obtain ⟨contents, hcontents, hparse⟩ := hverified.manifest
  have hmanifest := parseManifestText_iff.mp hparse
  refine ⟨contents, entries, hcontents, hparse, fun hspelled => ⟨?_, ?_⟩⟩
  · intro expected
    exact enterPackageBoundary_iff hresolves hnamed hverified hcontents hmanifest hspelled
  · intro hself behind expected
    exact assertPackageManifest_iff hresolves hnamed hlocal hverified hcontents hmanifest hself hspelled

end Exactness

section Samples

/-- .NET for paths in their own spelling and texts in UTF-8, with paths of up to 259 characters. -/
def plainRuntime : Runtime where
  toLower := wideLower
  toUpper := wideUpper
  getFullPath := fun path => if path.length ≤ 259 then some path else none
  decodeMarked := fun _ => none
  toLower_ascii := fun _ _ => rfl
  toUpper_ascii := fun _ _ => rfl
  toUpper_beyond := wideUpper_beyond

theorem plainRuntime_resolves {package : Manager.Package} (hroot : package.root = sampleRoot) :
    Resolves plainRuntime package 259 where
  nonempty := by
    rw [hroot]
    decide +kernel
  ending := by
    intro c hc
    have hlast : sampleRoot.getLast? = some 0x70 := by
      rw [sampleRoot_letters]
      rfl
    rw [hroot, hlast] at hc
    rw [← Option.some.inj hc]
    decide
  full := by
    rw [hroot]
    decide +kernel
  below := fun _ _ _ => rfl

def isSpelled (package : Manager.Package) (path : WString) : Bool :=
  ((package.resolve path).map Found.relativePath) = some path

theorem spelled_of_isSpelled {package : Manager.Package} {path : WString}
    (h : isSpelled package path = true) : Spelled package path := by
  obtain ⟨found, hresolve, hpath⟩ := Option.map_eq_some_iff.mp (of_decide_eq_true h)
  exact ⟨found, hresolve, congrArg lowerCopy hpath, fun _ => hpath⟩

def isPlainName (name : WString) : Bool :=
  !name.isEmpty && name.all fun c => !isWideSeparator c && c != 0

theorem named_of_isPlainName {package : Manager.Package}
    (h : (package.all.all fun found => isPlainName found.name) = true) :
    ∀ found ∈ package.all, Named found := by
  intro found hfound
  have hplain := List.all_eq_true.mp h found hfound
  rw [isPlainName, Bool.and_eq_true, Bool.not_eq_true', List.isEmpty_eq_false_iff,
    List.all_eq_true] at hplain
  obtain ⟨hnonempty, hletters⟩ := hplain
  refine ⟨hnonempty, fun c hc => ?_, fun hzero => ?_⟩
  · have hletter := hletters c hc
    rw [Bool.and_eq_true, Bool.not_eq_true'] at hletter
    exact hletter.1
  · have hletter := hletters 0 hzero
    rw [Bool.and_eq_true, bne_self_eq_false] at hletter
    exact absurd hletter.2 Bool.false_ne_true

theorem plain_facts :
    (plain.all.all fun found => isPlainName found.name) = true ∧
      plain.contents? kManifestName = some (emptyFiles requiredNames) ∧
      (emptyFiles requiredNames).length ≤ 1048576 ∧
      [] ∉ readLines (asciiToWide (emptyFiles requiredNames)) ∧
      (parseManifestText (emptyFiles requiredNames)).entries.length ≤ 128 ∧
      (∀ entry ∈ (parseManifestText (emptyFiles requiredNames)).entries,
        (joinPath sampleRoot entry.relativePath).length ≤ 259 ∧
          equalIgnoringCase entry.relativePath kManifestName = false ∧
          isSpelled plain entry.relativePath = true) ∧
      plain.folders.length ≤ 128 ∧ (allFiles plain).length ≤ 129 := by
  decide +kernel

theorem plain_installed :
    (∃ expected, enterPackageBoundary plainRuntime plain requiredRelativePaths = .ok expected) ∧
      ∃ expected, assertPackageManifest plainRuntime (windowsFor plain emptyDigest).sha256
        (fun _ => []) plain = .ok expected := by
  obtain ⟨hnames, hplain, hsize, hblank, hcount, hentries, hfolders, hfiles⟩ := plain_facts
  have hadmitted : Admitted sampleRoot 259 (emptyFiles requiredNames)
      (parseManifestText (emptyFiles requiredNames)).entries :=
    ⟨hsize, hblank, hcount, fun entry hentry => (hentries entry hentry).1⟩
  obtain ⟨contents, entries, hcontents, hparse, hchecks⟩ :=
    boundary_exact (windowsFor_reflects plain_ordinary emptyDigest) (plainRuntime_resolves rfl)
      (named_of_isPlainName hnames) _ plain_valid
  rw [hplain, Option.some.injEq] at hcontents
  subst hcontents
  have hparsed := congrArg Parsed.entries hparse
  subst hparsed
  obtain ⟨henter, hassert⟩ :=
    hchecks fun entry hentry => spelled_of_isSpelled (hentries entry hentry).2.2
  refine ⟨⟨_, (henter _).mpr ⟨hadmitted, hfolders, hfiles, rfl⟩⟩, ?_⟩
  exact ⟨_, (hassert (fun entry hentry => (hentries entry hentry).2.1) _ _).mpr ⟨hadmitted, rfl⟩⟩

def spaced : Manager.Package :=
  packageOf sampleRoot [] <|
    (kManifestName, .file (emptyFiles requiredNames ++ [lineFeed])) :: plain.items.tail

theorem spaced_facts :
    spaced.Ordinary ∧
      (spaced.all.all fun found => isPlainName found.name) = true ∧
      spaced.contents? kManifestName = some (emptyFiles requiredNames ++ [lineFeed]) ∧
      [] ∈ readLines (asciiToWide (emptyFiles requiredNames ++ [lineFeed])) ∧
      (∀ entry ∈ (parseManifestText (emptyFiles requiredNames ++ [lineFeed])).entries,
        equalIgnoringCase entry.relativePath kManifestName = false ∧
          isSpelled spaced entry.relativePath = true) ∧
      (verifyPackageIntegrity (windowsFor spaced emptyDigest) .initial
        (makePackageLayout spaced.root)).valid = true := by
  decide +kernel

/-- The manager takes the package, and neither check of the installer does. -/
theorem spaced_refused : Reflects (windowsFor spaced emptyDigest) spaced ∧
    (verifyPackageIntegrity (windowsFor spaced emptyDigest) .initial
      (makePackageLayout spaced.root)).valid = true ∧
    (∀ expected, enterPackageBoundary plainRuntime spaced requiredRelativePaths ≠ .ok expected) ∧
    ∀ behind expected, assertPackageManifest plainRuntime (windowsFor spaced emptyDigest).sha256 behind
      spaced ≠ .ok expected := by
  obtain ⟨hordinary, hplain, hspaced, hends, hentries, hvalid⟩ := spaced_facts
  have hnamed := named_of_isPlainName hplain
  have hreflects := windowsFor_reflects hordinary emptyDigest
  obtain ⟨hlocal, entries, hverified, -⟩ := (integrity_exact hreflects _).1 hvalid
  have hresolves : Resolves plainRuntime spaced 259 := plainRuntime_resolves rfl
  obtain ⟨contents, hcontents, hparse⟩ := hverified.manifest
  have hmanifest := parseManifestText_iff.mp hparse
  rw [hspaced, Option.some.injEq] at hcontents
  subst hcontents
  have hparsed := congrArg Parsed.entries hparse
  subst hparsed
  have hblank : ¬Admitted spaced.root 259 (emptyFiles requiredNames ++ [lineFeed])
      (parseManifestText (emptyFiles requiredNames ++ [lineFeed])).entries :=
    fun h => h.noBlankLine hends
  have hself := fun entry hentry => (hentries entry hentry).1
  have hspelled := fun entry hentry => spelled_of_isSpelled (hentries entry hentry).2
  refine ⟨hreflects, hvalid, ?_, ?_⟩
  · intro expected h
    exact hblank ((enterPackageBoundary_iff hresolves hnamed hverified hspaced hmanifest
      hspelled).mp h).1
  · intro behind expected h
    exact hblank ((assertPackageManifest_iff hresolves hnamed hlocal hverified hspaced hmanifest
      hself hspelled).mp h).1

end Samples

end FfbInterceptor.Installer
