import FfbInterceptor.Release.ArchiveFormat

/-! From the source tree to the archive, and back from any accepted archive. -/
namespace FfbInterceptor.Release
open FfbInterceptor.Library
open FfbInterceptor.Engine (utf16Units)

section Tree

mutual

def Item.files (root : String) (path : List String) : Item → List Entry
  | .file name _ content => [⟨entryNameOf root (path ++ [name]), content⟩]
  | .directory name _ items => filesIn root (path ++ [name]) items

def filesIn (root : String) (path : List String) : List Item → List Entry
  | [] => []
  | item :: items => item.files root path ++ filesIn root path items

end

mutual

/-- No reparse point on the way down. -/
def Item.regular : Item → Bool
  | .file _ attributes _ => !attributes.reparsePoint
  | .directory _ attributes items => !attributes.reparsePoint && regularIn items

def regularIn : List Item → Bool
  | [] => true
  | item :: items => item.regular && regularIn items

end

def SourceTree.files (source : SourceTree) (includeBaseDirectory : Bool) : List Entry :=
  match archiveRoot source includeBaseDirectory with
  | .error _ => []
  | .ok root => filesIn root [] source.items

/-- Names the writer accepts, each for one file. -/
structure CanonicalNames (rules : TextRules) (files : List Entry) : Prop where
  canonical : ∀ file ∈ files, isCanonicalEntryName rules file.name = true
  distinct : (files.map fun file => ignoreCaseKey rules file.name).Nodup

structure CanonicalSource (rules : TextRules) (source : SourceTree) (includeBaseDirectory : Bool) :
    Prop where
  regular : source.attributes.reparsePoint = false ∧ regularIn source.items = true
  rooted : ∃ root, archiveRoot source includeBaseDirectory = .ok root
  named : CanonicalNames rules (source.files includeBaseDirectory)

def OrdinalOrder (a b : Entry) : Prop := ordinalKey a.name ≤ ordinalKey b.name

end Tree

section Collecting

variable {rules : TextRules} {root : String} {all rest : List Entry}

theorem utf16Units_of_ordinalKey {a b : String} (h : ordinalKey a = ordinalKey b) :
    utf16Units a = utf16Units b :=
  List.map_injective_iff.mpr (fun _ _ => UInt16.toNat_inj.mp) h

theorem addEntry_perm (entry : Entry) (entries : List Entry) :
    (addEntry entry entries).Perm (entry :: entries) := List.perm_orderedInsert _ _ _

theorem addEntry_sorted {entry : Entry} {entries : List Entry} (h : entries.Pairwise OrdinalOrder) :
    (addEntry entry entries).Pairwise OrdinalOrder := by
  have htotal : Std.Total fun a b : Entry => ordinalKey a.name ≤ ordinalKey b.name :=
    ⟨fun a b => le_total _ _⟩
  have htrans : IsTrans Entry fun a b => ordinalKey a.name ≤ ordinalKey b.name :=
    ⟨fun a b c hab hbc => le_trans hab hbc⟩
  exact List.Pairwise.orderedInsert (r := fun a b : Entry => ordinalKey a.name ≤ ordinalKey b.name)
    entry entries h

def pendingFiles (root : String) (pending : List (List String × List Item)) : List Entry :=
  pending.flatMap fun directory => filesIn root directory.1 directory.2

/-- How often the loop still turns. -/
def pendingCount (pending : List (List String × List Item)) : Nat :=
  (pending.map fun directory => directoriesIn directory.2 + 1).sum

/-- Between collected entries, `rest` and the pending directories, all files are accounted for. -/
structure Collects (rules : TextRules) (root : String) (all : List Entry) (collected : Collected)
    (rest : List Entry) : Prop where
  sorted : collected.entries.Pairwise OrdinalOrder
  seen : ∀ key, key ∈ collected.seenEntries ↔
    key ∈ collected.entries.map fun entry => ignoreCaseKey rules entry.name
  perm : (collected.entries ++ (rest ++ pendingFiles root collected.pendingDirectories)).Perm all
  regular : ∀ directory ∈ collected.pendingDirectories, regularIn directory.2 = true

theorem collectItem_ok (hall : CanonicalNames rules all) {path : List String} {item : Item}
    {collected : Collected} (h : Collects rules root all collected (item.files root path ++ rest))
    (hregular : item.regular = true) :
    ∃ collected', collectItem rules root path collected item = .ok collected' ∧
      Collects rules root all collected' rest ∧
      pendingCount collected'.pendingDirectories =
        pendingCount collected.pendingDirectories + item.directories := by
  cases item with
  | directory name attributes items =>
    simp only [Item.regular, Bool.and_eq_true, Bool.not_eq_true'] at hregular
    refine ⟨{ collected with
      pendingDirectories := (path ++ [name], items) :: collected.pendingDirectories }, ?_,
      ⟨h.sorted, h.seen, ?_, ?_⟩, ?_⟩
    · rw [collectItem, if_neg (by simp [hregular.1])]
    · refine List.Perm.trans ?_ h.perm
      simp only [pendingFiles, List.flatMap_cons, Item.files, List.append_assoc]
      exact (List.perm_append_comm_assoc _ _ _).append_left _
    · intro directory hmem
      rcases List.mem_cons.mp hmem with rfl | hmem
      · exact hregular.2
      · exact h.regular directory hmem
    · simp only [pendingCount, List.map_cons, List.sum_cons, Item.directories]
      omega
  | file name attributes content =>
    simp only [Item.regular, Bool.not_eq_true'] at hregular
    have hperm := h.perm
    simp only [Item.files, List.cons_append, List.nil_append] at hperm
    let entry : Entry := ⟨entryNameOf root (path ++ [name]), content⟩
    have hmem : entry ∈ all := hperm.subset (by simp [entry])
    have hcanonical : isCanonicalEntryName rules entry.name = true := hall.canonical entry hmem
    have hkeys := hperm.map fun file : Entry => ignoreCaseKey rules file.name
    have hnodup := hkeys.nodup_iff.mpr hall.distinct
    rw [List.map_append, List.map_cons] at hnodup
    have hfresh : ignoreCaseKey rules entry.name ∉
        collected.entries.map fun entry => ignoreCaseKey rules entry.name := by
      intro hold
      exact (List.disjoint_of_nodup_append hnodup) hold List.mem_cons_self
    have hnew : ¬ (ignoreCaseKey rules entry.name ∈ collected.seenEntries ∨
        ∃ other ∈ collected.entries, ordinalKey other.name = ordinalKey entry.name) := by
      rintro (hseen | ⟨other, hother, hkey⟩)
      · exact hfresh ((h.seen _).mp hseen)
      · apply hfresh
        rw [ignoreCaseKey, ← utf16Units_of_ordinalKey hkey]
        exact List.mem_map_of_mem hother
    refine ⟨{ collected with
      entries := addEntry entry collected.entries
      seenEntries := ignoreCaseKey rules entry.name :: collected.seenEntries }, ?_,
      ⟨addEntry_sorted h.sorted, ?_, ?_, h.regular⟩, ?_⟩
    · rw [collectItem, if_neg (by simp [hregular])]
      simp only [entry] at hcanonical hnew
      simp only [hcanonical, not_true_eq_false, hnew, ↓reduceIte, entry]
    · intro key
      rw [List.mem_cons, h.seen, ((addEntry_perm entry collected.entries).map _).mem_iff, List.map_cons,
        List.mem_cons]
    · exact (((addEntry_perm entry collected.entries).append_right _).trans
        List.perm_middle.symm).trans hperm
    · rw [Item.directories, Nat.add_zero]

theorem collectItems_ok (hall : CanonicalNames rules all) {path : List String} {items : List Item}
    {collected : Collected} (h : Collects rules root all collected (filesIn root path items ++ rest))
    (hregular : regularIn items = true) :
    ∃ collected', collectItems rules root path items collected = .ok collected' ∧
      Collects rules root all collected' rest ∧
      pendingCount collected'.pendingDirectories =
        pendingCount collected.pendingDirectories + directoriesIn items := by
  induction items generalizing collected with
  | nil => exact ⟨collected, rfl, h, rfl⟩
  | cons item items ih =>
    simp only [regularIn, Bool.and_eq_true] at hregular
    rw [filesIn, List.append_assoc] at h
    obtain ⟨first, hfirst, hkept, hcount⟩ := collectItem_ok hall h hregular.1
    obtain ⟨last, hlast, hdone, hsum⟩ := ih hkept hregular.2
    refine ⟨last, ?_, hdone, ?_⟩
    · rw [collectItems, hfirst]
      exact hlast
    · rw [directoriesIn, hsum, hcount, Nat.add_assoc]

/-- The loop visits every directory: in the end all files are entries, in the dictionary's order. -/
theorem collectDirectories_ok (hall : CanonicalNames rules all) {fuel : Nat} {collected : Collected}
    (h : Collects rules root all collected [])
    (hfuel : pendingCount collected.pendingDirectories ≤ fuel) :
    ∃ collected', collectDirectories rules root fuel collected = .ok collected' ∧
      collected'.entries.Perm all ∧ collected'.entries.Pairwise OrdinalOrder := by
  have hdone : ∀ {last : Collected}, Collects rules root all last [] → last.pendingDirectories = [] →
      last.entries.Perm all := by
    intro last hlast hnil
    have hperm := hlast.perm
    rw [hnil] at hperm
    simpa [pendingFiles] using hperm
  induction fuel generalizing collected with
  | zero =>
    have hnil : collected.pendingDirectories = [] := by
      cases hpending : collected.pendingDirectories with
      | nil => rfl
      | cons directory pending =>
        rw [hpending, pendingCount, List.map_cons, List.sum_cons] at hfuel
        omega
    exact ⟨collected, rfl, hdone h hnil, h.sorted⟩
  | succ fuel ih =>
    cases hpending : collected.pendingDirectories with
    | nil => exact ⟨collected, by rw [collectDirectories, hpending], hdone h hpending, h.sorted⟩
    | cons directory pending =>
      obtain ⟨path, items⟩ := directory
      have hperm := h.perm
      have hregular := h.regular
      rw [hpending] at hperm hregular
      rw [hpending, pendingCount, List.map_cons, List.sum_cons] at hfuel
      have hvisit : Collects rules root all { collected with pendingDirectories := pending }
          (filesIn root path items ++ []) := by
        refine ⟨h.sorted, h.seen, ?_, fun d hd => hregular d (List.mem_cons_of_mem _ hd)⟩
        simpa [pendingFiles] using hperm
      obtain ⟨next, hnext, hkept, hcount⟩ := collectItems_ok hall hvisit (hregular _ List.mem_cons_self)
      simp only [pendingCount] at hcount hfuel
      obtain ⟨last, hlast, hall, hsorted⟩ := ih hkept (by
        rw [pendingCount]
        omega)
      refine ⟨last, ?_, hall, hsorted⟩
      rw [collectDirectories, hpending]
      simp only [hnext, hlast]

end Collecting

section Exact

variable {rules : TextRules} {source : SourceTree} {includeBaseDirectory : Bool}

theorem collectEntries_ok (h : CanonicalSource rules source includeBaseDirectory)
    (hfiles : source.files includeBaseDirectory ≠ []) :
    ∃ entries, collectEntries rules source includeBaseDirectory = .ok entries ∧
      entries.Perm (source.files includeBaseDirectory) ∧ entries.Pairwise OrdinalOrder := by
  obtain ⟨root, hroot⟩ := h.rooted
  have hnamed := h.named
  rw [SourceTree.files, hroot] at hnamed hfiles ⊢
  have hstart : Collects rules root (filesIn root [] source.items)
      { pendingDirectories := [([], source.items)] } [] := by
    refine ⟨List.Pairwise.nil, by simp, ?_, ?_⟩
    · simp [pendingFiles]
    · simp [h.regular.2]
  obtain ⟨last, hlast, hperm, hsorted⟩ := collectDirectories_ok hnamed hstart
    (Nat.le_refl (directoriesIn source.items + 1))
  have hsome : last.entries.length ≠ 0 := by
    rw [hperm.length_eq]
    exact fun hzero => hfiles (List.length_eq_zero_iff.mp hzero)
  refine ⟨last.entries, ?_, hperm, hsorted⟩
  rw [collectEntries, if_neg (by simp [h.regular.1]), hroot]
  simp only [hlast, hsome, ↓reduceIte]

/-- Only one order of the files is that of the dictionary. -/
theorem sorted_unique {entries others files : List Entry} (hnames : CanonicalNames rules files)
    (hentries : entries.Perm files) (hothers : others.Perm files)
    (hsorted : entries.Pairwise OrdinalOrder) (hsorted' : others.Pairwise OrdinalOrder) :
    entries = others := by
  refine (hentries.trans hothers.symm).eq_of_pairwise ?_ hsorted hsorted'
  intro a b ha hb hab hba
  have hkey := utf16Units_of_ordinalKey (le_antisymm hab hba)
  have hfold : ignoreCaseKey rules a.name = ignoreCaseKey rules b.name := by
    rw [ignoreCaseKey, hkey, ignoreCaseKey]
  exact List.inj_on_of_nodup_map hnames.distinct (hentries.subset ha) (hothers.subset hb) hfold

/-- What the limits ask of the length of an archive. -/
def archiveSize (entries : List Entry) : Nat :=
  (entries.map fun entry =>
    76 + 2 * (utf8Bytes entry.name.toList).length + entry.content.length).sum + 22

theorem length_archiveBytes_eq (entries : List Entry) :
    (archiveBytes entries).length = archiveSize entries := by
  have hrecords : ∀ offset, (localBytes entries).length +
      ((centralsOf offset entries).flatMap centralRecord).length + 22 = archiveSize entries := by
    induction entries with
    | nil => intro offset; rfl
    | cons entry entries ih =>
      intro offset
      have hrest := ih (offset + (entryBytes entry).length)
      rw [archiveSize] at hrest ⊢
      rw [localBytes_cons, List.length_append, length_entryBytes, centralsOf, List.flatMap_cons,
        List.length_append, length_centralRecord, List.map_cons, List.sum_cons]
      simp only [centralOf]
      omega
  rw [length_archiveBytes, centralBytes, hrecords 0]

theorem Fits.perm {entries others : List Entry} (h : Fits entries) (hperm : others.Perm entries) :
    Fits others where
  count := hperm.length_eq ▸ h.count
  entry := fun entry hmem => h.entry entry (hperm.subset hmem)
  size := by
    have hsize := h.size
    rw [length_archiveBytes_eq, archiveSize] at hsize ⊢
    rwa [(hperm.map _).sum_nat]

/-- The archive of a canonical tree within the limits is accepted with the entries it was written from;
its bytes depend on names and contents only; and every accepted archive is the archive of its entries. -/
theorem canonical_zip_exact (rules : TextRules) :
    (∀ source includeBaseDirectory, CanonicalSource rules source includeBaseDirectory →
      Fits (source.files includeBaseDirectory) → ∃ entries bytes locals,
        collectEntries rules source includeBaseDirectory = .ok entries ∧
        newCanonicalZipArchive rules source includeBaseDirectory = .ok bytes ∧
        assertFFBCanonicalStoredZip bytes = .ok locals ∧ locals.map Local.entry = entries ∧
        entries.Perm (source.files includeBaseDirectory) ∧ entries.Pairwise OrdinalOrder) ∧
    (∀ source other includeBaseDirectory includeOther,
      CanonicalSource rules source includeBaseDirectory → CanonicalSource rules other includeOther →
      source.files includeBaseDirectory ≠ [] →
      (∀ file, file ∈ source.files includeBaseDirectory ↔ file ∈ other.files includeOther) →
        newCanonicalZipArchive rules source includeBaseDirectory =
          newCanonicalZipArchive rules other includeOther) ∧
    ∀ bytes locals, assertFFBCanonicalStoredZip bytes = .ok locals →
      writeArchive (locals.map Local.entry) = .ok bytes := by
  refine ⟨?_, ?_, ?_⟩
  · intro source includeBaseDirectory hsource hfits
    have hfiles : source.files includeBaseDirectory ≠ [] := by
      intro hnil
      have hcount := hfits.count.1
      rw [hnil] at hcount
      simp at hcount
    obtain ⟨entries, hentries, hperm, hsorted⟩ := collectEntries_ok hsource hfiles
    have hwritten := writeArchive_eq (hfits.perm hperm)
    refine ⟨entries, archiveBytes entries, localsOf 0 entries, hentries, ?_, ?_,
      map_entry_localsOf 0 entries, hperm, hsorted⟩
    · rw [newCanonicalZipArchive, hentries]
      exact hwritten
    · exact assertFFBCanonicalStoredZip_ok_iff.mpr ⟨entries, hfits.perm hperm, rfl, rfl⟩
  · intro source other includeBaseDirectory includeOther hsource hother hfiles hsame
    have hperm : (source.files includeBaseDirectory).Perm (other.files includeOther) :=
      (List.perm_ext_iff_of_nodup hsource.named.distinct.of_map hother.named.distinct.of_map).mpr hsame
    obtain ⟨entries, hentries, hfirst, hsorted⟩ := collectEntries_ok hsource hfiles
    have hfiles' : other.files includeOther ≠ [] := by
      intro hnil
      rw [hnil] at hperm
      exact hfiles hperm.eq_nil
    obtain ⟨others, hothers, hsecond, hsorted'⟩ := collectEntries_ok hother hfiles'
    have heq : entries = others :=
      sorted_unique hother.named (hfirst.trans hperm) hsecond hsorted hsorted'
    rw [newCanonicalZipArchive, hentries, newCanonicalZipArchive, hothers, heq]
  · intro bytes locals h
    obtain ⟨entries, hfits, rfl, rfl⟩ := assertFFBCanonicalStoredZip_ok_iff.mp h
    rw [map_entry_localsOf]
    exact writeArchive_eq hfits

def sampleSource : SourceTree where
  sourceRoot := "C:\\build\\package"
  items := [.directory "nested" {} [.file "z.txt" {} [0x6F]], .file "a.txt" {} [0x61, 0x62]]

def asciiRules : TextRules where
  ignoreCase := fun units =>
    units.map fun unit => if 0x61 ≤ unit && unit ≤ 0x7A then unit - 0x20 else unit
  equal := fun a b => a.toUpper = b.toUpper

theorem sampleSource_canonical : CanonicalSource asciiRules sampleSource true where
  regular := by decide
  rooted := ⟨"package", by decide +kernel⟩
  named := ⟨by decide +kernel, by decide +kernel⟩

theorem sampleSource_fits : Fits (sampleSource.files true) where
  count := by decide +kernel
  entry := by decide +kernel
  size := by decide +kernel

theorem sample_archive_accepted : ∃ entries bytes locals,
    collectEntries asciiRules sampleSource true = .ok entries ∧
    newCanonicalZipArchive asciiRules sampleSource true = .ok bytes ∧
    assertFFBCanonicalStoredZip bytes = .ok locals ∧ locals.map Local.entry = entries ∧
    entries.Perm (sampleSource.files true) ∧ entries.Pairwise OrdinalOrder :=
  (canonical_zip_exact asciiRules).1 sampleSource true sampleSource_canonical sampleSource_fits

end Exact

end FfbInterceptor.Release
