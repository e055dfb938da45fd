import FfbInterceptor.Manager.PackageTree

/-! The files of a package as they are opened, read and held against their entries. -/
namespace FfbInterceptor.Manager
open FfbInterceptor.Launcher

section Reading
variable {package : Package} {system : PackageSystem} {world : World} {path : WString}
  {contents : List UInt8}

theorem openRegularFile_some (hreflects : Reflects system package) (hasked : package.Asked path)
    {file : Handle} {after : World}
    (hopen : openRegularFile system.toSystem world (joinPath package.root path) = (some file, after)) :
    file.request.path = joinPath package.root path ∧
      ∃ contents, package.contents? path = some contents := by
  simp only [openRegularFile] at hopen
  cases hcreate : world.createFile system.toSystem
      ⟨joinPath package.root path, true, true, true, false⟩ with
  | mk answer created =>
    cases answer with
    | none => simp [hcreate] at hopen
    | some candidate =>
      have hrequest : candidate.request.path = joinPath package.root path := by
        simp only [World.createFile] at hcreate
        split at hcreate
        · cases hcreate
          rfl
        · cases hcreate
      simp only [hcreate] at hopen
      cases hinformation : system.fileInformation candidate with
      | none => simp [hinformation] at hopen
      | some attributes =>
        simp only [hinformation] at hopen
        cases hkind : attributes.directory || attributes.reparsePoint with
        | true => simp [hkind] at hopen
        | false =>
          rw [hkind, if_neg Bool.false_ne_true] at hopen
          obtain ⟨found, hresolve, hattributes⟩ :=
            hreflects.information path candidate attributes hasked hrequest hinformation
          obtain ⟨hfile, -⟩ := Prod.mk.inj hopen
          rw [← Option.some.inj hfile]
          refine ⟨hrequest, ?_⟩
          cases hitem : found.item with
          | file contents =>
            exact ⟨contents, by simp only [Package.contents?, hresolve, Option.map_some, hitem]⟩
          | link isDirectory => simp [hattributes, hitem, Item.attributes] at hkind
          | folder items => simp [hattributes, hitem, Item.attributes] at hkind

theorem openRegularFile_returns (hreflects : Reflects system package) (hasked : package.Asked path)
    (hresponds : Responds system package) (hcontents : package.contents? path = some contents)
    (world : World) : ∃ file after,
      openRegularFile system.toSystem world (joinPath package.root path) = (some file, after) ∧
        file.request.path = joinPath package.root path := by
  have hreadable : package.Readable path := ⟨hasked, Option.isSome_of_eq_some hcontents⟩
  have hcreate := hresponds.createFile path world.attempts
    ⟨joinPath package.root path, true, true, true, false⟩ hreadable rfl
  obtain ⟨attributes, hinformation⟩ := Option.isSome_iff_exists.mp
    (hresponds.information path ⟨world.attempts, ⟨joinPath package.root path, true, true, true, false⟩⟩
      hreadable rfl)
  obtain ⟨found, hresolve, hattributes⟩ :=
    hreflects.information path _ attributes hasked rfl hinformation
  have hkind : (attributes.directory || attributes.reparsePoint) = false := by
    rw [Package.contents?, hresolve, Option.map_some] at hcontents
    cases hitem : found.item with
    | file contents => rw [hattributes, hitem, Item.attributes, Bool.or_self]
    | link isDirectory => simp [hitem] at hcontents
    | folder items => simp [hitem] at hcontents
  simp only [openRegularFile, World.createFile, hcreate, ↓reduceIte, hinformation, hkind,
    Bool.false_eq_true]
  exact ⟨_, _, rfl, rfl⟩

theorem read_prefix (hreflects : Reflects system package) (hasked : package.Asked path)
    {file : Handle}
    (hfile : file.request.path = joinPath package.root path)
    (hcontents : package.contents? path = some contents) {acc bytes : List UInt8} {requested : Nat}
    (hacc : acc <+: contents) (hread : system.readFile file acc.length requested = some bytes) :
    acc ++ bytes <+: contents ∧ bytes.length ≤ requested ∧
      (bytes = [] → 0 < requested → acc = contents) := by
  obtain ⟨hbytes, hlength, hnothing⟩ :=
    hreflects.readFile path file acc.length requested bytes contents hasked hfile hcontents hread
  obtain ⟨rest, rfl⟩ := hacc
  rw [List.drop_left] at hbytes
  refine ⟨List.prefix_append_right_inj acc |>.mpr hbytes, hlength, ?_⟩
  intro hnil hpositive
  have hle := hnothing hnil hpositive
  rw [List.length_append] at hle
  rw [List.eq_nil_of_length_eq_zero (by omega : rest.length = 0), List.append_nil]

theorem readLoop_some (hreflects : Reflects system package) (hasked : package.Asked path)
    {file : Handle}
    (hfile : file.request.path = joinPath package.root path)
    (hcontents : package.contents? path = some contents) {fuel : Nat} {acc result : List UInt8}
    (hacc : acc <+: contents) (hfuel : contents.length ≤ fuel + acc.length)
    (hread : readLoop system.toSystem file contents.length fuel acc = some result) :
    result = contents := by
  induction fuel generalizing acc with
  | zero =>
    rw [← Option.some.inj hread]
    exact hacc.eq_of_length_le (by omega)
  | succ fuel ih =>
    simp only [readLoop] at hread
    by_cases hdone : contents.length ≤ acc.length
    · rw [if_pos hdone] at hread
      rw [← Option.some.inj hread]
      exact hacc.eq_of_length_le hdone
    · rw [if_neg hdone] at hread
      cases hanswer : system.readFile file acc.length
          (min (contents.length - acc.length) 0xFFFFFFFF) with
      | none => simp [hanswer] at hread
      | some bytes =>
        cases bytes with
        | nil => simp [hanswer] at hread
        | cons b bytes =>
          simp only [hanswer] at hread
          obtain ⟨hnext, hlength, -⟩ := read_prefix hreflects hasked hfile hcontents hacc hanswer
          rw [List.take_of_length_le hlength] at hread
          refine ih hnext ?_ hread
          rw [List.length_append, List.length_cons]
          omega

theorem readLoop_returns (hreflects : Reflects system package) (hasked : package.Asked path)
    (hresponds : Responds system package)
    {file : Handle} (hfile : file.request.path = joinPath package.root path)
    (hcontents : package.contents? path = some contents) {fuel : Nat} {acc : List UInt8}
    (hacc : acc <+: contents) :
    ∃ result, readLoop system.toSystem file contents.length fuel acc = some result := by
  induction fuel generalizing acc with
  | zero => exact ⟨acc, rfl⟩
  | succ fuel ih =>
    by_cases hdone : contents.length ≤ acc.length
    · exact ⟨acc, by simp only [readLoop, hdone, ↓reduceIte]⟩
    · obtain ⟨bytes, hanswer⟩ := Option.isSome_iff_exists.mp
        (hresponds.readFile path file acc.length (min (contents.length - acc.length) 0xFFFFFFFF)
          ⟨hasked, Option.isSome_of_eq_some hcontents⟩ hfile)
      obtain ⟨hnext, hlength, hnothing⟩ := read_prefix hreflects hasked hfile hcontents hacc hanswer
      cases bytes with
      | nil => exact absurd (hnothing rfl (by omega)) fun hall => hdone (hall ▸ le_rfl)
      | cons b bytes =>
        obtain ⟨result, hresult⟩ := ih hnext
        refine ⟨result, ?_⟩
        simp only [readLoop, if_neg hdone, hanswer, List.take_of_length_le hlength]
        exact hresult

theorem hashLoop_some (hreflects : Reflects system package) (hasked : package.Asked path)
    {file : Handle}
    (hfile : file.request.path = joinPath package.root path)
    (hcontents : package.contents? path = some contents) {fuel : Nat} {acc result : List UInt8}
    (hacc : acc <+: contents) (hread : hashLoop system file fuel acc = some result) :
    result = contents := by
  induction fuel generalizing acc with
  | zero => cases hread
  | succ fuel ih =>
    simp only [hashLoop] at hread
    cases hanswer : system.readFile file acc.length 65536 with
    | none => simp [hanswer] at hread
    | some bytes =>
      obtain ⟨hnext, -, hnothing⟩ := read_prefix hreflects hasked hfile hcontents hacc hanswer
      cases bytes with
      | nil =>
        simp only [hanswer, Option.some.injEq] at hread
        rw [← hread]
        exact hnothing rfl (by decide)
      | cons b bytes =>
        simp only [hanswer] at hread
        exact ih hnext hread

theorem hashLoop_returns (hreflects : Reflects system package) (hasked : package.Asked path)
    (hresponds : Responds system package)
    {file : Handle} (hfile : file.request.path = joinPath package.root path)
    (hcontents : package.contents? path = some contents) {fuel : Nat} {acc : List UInt8}
    (hacc : acc <+: contents) (hfuel : contents.length < fuel + acc.length) :
    ∃ result, hashLoop system file fuel acc = some result := by
  induction fuel generalizing acc with
  | zero =>
    have hle := hacc.length_le
    omega
  | succ fuel ih =>
    obtain ⟨bytes, hanswer⟩ := Option.isSome_iff_exists.mp
      (hresponds.readFile path file acc.length 65536 ⟨hasked, Option.isSome_of_eq_some hcontents⟩ hfile)
    obtain ⟨hnext, -, -⟩ := read_prefix hreflects hasked hfile hcontents hacc hanswer
    cases bytes with
    | nil => exact ⟨acc, by simp only [hashLoop, hanswer]⟩
    | cons b bytes =>
      have hmore : contents.length < fuel + (acc ++ b :: bytes).length := by
        rw [List.length_append, List.length_cons]
        omega
      obtain ⟨result, hresult⟩ := ih hnext hmore
      exact ⟨result, by simp only [hashLoop, hanswer, hresult]⟩

theorem readFileLimited_ok (hreflects : Reflects system package) (hasked : package.Asked path)
    {limit : Nat} {result : List UInt8}
    {after : World}
    (hread : readFileLimited system.toSystem world (joinPath package.root path) limit =
      (.ok result, after)) : package.contents? path = some result ∧ result.length ≤ limit := by
  simp only [readFileLimited] at hread
  cases hopen : openRegularFile system.toSystem world (joinPath package.root path) with
  | mk answer opened =>
    cases answer with
    | none => simp [hopen] at hread
    | some file =>
      obtain ⟨hfile, contents, hcontents⟩ := openRegularFile_some hreflects hasked hopen
      simp only [hopen] at hread
      cases hsize : system.fileSize file with
      | none => simp [hsize] at hread
      | some size =>
        have hlength := hreflects.fileSize path file size contents hasked hfile hcontents hsize
        simp only [hsize] at hread
        by_cases hlimit : size < 0 || (limit : Int) < size
        · simp [hlimit] at hread
        · rw [if_neg hlimit, hlength, Int.toNat_natCast] at hread
          cases hloop : readLoop system.toSystem file contents.length contents.length [] with
          | none => simp [hloop] at hread
          | some bytes =>
            have hbytes := readLoop_some hreflects hasked hfile hcontents List.nil_prefix
              (Nat.le_add_right _ _) hloop
            simp only [hloop, Prod.mk.injEq, Except.ok.injEq] at hread
            rw [← hread.1, hbytes]
            refine ⟨hcontents, ?_⟩
            simp only [Bool.or_eq_true, decide_eq_true_eq, not_or, hlength] at hlimit
            omega

theorem readFileLimited_returns (hreflects : Reflects system package) (hasked : package.Asked path)
    (hresponds : Responds system package) (hcontents : package.contents? path = some contents)
    {limit : Nat} (hlimit : contents.length ≤ limit) (world : World) :
    ∃ after, readFileLimited system.toSystem world (joinPath package.root path) limit =
      (.ok contents, after) := by
  obtain ⟨file, opened, hopen, hfile⟩ :=
    openRegularFile_returns hreflects hasked hresponds hcontents world
  obtain ⟨size, hsize⟩ := Option.isSome_iff_exists.mp
    (hresponds.fileSize path file ⟨hasked, Option.isSome_of_eq_some hcontents⟩ hfile)
  have hlength := hreflects.fileSize path file size contents hasked hfile hcontents hsize
  obtain ⟨bytes, hloop⟩ := @readLoop_returns _ _ _ _ hreflects hasked hresponds file hfile hcontents
    contents.length [] List.nil_prefix
  have hbytes := readLoop_some hreflects hasked hfile hcontents List.nil_prefix
    (Nat.le_add_right _ _) hloop
  have hbound : ¬(size < 0 || (limit : Int) < size) = true := by
    simp only [Bool.or_eq_true, decide_eq_true_eq, hlength]
    omega
  refine ⟨opened.close file, ?_⟩
  rw [hbytes] at hloop
  simp only [readFileLimited, hopen, hsize, if_neg hbound]
  rw [hlength, Int.toNat_natCast, hloop]

theorem hashOpened_ok (hreflects : Reflects system package) (hasked : package.Asked path)
    {file : Handle} {digest : WString}
    (hfile : file.request.path = joinPath package.root path)
    (hcontents : package.contents? path = some contents)
    (hok : hashOpened system file = .ok digest) :
    digest = digestText (system.sha256 contents) ∧ contents.length ≤ kMaximumHashedFileBytes.toNat := by
  simp only [hashOpened] at hok
  cases hfinal : finalPathForHandle system.toSystem file with
  | none => simp [hfinal] at hok
  | some finalFile =>
    cases hsize : system.fileSize file with
    | none => simp [hfinal, hsize] at hok
    | some size =>
      have hlength := hreflects.fileSize path file size contents hasked hfile hcontents hsize
      simp only [hfinal, hsize] at hok
      by_cases hlimit : size < 0 || kMaximumHashedFileBytes.toNat < size
      · simp [hlimit] at hok
      · rw [if_neg hlimit] at hok
        cases hroot : system.finalRoot file with
        | none => simp [hroot] at hok
        | some finalRoot =>
          simp only [hroot] at hok
          cases hwithin : pathWithinOrEqual finalFile finalRoot with
          | false => simp [hwithin] at hok
          | true =>
            cases hhashes : system.hashes file with
            | false => simp [hwithin, hhashes] at hok
            | true =>
              simp only [hwithin, hhashes, Bool.not_true, Bool.false_eq_true, ↓reduceIte] at hok
              cases hloop : hashLoop system file (size.toNat + 1) [] with
              | none => simp [hloop] at hok
              | some bytes =>
                simp only [hloop, Except.ok.injEq] at hok
                rw [← hok, hashLoop_some hreflects hasked hfile hcontents List.nil_prefix hloop]
                refine ⟨rfl, ?_⟩
                simp only [Bool.or_eq_true, decide_eq_true_eq, not_or, hlength] at hlimit
                omega

theorem hashOpened_returns (hreflects : Reflects system package) (hasked : package.Asked path)
    (hresponds : Responds system package)
    {file : Handle} (hfile : file.request.path = joinPath package.root path)
    (hcontents : package.contents? path = some contents)
    (hlimit : contents.length ≤ kMaximumHashedFileBytes.toNat) :
    hashOpened system file = .ok (digestText (system.sha256 contents)) := by
  have hreadable : package.Readable path := ⟨hasked, Option.isSome_of_eq_some hcontents⟩
  obtain ⟨finalFile, finalRoot, hfinal, hroot, hwithin⟩ := hresponds.finalPath path file hreadable hfile
  obtain ⟨size, hsize⟩ := Option.isSome_iff_exists.mp (hresponds.fileSize path file hreadable hfile)
  have hlength := hreflects.fileSize path file size contents hasked hfile hcontents hsize
  have hhashes := hresponds.hashes path file hreadable hfile
  have hbound : ¬(size < 0 || kMaximumHashedFileBytes.toNat < size) = true := by
    simp only [Bool.or_eq_true, decide_eq_true_eq, hlength]
    omega
  obtain ⟨bytes, hloop⟩ := @hashLoop_returns _ _ _ _ hreflects hasked hresponds file hfile hcontents
    (size.toNat + 1) [] List.nil_prefix (by rw [hlength, Int.toNat_natCast, List.length_nil]; omega)
  have hbytes := hashLoop_some hreflects hasked hfile hcontents List.nil_prefix hloop
  simp only [hashOpened, hfinal, hsize, if_neg hbound, hroot, hwithin, hhashes, hloop, hbytes,
    Bool.not_true, Bool.false_eq_true, ↓reduceIte]

theorem sha256File_ok (hreflects : Reflects system package) (hasked : package.Asked path)
    {digest : WString} {after : World}
    (hok : sha256File system world (joinPath package.root path) = (.ok digest, after)) :
    ∃ contents, package.contents? path = some contents ∧
      digest = digestText (system.sha256 contents) ∧
        contents.length ≤ kMaximumHashedFileBytes.toNat := by
  simp only [sha256File] at hok
  cases hopen : openRegularFile system.toSystem world (joinPath package.root path) with
  | mk answer opened =>
    cases answer with
    | none => simp [hopen] at hok
    | some file =>
      obtain ⟨hfile, contents, hcontents⟩ := openRegularFile_some hreflects hasked hopen
      simp only [hopen, Prod.mk.injEq] at hok
      exact ⟨contents, hcontents, hashOpened_ok hreflects hasked hfile hcontents hok.1⟩

theorem sha256File_returns (hreflects : Reflects system package) (hasked : package.Asked path)
    (hresponds : Responds system package)
    (hcontents : package.contents? path = some contents)
    (hlimit : contents.length ≤ kMaximumHashedFileBytes.toNat) (world : World) :
    ∃ after, sha256File system world (joinPath package.root path) =
      (.ok (digestText (system.sha256 contents)), after) := by
  obtain ⟨file, opened, hopen, hfile⟩ :=
    openRegularFile_returns hreflects hasked hresponds hcontents world
  refine ⟨opened.close file, ?_⟩
  simp only [sha256File, hopen, hashOpened_returns hreflects hasked hresponds hfile hcontents hlimit]

end Reading

section Entries
variable {package : Package} {system : PackageSystem} {checking next : Checking} {entry : ManifestEntry}

/-- The file of an entry is there, regular, and has its digest. -/
structure Intact (system : PackageSystem) (package : Package) (entry : ManifestEntry)
    (contents : List UInt8) : Prop where
  file : package.contents? entry.relativePath = some contents
  digest : equalIgnoringCase (digestText (system.sha256 contents)) entry.sha256 = true
  length_le : contents.length ≤ kMaximumHashedFileBytes.toNat

/-- The entry is verified and its size added. -/
structure Passes (checking next : Checking) (size : Nat) : Prop where
  packageBytes : next.packageBytes.toNat = checking.packageBytes.toNat + size
  packageBytes_le : next.packageBytes.toNat ≤ kMaximumPackageBytes.toNat
  verifiedFiles : next.verifiedFiles = checking.verifiedFiles + 1
  issues : next.issues = checking.issues

/-- The bound is checked by a subtraction that cannot wrap, and so neither does the sum. -/
theorem addition_iff {sum size : UInt64} (hsize : size ≤ kMaximumHashedFileBytes) :
    ¬(kMaximumPackageBytes - size < sum) ↔ sum.toNat + size.toNat ≤ kMaximumPackageBytes.toNat := by
  have hlimit : kMaximumHashedFileBytes.toNat = 536870912 := rfl
  have hpackage : kMaximumPackageBytes.toNat = 1073741824 := rfl
  rw [UInt64.le_iff_toNat_le, hlimit] at hsize
  have hle : size ≤ kMaximumPackageBytes := by
    rw [UInt64.le_iff_toNat_le, hpackage]
    omega
  rw [UInt64.lt_iff_toNat_lt, UInt64.toNat_sub_of_le _ _ hle, hpackage]
  omega

theorem toNat_add_of_le {sum size : UInt64}
    (h : sum.toNat + size.toNat ≤ kMaximumPackageBytes.toNat) :
    (sum + size).toNat = sum.toNat + size.toNat := by
  have hpackage : kMaximumPackageBytes.toNat = 1073741824 := rfl
  rw [UInt64.toNat_add, Nat.mod_eq_of_lt (by omega)]

theorem checkDigest_cases (hreflects : Reflects system package) (checking : Checking)
    (hasked : package.Asked entry.relativePath) :
    (∃ contents, Intact system package entry contents ∧
      ∃ world, checkDigest system package.root checking entry =
        { checking with world, verifiedFiles := checking.verifiedFiles + 1 }) ∨
    ∃ issue world, checkDigest system package.root checking entry =
      { checking with world, issues := checking.issues ++ [issue] } := by
  cases hhash : sha256File system checking.world (joinPath package.root entry.relativePath) with
  | mk answer world =>
    cases answer with
    | error error =>
      exact .inr ⟨⟨entry.relativePath, error.text⟩, world, by
        simp only [checkDigest, hhash, Checking.report]⟩
    | ok actual =>
      cases hequal : equalIgnoringCase actual entry.sha256 with
      | false =>
        refine .inr ⟨⟨entry.relativePath, wide "SHA-256 不符，檔案可能損毀或遭修改。"⟩, world, ?_⟩
        simp only [checkDigest, hhash, hequal, Bool.false_eq_true, ↓reduceIte, Checking.report]
      | true =>
        obtain ⟨contents, hcontents, hactual, hlength⟩ := sha256File_ok hreflects hasked hhash
        refine .inl ⟨contents, ⟨hcontents, hactual ▸ hequal, hlength⟩, world, ?_⟩
        simp only [checkDigest, hhash, hequal, ↓reduceIte]

theorem checkEntry_cases (hreflects : Reflects system package) (checking : Checking)
    (hasked : package.Asked entry.relativePath) :
    (∃ contents, Intact system package entry contents ∧
      (checkEntry system package.root checking entry).2 = false ∧
        Passes checking (checkEntry system package.root checking entry).1 contents.length) ∨
    ∃ issue, (checkEntry system package.root checking entry).1.issues = checking.issues ++ [issue] := by
  cases hdata : system.getFileAttributesEx (joinPath package.root entry.relativePath) with
  | none =>
    refine .inr ⟨⟨entry.relativePath, wide "檔案不存在、不是一般檔案，或是重新導向連結。"⟩, ?_⟩
    simp only [checkEntry, hdata, Checking.report]
  | some data =>
    cases hkind : data.attributes.directory || data.attributes.reparsePoint with
    | true =>
      refine .inr ⟨⟨entry.relativePath, wide "檔案不存在、不是一般檔案，或是重新導向連結。"⟩, ?_⟩
      simp only [checkEntry, hdata, hkind, ↓reduceIte, Checking.report]
    | false =>
      by_cases hlarge : kMaximumHashedFileBytes < data.fileBytes ||
          kMaximumPackageBytes - data.fileBytes < checking.packageBytes
      · refine .inr ⟨⟨entry.relativePath, wide "套件檔案總量超過 1 GiB 完整性驗證安全上限。"⟩, ?_⟩
        simp only [checkEntry, hdata, hkind, Bool.false_eq_true, ↓reduceIte, hlarge, Checking.report]
      · have hstep : checkEntry system package.root checking entry =
            (checkDigest system package.root
              { checking with packageBytes := checking.packageBytes + data.fileBytes } entry,
              false) := by
          simp only [checkEntry, hdata, hkind, Bool.false_eq_true, ↓reduceIte, if_neg hlarge]
        rw [hstep]
        rcases checkDigest_cases hreflects
            { checking with packageBytes := checking.packageBytes + data.fileBytes } hasked with
          ⟨contents, hintact, world, hnext⟩ | ⟨issue, world, hnext⟩
        · refine .inl ⟨contents, hintact, rfl, ?_⟩
          rw [hnext]
          obtain ⟨found, hresolve, -, hsize⟩ :=
            hreflects.attributesEx entry.relativePath data hasked hdata
          have hfile : found.item = .file contents := by
            have hcontents := hintact.file
            rw [Package.contents?, hresolve, Option.map_some] at hcontents
            cases hitem : found.item with
            | file other => simpa [hitem] using hcontents
            | link isDirectory => simp [hitem] at hcontents
            | folder items => simp [hitem] at hcontents
          simp only [Bool.or_eq_true, decide_eq_true_eq, not_or] at hlarge
          have hsum := (addition_iff (UInt64.not_lt.mp hlarge.1)).mp hlarge.2
          have hadd := toNat_add_of_le hsum
          rw [hsize contents hfile] at hsum hadd
          exact ⟨hadd, hadd ▸ hsum, rfl, rfl⟩
        · exact .inr ⟨issue, by rw [hnext]⟩

theorem checkEntry_returns (hreflects : Reflects system package) (hresponds : Responds system package)
    (hasked : package.Asked entry.relativePath)
    {contents : List UInt8} (hintact : Intact system package entry contents)
    (hroom : checking.packageBytes.toNat + contents.length ≤ kMaximumPackageBytes.toNat) :
    (checkEntry system package.root checking entry).2 = false ∧
      Passes checking (checkEntry system package.root checking entry).1 contents.length := by
  obtain ⟨data, hdata⟩ := Option.isSome_iff_exists.mp
    (hresponds.attributesEx entry.relativePath ⟨hasked, Option.isSome_of_eq_some hintact.file⟩)
  obtain ⟨found, hresolve, hattributes, hsize⟩ :=
    hreflects.attributesEx entry.relativePath data hasked hdata
  have hfile : found.item = .file contents := by
    have hcontents := hintact.file
    rw [Package.contents?, hresolve, Option.map_some] at hcontents
    cases hitem : found.item with
    | file other => simpa [hitem] using hcontents
    | link isDirectory => simp [hitem] at hcontents
    | folder items => simp [hitem] at hcontents
  have hbytes := hsize contents hfile
  have hkind : (data.attributes.directory || data.attributes.reparsePoint) = false := by
    rw [hattributes, hfile, Item.attributes, Bool.or_self]
  have hle : data.fileBytes ≤ kMaximumHashedFileBytes := by
    rw [UInt64.le_iff_toNat_le, hbytes]
    exact hintact.length_le
  rw [← hbytes] at hroom ⊢
  have hlarge : ¬(kMaximumHashedFileBytes < data.fileBytes ||
      kMaximumPackageBytes - data.fileBytes < checking.packageBytes) = true := by
    simp only [Bool.or_eq_true, decide_eq_true_eq, not_or]
    exact ⟨UInt64.not_lt.mpr hle, (addition_iff hle).mpr hroom⟩
  obtain ⟨world, hhash⟩ := sha256File_returns hreflects hasked hresponds hintact.file hintact.length_le
    checking.world
  have hadd := toNat_add_of_le hroom
  simp only [checkEntry, hdata, hkind, Bool.false_eq_true, ↓reduceIte, if_neg hlarge, checkDigest, hhash,
    hintact.digest]
  exact ⟨trivial, hadd, hadd ▸ hroom, rfl, rfl⟩

/-- The files of all entries are intact and fit into what the check allows for a package. -/
structure AllIntact (system : PackageSystem) (package : Package) (entries : List ManifestEntry)
    (room : Nat) : Prop where
  intact : ∀ entry ∈ entries, ∃ contents, Intact system package entry contents
  fits : (entries.map fun entry => package.fileSize entry.relativePath).sum ≤ room

theorem Intact.fileSize {contents : List UInt8} (h : Intact system package entry contents) :
    package.fileSize entry.relativePath = contents.length := by
  rw [Package.fileSize, h.file, Option.map_some, Option.getD_some]

theorem issues_checkEntries (hreflects : Reflects system package) (entries : List ManifestEntry)
    (hasked : ∀ entry ∈ entries, package.Asked entry.relativePath) (checking : Checking)
    (hnone : (checkEntries system package.root checking entries).issues = []) :
    checking.issues = [] := by
  induction entries generalizing checking with
  | nil => exact hnone
  | cons entry entries ih =>
    obtain ⟨hfirst, hlater⟩ := List.forall_mem_cons.mp hasked
    have hstep : (checkEntry system package.root checking entry).1.issues = [] := by
      simp only [checkEntries] at hnone
      split at hnone
      · exact hnone
      · exact ih hlater _ hnone
    rcases checkEntry_cases hreflects checking hfirst with
      ⟨contents, -, -, hpasses⟩ | ⟨issue, hissue⟩
    · rw [← hpasses.issues, hstep]
    · rw [hissue] at hstep
      exact absurd hstep (by simp)

theorem checkEntries_ok (hreflects : Reflects system package) (entries : List ManifestEntry)
    (hasked : ∀ entry ∈ entries, package.Asked entry.relativePath) (checking : Checking)
    (hnone : (checkEntries system package.root checking entries).issues = [])
    (hbound : checking.packageBytes.toNat ≤ kMaximumPackageBytes.toNat) :
    AllIntact system package entries (kMaximumPackageBytes.toNat - checking.packageBytes.toNat) := by
  induction entries generalizing checking with
  | nil => exact ⟨nofun, Nat.zero_le _⟩
  | cons entry entries ih =>
    have hnow := issues_checkEntries hreflects _ hasked _ hnone
    obtain ⟨hfirst, hlater⟩ := List.forall_mem_cons.mp hasked
    rcases checkEntry_cases hreflects checking hfirst with
      ⟨contents, hintact, hstays, hpasses⟩ | ⟨issue, hissue⟩
    · have hcontinues : checkEntries system package.root checking (entry :: entries) =
          checkEntries system package.root (checkEntry system package.root checking entry).1
            entries := by
        have hshort : ¬32 ≤ (checkEntry system package.root checking entry).1.issues.length := by
          rw [hpasses.issues, hnow]
          decide
        simp only [checkEntries, hstays, Bool.false_or, hshort, decide_false, Bool.false_eq_true,
          ↓reduceIte]
      rw [hcontinues] at hnone
      have hrest := ih hlater _ hnone hpasses.packageBytes_le
      have hbytes := hpasses.packageBytes
      have hle := hpasses.packageBytes_le
      have hfits := hrest.fits
      refine ⟨List.forall_mem_cons.mpr ⟨⟨contents, hintact⟩, hrest.intact⟩, ?_⟩
      rw [List.map_cons, List.sum_cons, hintact.fileSize]
      omega
    · exfalso
      have hleft : (checkEntries system package.root checking (entry :: entries)).issues ≠ [] := by
        simp only [checkEntries]
        split
        · rw [hissue]
          simp
        · intro hrest
          have hstep := issues_checkEntries hreflects entries hlater _ hrest
          rw [hissue] at hstep
          exact absurd hstep (by simp)
      exact hleft hnone

theorem checkEntries_returns (hreflects : Reflects system package)
    (hresponds : Responds system package) (entries : List ManifestEntry)
    (hasked : ∀ entry ∈ entries, package.Asked entry.relativePath) (checking : Checking)
    (hall : AllIntact system package entries
      (kMaximumPackageBytes.toNat - checking.packageBytes.toNat))
    (hbound : checking.packageBytes.toNat ≤ kMaximumPackageBytes.toNat)
    (hnone : checking.issues = []) :
    (checkEntries system package.root checking entries).issues = [] ∧
      (checkEntries system package.root checking entries).verifiedFiles =
        checking.verifiedFiles + entries.length := by
  induction entries generalizing checking with
  | nil => exact ⟨hnone, rfl⟩
  | cons entry entries ih =>
    obtain ⟨hfirst, hlater⟩ := List.forall_mem_cons.mp hasked
    obtain ⟨⟨contents, hintact⟩, hrest⟩ := List.forall_mem_cons.mp hall.intact
    have hfits := hall.fits
    rw [List.map_cons, List.sum_cons, hintact.fileSize] at hfits
    obtain ⟨hstays, hpasses⟩ := @checkEntry_returns _ _ checking _ hreflects hresponds hfirst _ hintact
      (by omega)
    have hissues := hpasses.issues.trans hnone
    have hbytes := hpasses.packageBytes
    have hverified := hpasses.verifiedFiles
    have hcontinues : checkEntries system package.root checking (entry :: entries) =
        checkEntries system package.root (checkEntry system package.root checking entry).1
          entries := by
      simp only [checkEntries, hstays, hissues, List.length_nil, Nat.reduceLeDiff, decide_false,
        Bool.or_self, Bool.false_eq_true, ↓reduceIte]
    rw [hcontinues, List.length_cons]
    obtain ⟨hfinal, hcount⟩ := ih hlater _ ⟨hrest, by omega⟩ hpasses.packageBytes_le hissues
    exact ⟨hfinal, by omega⟩

end Entries

end FfbInterceptor.Manager
