import FfbInterceptor.Library.Attempts
import FfbInterceptor.Library.FirstFree
import Mathlib.Data.Finmap

/-! Files as the PowerShell scripts see them, and the file operations of the scripts. -/
namespace FfbInterceptor.Installer
open FfbInterceptor.Library

abbrev FileName := List Char

structure Path where
  folder : List FileName
  name : FileName
  deriving DecidableEq, Repr

def Path.append (path : Path) (suffix : FileName) : Path :=
  { path with name := path.name ++ suffix }

/-- A reparse point that is no folder is read through. -/
inductive Entry (γ : Type) where
  | file (content : γ)
  | link (content : γ)
  | directory
  deriving DecidableEq, Repr

variable {γ : Type}

def Entry.content : Entry γ → Option γ
  | .file content => some content
  | .link content => some content
  | .directory => none

/-- Neither `PSIsContainer` nor `ReparsePoint`. -/
def Entry.regular : Entry γ → Bool
  | .file _ => true
  | _ => false

abbrev FileSystem (γ : Type) := Finmap fun _ : Path => Entry γ

namespace FileSystem

def testPath (fs : FileSystem γ) (path : Path) : Bool := (fs.lookup path).isSome

def read (fs : FileSystem γ) (path : Path) : Option γ := (fs.lookup path).bind Entry.content

def testLeaf (fs : FileSystem γ) (path : Path) : Bool := (fs.read path).isSome

/-- `PSIsContainer` or `ReparsePoint`, of something that is there. -/
def isIrregular (fs : FileSystem γ) (path : Path) : Bool :=
  (fs.lookup path).any fun entry => !entry.regular

def isFolder (fs : FileSystem γ) (path : Path) : Bool := fs.testPath path && !fs.testLeaf path

def move (fs : FileSystem γ) (source destination : Path) : Option (FileSystem γ) :=
  if fs.testLeaf source && !fs.testPath destination then
    (fs.lookup source).map fun entry => (fs.erase source).insert destination entry
  else none

/-- `[IO.File]::Copy` without overwriting, as far as the destination goes. -/
def create (fs : FileSystem γ) (path : Path) (content : γ) : Option (FileSystem γ) :=
  if fs.testPath path then none else some (fs.insert path (.file content))

def write (fs : FileSystem γ) (path : Path) (content : γ) : Option (FileSystem γ) :=
  if fs.isFolder path then none else some (fs.insert path (.file content))

def remove (fs : FileSystem γ) (path : Path) : Option (FileSystem γ) :=
  if fs.testLeaf path then some (fs.erase path) else none

variable {fs fs' : FileSystem γ} {path source destination : Path} {content : γ} {entry : Entry γ}

theorem testPath_iff : fs.testPath path = true ↔ path ∈ fs := by
  rw [testPath, Finmap.lookup_isSome]

theorem testPath_eq_false : fs.testPath path = false ↔ fs.lookup path = none := by
  rw [testPath, Option.isSome_eq_false_iff, Option.isNone_iff_eq_none]

theorem testLeaf_iff : fs.testLeaf path = true ↔ ∃ content, fs.read path = some content := by
  rw [testLeaf, Option.isSome_iff_exists]

theorem testLeaf_eq_false : fs.testLeaf path = false ↔ fs.read path = none := by
  rw [testLeaf, Option.isSome_eq_false_iff, Option.isNone_iff_eq_none]

theorem testLeaf_of_file (h : fs.lookup path = some (.file content)) : fs.testLeaf path = true := by
  rw [testLeaf, read, h]
  rfl

theorem testPath_of_lookup (h : fs.lookup path = some entry) : fs.testPath path = true := by
  rw [testPath, h]
  rfl

theorem read_of_file (h : fs.lookup path = some (.file content)) : fs.read path = some content := by
  rw [read, h]
  rfl

theorem read_of_absent (h : fs.lookup path = none) : fs.read path = none := by
  rw [read, h]
  rfl

theorem absent_of_testLeaf (h : fs.testPath path = false) : fs.testLeaf path = false := by
  rw [testPath_eq_false] at h
  rw [testLeaf_eq_false, read_of_absent h]

theorem move_eq_some (h : fs.move source destination = some fs') :
    ∃ entry, fs.lookup source = some entry ∧ fs.testLeaf source = true ∧
      fs.lookup destination = none ∧ fs' = (fs.erase source).insert destination entry := by
  unfold move at h
  split at h
  · next hcond =>
    rw [Bool.and_eq_true, Bool.not_eq_true', testPath_eq_false] at hcond
    obtain ⟨entry, hentry, rfl⟩ := Option.map_eq_some_iff.mp h
    exact ⟨entry, hentry, hcond.1, hcond.2, rfl⟩
  · cases h

theorem move_of_lookup (hentry : fs.lookup source = some entry) (hleaf : fs.testLeaf source = true)
    (habsent : fs.lookup destination = none) :
    fs.move source destination = some ((fs.erase source).insert destination entry) := by
  rw [move, hleaf, testPath_eq_false.mpr habsent, hentry]
  rfl

theorem lookup_insert_erase (entry : Entry γ) (p : Path) :
    ((fs.erase source).insert destination entry).lookup p =
      if p = destination then some entry else if p = source then none else fs.lookup p := by
  by_cases hdestination : p = destination
  · rw [if_pos hdestination, hdestination, Finmap.lookup_insert]
  · rw [if_neg hdestination, Finmap.lookup_insert_of_ne _ hdestination]
    by_cases hsource : p = source
    · rw [if_pos hsource, hsource, Finmap.lookup_erase]
    · rw [if_neg hsource, Finmap.lookup_erase_ne hsource]

theorem read_congr (h : fs.lookup source = fs'.lookup destination) :
    fs.read source = fs'.read destination := by rw [read, read, h]

theorem move_back (h : fs.move source destination = some fs') :
    fs'.move destination source = some fs := by
  obtain ⟨entry, hentry, hleaf, habsent, rfl⟩ := move_eq_some h
  have hne : source ≠ destination := by
    rintro rfl
    rw [hentry] at habsent
    cases habsent
  have hthere : ((fs.erase source).insert destination entry).lookup destination = some entry := by
    rw [Finmap.lookup_insert]
  have hgone : ((fs.erase source).insert destination entry).lookup source = none := by
    rw [lookup_insert_erase, if_neg hne, if_pos rfl]
  have hleaf' : testLeaf ((fs.erase source).insert destination entry) destination = true := by
    rwa [testLeaf, read_congr (hthere.trans hentry.symm)]
  rw [move_of_lookup hthere hleaf' hgone]
  congr 1
  apply Finmap.ext_lookup
  intro p
  rw [lookup_insert_erase, lookup_insert_erase]
  by_cases hsource : p = source
  · rw [if_pos hsource, hsource, hentry]
  · rw [if_neg hsource, if_neg hsource]
    by_cases hdestination : p = destination
    · rw [if_pos hdestination, hdestination, habsent]
    · rw [if_neg hdestination, if_neg hdestination]

theorem erase_insert (h : fs.lookup path = none) (entry : Entry γ) :
    (fs.insert path entry).erase path = fs := by
  apply Finmap.ext_lookup
  intro p
  by_cases hp : p = path
  · rw [hp, Finmap.lookup_erase, h]
  · rw [Finmap.lookup_erase_ne hp, Finmap.lookup_insert_of_ne _ hp]

theorem move_inserted (hpath : fs.lookup path = none) (hne : destination ≠ path)
    (h : move (fs.insert path (.file content)) path destination = some fs') :
    fs.lookup destination = none ∧ fs' = fs.insert destination (.file content) := by
  obtain ⟨entry, hentry, -, habsent, rfl⟩ := move_eq_some h
  rw [Finmap.lookup_insert] at hentry
  rw [Finmap.lookup_insert_of_ne _ hne] at habsent
  cases hentry
  rw [erase_insert hpath]
  exact ⟨habsent, rfl⟩

/-- `fs'` is `fs`, or has one more file, at `path`. -/
def Littered (fs : FileSystem γ) (path : Path) (fs' : FileSystem γ) : Prop :=
  fs' = fs ∨ ∃ content, fs' = fs.insert path (.file content)

theorem littered_insert (fs : FileSystem γ) (path : Path) (content : γ) :
    fs.Littered path (fs.insert path (.file content)) := .inr ⟨content, rfl⟩

theorem Littered.other (h : Littered fs path fs') {p : Path} (hp : p ≠ path) :
    fs'.lookup p = fs.lookup p := by
  rcases h with rfl | ⟨content, rfl⟩
  · rfl
  · exact Finmap.lookup_insert_of_ne _ hp

end FileSystem

section Hash

abbrev Digest := Fin 32 → Fin 256

instance neZero_byteCount : @NeZero Nat Zero.ofOfNat0 256 := Nat.instNeZeroSucc

def hexDigit (n : Fin 16) : Char :=
  ['0', '1', '2', '3', '4', '5', '6', '7', '8', '9', 'A', 'B', 'C', 'D', 'E', 'F'].get n

/-- `BitConverter.ToString(..).Replace('-', '')`. -/
def Digest.toHex (digest : Digest) : List Char :=
  (List.ofFn digest).flatMap fun byte =>
    [hexDigit ⟨byte.val / 16, by omega⟩, hexDigit ⟨byte.val % 16, by omega⟩]

def isSha256 (text : List Char) : Bool :=
  text.length = 64 && text.all fun c => c.isDigit || ('A' ≤ c && c ≤ 'F')

theorem hexDigit_upper (n : Fin 16) :
    ((hexDigit n).isDigit || ('A' ≤ hexDigit n && hexDigit n ≤ 'F')) = true := by
  revert n
  decide

theorem hexDigit_toUpper (n : Fin 16) : (hexDigit n).toUpper = hexDigit n := by
  revert n
  decide

theorem hexDigit_of_mem {digest : Digest} {c : Char} (h : c ∈ digest.toHex) :
    ∃ n, c = hexDigit n := by
  simp only [Digest.toHex, List.mem_flatMap, List.mem_cons, List.not_mem_nil, or_false] at h
  obtain ⟨byte, -, hc | hc⟩ := h
  · exact ⟨_, hc⟩
  · exact ⟨_, hc⟩

theorem isSha256_toHex (digest : Digest) : isSha256 digest.toHex = true := by
  have hlength : digest.toHex.length = 64 := by
    simp [Digest.toHex]
  have hall : (digest.toHex.all fun c => c.isDigit || ('A' ≤ c && c ≤ 'F')) = true := by
    rw [List.all_eq_true]
    intro c hc
    obtain ⟨n, rfl⟩ := hexDigit_of_mem hc
    exact hexDigit_upper n
  rw [isSha256, hall, hlength]
  rfl

/-- `ToUpperInvariant` has nothing to do. -/
theorem map_toUpper_toHex (digest : Digest) : digest.toHex.map Char.toUpper = digest.toHex := by
  conv_rhs => rw [← List.map_id digest.toHex]
  apply List.map_congr_left
  intro c hc
  obtain ⟨n, rfl⟩ := hexDigit_of_mem hc
  exact hexDigit_toUpper n

end Hash

section Backup

def backupSuffix : FileName := ".ffb-interceptor-backup".toList

def backupCandidate (destination : Path) : Nat → Path
  | 0 => destination.append backupSuffix
  | index + 1 => destination.append (backupSuffix ++ '.' :: Nat.toDigits 10 (index + 1))

/-- The search ends, since a file system has finitely many names. -/
def getBackupPath (fs : FileSystem γ) (destination : Path) : Path :=
  backupCandidate destination
    (firstFree (fun n => fs.testPath (backupCandidate destination n)) fs.keys.card 0)

theorem toDigits_injective : Function.Injective (Nat.toDigits 10) := by
  intro m n h
  have hvalue := congrArg (fun digits => Nat.ofDigitChars 10 digits 0) h
  simpa only [Nat.ofDigitChars_ten_toDigits] using hvalue

theorem Path.append_inj {path : Path} {suffix suffix' : FileName}
    (h : path.append suffix = path.append suffix') : suffix = suffix' :=
  List.append_cancel_left (congrArg Path.name h)

theorem backupCandidate_injective (destination : Path) :
    Function.Injective (backupCandidate destination) := by
  intro m n h
  cases m with
  | zero =>
    cases n with
    | zero => rfl
    | succ n =>
      have hlength := congrArg List.length (Path.append_inj h)
      simp at hlength
  | succ m =>
    cases n with
    | zero =>
      have hlength := congrArg List.length (Path.append_inj h)
      simp at hlength
    | succ n =>
      have htail := List.append_cancel_left (Path.append_inj h)
      exact toDigits_injective (List.cons.inj htail).2

theorem getBackupPath_free (fs : FileSystem γ) (destination : Path) :
    fs.lookup (getBackupPath fs destination) = none := by
  have hkeys : ∀ n, fs.testPath (backupCandidate destination n) = true →
      backupCandidate destination n ∈ fs.keys := by
    intro n hn
    rwa [Finmap.mem_keys, ← FileSystem.testPath_iff]
  exact FileSystem.testPath_eq_false.mp
    (firstFree_free (backupCandidate_injective destination) hkeys)

theorem getBackupPath_congr {fs fs' : FileSystem γ} {destination : Path}
    (h : ∀ n, fs.lookup (backupCandidate destination n) = fs'.lookup (backupCandidate destination n)) :
    getBackupPath fs destination = getBackupPath fs' destination := by
  have hfree := getBackupPath_free fs destination
  have hfree' := getBackupPath_free fs' destination
  rw [← FileSystem.testPath_eq_false] at hfree hfree'
  rw [getBackupPath, getBackupPath]
  congr 1
  refine firstFree_eq (fun n => ?_) hfree hfree'
  rw [FileSystem.testPath, FileSystem.testPath, h]

theorem exists_getBackupPath (fs : FileSystem γ) (destination : Path) :
    ∃ n, getBackupPath fs destination = backupCandidate destination n := ⟨_, rfl⟩

end Backup

/-- What the scripts have of .NET: the hash, and what a copy that fails leaves at its destination. -/
structure Host (γ : Type) where
  digest : γ → Digest
  torn : Option γ

def Host.sha256 (host : Host γ) (content : γ) : List Char := (host.digest content).toHex

inductive Refusal where
  | io (path : Path)
  | thrown (message : String)
  | thrownAt (message : String) (path : Path)
  deriving DecidableEq, Repr

structure Session (γ κ ρ : Type) where
  files : FileSystem γ
  rest : κ
  journal : List ρ

abbrev FileScript (γ κ ρ α : Type) := Script (Session γ κ ρ) Refusal α

section Operations
variable {κ ρ α : Type}

def ask (question : FileSystem γ → α) : FileScript γ κ ρ α :=
  Script.look fun s => question s.files

def refuse (refusal : Refusal) : FileScript γ κ ρ α := throw refusal

def refuseIf (question : FileSystem γ → Bool) (refusal : Refusal) : FileScript γ κ ρ PUnit := do
  if ← ask question then refuse refusal else pure ⟨⟩

def note (entry : ρ) : FileScript γ κ ρ PUnit :=
  Script.amend fun s => { s with journal := s.journal ++ [entry] }

def fileOperation (path : Path) (torn : FileSystem γ → FileSystem γ)
    (effect : FileSystem γ → Option (FileSystem γ)) : FileScript γ κ ρ PUnit :=
  Script.operation (.io path) (fun s => { s with files := torn s.files }) fun s =>
    match effect s.files with
    | some fs => .ok (⟨⟩, { s with files := fs })
    | none => .error (.io path)

def moveFile (source destination : Path) : FileScript γ κ ρ PUnit :=
  fileOperation source id fun fs => fs.move source destination

def deleteFile (path : Path) : FileScript γ κ ρ PUnit :=
  fileOperation path id fun fs => fs.remove path

def deleteIfLeaf (path : Path) : FileScript γ κ ρ PUnit := do
  if ← ask fun fs => fs.testLeaf path then deleteFile path else pure ⟨⟩

/-- `Remove-Item -ErrorAction SilentlyContinue` of what is there. -/
def discard (path : Path) : FileScript γ κ ρ PUnit := do
  if ← ask fun fs => fs.testPath path then Script.swallow (deleteFile path) else pure ⟨⟩

/-- What a copy or a write that fails half-way leaves. -/
def Host.tear (host : Host γ) (path : Path) (fs : FileSystem γ) : FileSystem γ :=
  match host.torn with
  | some content => fs.insert path (.file content)
  | none => fs

theorem Host.littered_tear (host : Host γ) (path : Path) (fs : FileSystem γ) :
    fs.Littered path (host.tear path fs) := by
  unfold Host.tear
  split
  · exact FileSystem.littered_insert fs path _
  · exact .inl rfl

def createFile (host : Host γ) (path : Path) (content : γ) : FileScript γ κ ρ PUnit :=
  fileOperation path (fun fs => if fs.testPath path then fs else host.tear path fs) fun fs =>
    fs.create path content

def writeAllText (host : Host γ) (path : Path) (content : γ) : FileScript γ κ ρ PUnit :=
  fileOperation path (fun fs => if fs.isFolder path then fs else host.tear path fs) fun fs =>
    fs.write path content

def getFileSha256 (host : Host γ) (path : Path) : FileScript γ κ ρ (List Char) :=
  Script.operation (.io path) id fun s =>
    match s.files.read path with
    | some content => .ok (host.sha256 content, s)
    | none => .error (.io path)

/-- Whether a file stands at the path that has a hash; the script names the way to hash it. -/
def holdsSha256 (path : Path) (getSha256 : FileScript γ κ ρ (List Char)) (expected : List Char) :
    FileScript γ κ ρ Bool := do
  if ← ask fun fs => fs.testLeaf path then
    let hash ← getSha256
    pure (hash = expected)
  else pure false

/-- An installed file goes, unless it has been changed since. -/
def removeUnchanged (host : Host γ) (path : Path) (installedSha256 : List Char) :
    FileScript γ κ ρ PUnit := do
  if ← ask fun fs => fs.testLeaf path then
    let hash ← getFileSha256 host path
    if hash = installedSha256 then deleteFile path else pure ⟨⟩
  else pure ⟨⟩

/-- The second half of the `catch` block of an installation. -/
def takeBack (destination : Path) : Option Path → FileScript γ κ ρ PUnit
  | some backup => do
    if ← ask fun fs => !fs.testPath destination && fs.testPath backup then
      Script.swallow (moveFile backup destination)
    else pure ⟨⟩
  | none => pure ⟨⟩

/-- An operation outside the files that a script changes, which may fail or be refused. -/
def check (condition : Bool) (refusal : Refusal) : FileScript γ κ ρ PUnit :=
  Script.operation refusal id fun s => if condition then .ok (⟨⟩, s) else .error refusal

variable {s s' : Session γ κ ρ} {Q : PUnit → Session γ κ ρ → Prop} {E : Session γ κ ρ → Prop}
  {path source destination : Path} {host : Host γ} {content : γ}

theorem reads_refuseIf (question : FileSystem γ → Bool) (refusal : Refusal) :
    Script.Reads (refuseIf (κ := κ) (ρ := ρ) question refusal) :=
  Script.Reads.bind (Script.Reads.look _) fun _ =>
    Script.Reads.ite (Script.Reads.throw _) (Script.Reads.pure _)

theorem reads_getFileSha256 (host : Host γ) (path : Path) :
    Script.Reads (getFileSha256 (κ := κ) (ρ := ρ) host path) := by
  apply Script.Reads.operation
  intro s a s' h
  split at h
  · cases h
    rfl
  · cases h

theorem reads_fileOperation {effect : FileSystem γ → Option (FileSystem γ)}
    (h : ∀ fs fs', effect fs = some fs' → fs' = fs) :
    Script.Reads (fileOperation (κ := κ) (ρ := ρ) path id effect) := by
  apply Script.Reads.operation
  intro s a s' hs
  split at hs
  · next fs heffect =>
    cases hs
    rw [h _ _ heffect]
  · cases hs

theorem reads_check (condition : Bool) (refusal : Refusal) :
    Script.Reads (check (γ := γ) (κ := κ) (ρ := ρ) condition refusal) := by
  apply Script.Reads.operation
  intro s a s' h
  split at h
  · cases h
    rfl
  · cases h

theorem ends_ask {β : Type} {question : FileSystem γ → α} {f : α → FileScript γ κ ρ β}
    {Q : β → Session γ κ ρ → Prop} (h : Script.Ends (f (question s.files)) s Q E) :
    Script.Ends (ask question >>= f) s Q E := Script.Ends.look_bind h

theorem ends_discard_absent (h : s.files.lookup path = none) (hQ : Q ⟨⟩ s) :
    Script.Ends (discard path) s Q E := by
  apply ends_ask
  rw [FileSystem.testPath_eq_false.mpr h]
  exact Script.Ends.pure _ hQ

theorem ends_refuseIf {question : FileSystem γ → Bool} {refusal : Refusal} (hE : E s)
    (hQ : question s.files = false → Q ⟨⟩ s) : Script.Ends (refuseIf question refusal) s Q E := by
  apply Script.Ends.look_bind
  apply Script.Ends.ite
  · intro _
    exact Script.Ends.throw _ hE
  · intro h
    exact Script.Ends.pure _ (hQ (Bool.eq_false_iff.mpr h))

theorem ends_fileOperation {torn : FileSystem γ → FileSystem γ}
    {effect : FileSystem γ → Option (FileSystem γ)} (hE : E s)
    (htorn : E { s with files := torn s.files })
    (hQ : ∀ fs, effect s.files = some fs → Q ⟨⟩ { s with files := fs }) :
    Script.Ends (fileOperation path torn effect) s Q E := by
  unfold fileOperation
  apply Script.Ends.operation htorn
  · intro a s' h
    split at h
    · next fs heffect =>
      cases h
      exact hQ fs heffect
    · cases h
  · intro _ _
    exact hE

theorem ends_moveFile (hE : E s)
    (hQ : ∀ fs, s.files.move source destination = some fs → Q ⟨⟩ { s with files := fs }) :
    Script.Ends (moveFile source destination) s Q E :=
  ends_fileOperation hE hE hQ

theorem ends_createFile (hE : E s)
    (htorn : s.files.lookup path = none → E { s with files := host.tear path s.files })
    (hQ : s.files.lookup path = none →
      Q ⟨⟩ { s with files := s.files.insert path (.file content) }) :
    Script.Ends (createFile host path content) s Q E := by
  cases hpath : s.files.testPath path with
  | true =>
    apply ends_fileOperation hE
    · simpa only [hpath, if_true] using hE
    · intro fs h
      simp only [FileSystem.create, hpath, if_true, reduceCtorEq] at h
  | false =>
    have habsent := FileSystem.testPath_eq_false.mp hpath
    apply ends_fileOperation hE
    · simpa only [hpath, Bool.false_eq_true, if_false] using htorn habsent
    · intro fs h
      simp only [FileSystem.create, hpath, Bool.false_eq_true, if_false, Option.some.injEq] at h
      exact h ▸ hQ habsent

theorem isFolder_of_absent {fs : FileSystem γ} (h : fs.lookup path = none) :
    fs.isFolder path = false := by
  rw [FileSystem.isFolder, FileSystem.testPath_eq_false.mpr h]
  rfl

theorem ends_writeAllText (hpath : s.files.lookup path = none) (hE : E s)
    (htorn : E { s with files := host.tear path s.files })
    (hQ : Q ⟨⟩ { s with files := s.files.insert path (.file content) }) :
    Script.Ends (writeAllText host path content) s Q E := by
  have hfolder := isFolder_of_absent hpath
  apply ends_fileOperation hE
  · simpa only [hfolder, Bool.false_eq_true, if_false] using htorn
  · intro fs h
    simp only [FileSystem.write, hfolder, Bool.false_eq_true, if_false, Option.some.injEq] at h
    exact h ▸ hQ

theorem ends_deleteFile (hE : E s)
    (hQ : s.files.testLeaf path = true → Q ⟨⟩ { s with files := s.files.erase path }) :
    Script.Ends (deleteFile path) s Q E := by
  apply ends_fileOperation hE hE
  intro fs h
  cases hpath : s.files.testLeaf path with
  | false => simp only [FileSystem.remove, hpath, Bool.false_eq_true, if_false, reduceCtorEq] at h
  | true =>
    simp only [FileSystem.remove, hpath, if_true, Option.some.injEq] at h
    exact h ▸ hQ hpath

theorem ends_getFileSha256 {Q : List Char → Session γ κ ρ → Prop} (hE : E s)
    (hQ : ∀ content, s.files.read path = some content → Q (host.sha256 content) s) :
    Script.Ends (getFileSha256 host path) s Q E := by
  unfold getFileSha256
  apply Script.Ends.operation hE
  · intro a s' h
    split at h
    · next content hread =>
      cases h
      exact hQ content hread
    · cases h
  · intro _ _
    exact hE

theorem ends_holdsSha256 {getSha256 : FileScript γ κ ρ (List Char)} {expected : List Char}
    {Q : Bool → Session γ κ ρ → Prop}
    (hget : Script.Ends getSha256 s (fun hash s' => s' = s ∧
      ∃ old, s.files.read path = some old ∧ hash = host.sha256 old) E)
    (hQ : ∀ same, (same = true → ∃ old, s.files.read path = some old ∧ host.sha256 old = expected) →
      (same = false → ∀ old, s.files.read path = some old → host.sha256 old ≠ expected) → Q same s) :
    Script.Ends (holdsSha256 path getSha256 expected) s Q E := by
  apply ends_ask
  apply Script.Ends.ite
  · intro _
    apply hget.bind
    rintro _ _ ⟨rfl, old, hread, rfl⟩
    apply Script.Ends.pure
    apply hQ
    · intro hsame
      exact ⟨old, hread, of_decide_eq_true hsame⟩
    · intro hsame old' hread'
      obtain rfl := Option.some.inj (hread.symm.trans hread')
      exact of_decide_eq_false hsame
  · intro habsent
    have hnone := FileSystem.testLeaf_eq_false.mp (Bool.eq_false_iff.mpr habsent)
    apply Script.Ends.pure
    apply hQ
    · intro hfalse
      cases hfalse
    · intro _ old hread
      rw [hnone] at hread
      cases hread

theorem ends_check {condition : Bool} {refusal : Refusal} (hE : E s)
    (hQ : condition = true → Q ⟨⟩ s) : Script.Ends (check condition refusal) s Q E := by
  unfold check
  apply Script.Ends.operation hE
  · intro a s' h
    cases hcondition : condition with
    | false => simp [hcondition] at h
    | true =>
      simp only [hcondition, if_true] at h
      cases h
      exact hQ hcondition
  · intro _ _
    exact hE

theorem calmly_ask {β : Type} {question : FileSystem γ → α} {f : α → FileScript γ κ ρ β}
    {result : Except Refusal β} (h : Script.Calmly (f (question s.files)) s result s') :
    Script.Calmly (ask question >>= f) s result s' := Script.Calmly.look_bind h

theorem calmly_refuseIf {question : FileSystem γ → Bool} {refusal : Refusal}
    (h : question s.files = false) : Script.Calmly (refuseIf question refusal) s (.ok ⟨⟩) s := by
  apply Script.Calmly.look_bind
  rw [h]
  exact Script.Calmly.pure _ s

theorem calmly_fileOperation {torn : FileSystem γ → FileSystem γ}
    {effect : FileSystem γ → Option (FileSystem γ)} {fs : FileSystem γ}
    (h : effect s.files = some fs) :
    Script.Calmly (fileOperation path torn effect) s (.ok ⟨⟩) { s with files := fs } := by
  unfold fileOperation
  apply Script.Calmly.operation
  rw [h]

theorem calmly_moveFile {fs : FileSystem γ} (h : s.files.move source destination = some fs) :
    Script.Calmly (moveFile source destination) s (.ok ⟨⟩) { s with files := fs } :=
  calmly_fileOperation h

theorem calmly_createFile (h : s.files.lookup path = none) :
    Script.Calmly (createFile host path content) s (.ok ⟨⟩)
      { s with files := s.files.insert path (.file content) } := by
  apply calmly_fileOperation
  rw [FileSystem.create, FileSystem.testPath_eq_false.mpr h]
  rfl

theorem calmly_writeAllText (h : s.files.lookup path = none) :
    Script.Calmly (writeAllText host path content) s (.ok ⟨⟩)
      { s with files := s.files.insert path (.file content) } := by
  apply calmly_fileOperation
  rw [FileSystem.write, isFolder_of_absent h]
  rfl

theorem calmly_deleteFile (h : s.files.testLeaf path = true) :
    Script.Calmly (deleteFile path) s (.ok ⟨⟩) { s with files := s.files.erase path } := by
  apply calmly_fileOperation
  rw [FileSystem.remove, h]
  rfl

theorem calmly_getFileSha256 (h : s.files.read path = some content) :
    Script.Calmly (getFileSha256 host path) s (.ok (host.sha256 content)) s := by
  unfold getFileSha256
  apply Script.Calmly.operation
  rw [h]

theorem calmly_check {condition : Bool} {refusal : Refusal} (h : condition = true) :
    Script.Calmly (check condition refusal) s (.ok ⟨⟩) s := by
  unfold check
  apply Script.Calmly.operation
  rw [h]
  rfl

theorem calmly_delete_inserted {fs : FileSystem γ} {rest : κ} {journal : List ρ}
    (hpath : fs.lookup path = none) :
    Script.Calmly (deleteFile path) ⟨fs.insert path (.file content), rest, journal⟩ (.ok ⟨⟩)
      ⟨fs, rest, journal⟩ := by
  have hdelete := calmly_deleteFile (s := ⟨fs.insert path (.file content), rest, journal⟩)
    (FileSystem.testLeaf_of_file (Finmap.lookup_insert fs))
  rwa [FileSystem.erase_insert hpath] at hdelete

theorem calmly_deleteIfLeaf {fs : FileSystem γ} (hpath : fs.lookup path = none)
    (h : fs.Littered path s.files) :
    Script.Calmly (deleteIfLeaf path) s (.ok ⟨⟩) { s with files := fs } := by
  obtain ⟨files, rest, journal⟩ := s
  apply Script.Calmly.look_bind
  rcases h with rfl | ⟨content, rfl⟩
  · simp only [FileSystem.absent_of_testLeaf (FileSystem.testPath_eq_false.mpr hpath),
      Bool.false_eq_true, if_false]
    exact Script.Calmly.pure _ _
  · simp only [FileSystem.testLeaf_of_file (Finmap.lookup_insert fs), if_true]
    exact calmly_delete_inserted hpath

theorem calmly_discard {fs : FileSystem γ} (hpath : fs.lookup path = none)
    (h : fs.Littered path s.files) :
    Script.Calmly (discard path) s (.ok ⟨⟩) { s with files := fs } := by
  obtain ⟨files, rest, journal⟩ := s
  apply Script.Calmly.look_bind
  rcases h with rfl | ⟨content, rfl⟩
  · simp only [FileSystem.testPath_eq_false.mpr hpath, Bool.false_eq_true, if_false]
    exact Script.Calmly.pure _ _
  · simp only [FileSystem.testPath_of_lookup (Finmap.lookup_insert fs), if_true]
    exact (calmly_delete_inserted hpath).swallow

theorem calmly_removeUnchanged {fs : FileSystem γ} {rest : κ} {journal : List ρ}
    (habsent : fs.lookup path = none) :
    Script.Calmly (removeUnchanged host path (host.sha256 content))
      ⟨fs.insert path (.file content), rest, journal⟩ (.ok ⟨⟩) ⟨fs, rest, journal⟩ := by
  have hlookup := Finmap.lookup_insert fs (a := path) (b := Entry.file content)
  apply calmly_ask
  rw [FileSystem.testLeaf_of_file hlookup, if_pos rfl]
  apply (calmly_getFileSha256 (FileSystem.read_of_file hlookup)).bind
  rw [if_pos rfl]
  exact calmly_delete_inserted habsent

theorem calmly_takeBack {fs₁ : FileSystem γ} {backup : Path}
    (hmove : s.files.move destination backup = some fs₁) :
    Script.Calmly (takeBack destination (some backup)) { s with files := fs₁ } (.ok ⟨⟩) s := by
  have hback := FileSystem.move_back hmove
  obtain ⟨entry, hentry, -, habsent, -⟩ := FileSystem.move_eq_some hback
  apply calmly_ask
  rw [FileSystem.testPath_eq_false.mpr habsent, FileSystem.testPath_of_lookup hentry]
  exact (calmly_moveFile (s := { s with files := fs₁ }) hback).swallow

end Operations

end FfbInterceptor.Installer
