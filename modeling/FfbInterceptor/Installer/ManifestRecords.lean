import FfbInterceptor.Installer.ManifestReading

/-! Which of the manager's manifests the installer reads, and as which records. -/
namespace FfbInterceptor.Installer
open FfbInterceptor.Launcher FfbInterceptor.Library FfbInterceptor.Manager

section Rows
variable {path : PathText} {digest segment : List UInt8}

theorem isHexUnit_toUInt16 (c : UInt8) : isHexUnit c.toUInt16 = isHexCharacter c := by
  simp only [isHexUnit, isHexCharacter, UInt16.le_iff_toNat_le, UInt8.le_iff_toNat_le,
    UInt8.toNat_toUInt16, UInt16.reduceToNat, UInt8.reduceToNat]
  rw [Bool.eq_iff_iff]
  simp only [Bool.or_eq_true, Bool.and_eq_true, decide_eq_true_eq]
  tauto

theorem matchLine_entry (h : (Row.entry digest path).Valid) :
    matchLine (asciiToWide (Row.entry digest path).text) =
      some (asciiToWide digest, asciiToWide path.bytes) := by
  obtain ⟨hlength, hdigest, hsafe⟩ := h
  have hwide : (asciiToWide digest).length = 64 := by rw [asciiToWide, List.length_map, hlength]
  have hpath : 0 < (asciiToWide path.bytes).length := by
    rw [asciiToWide, List.length_map, PathText.bytes, List.length_append]
    exact Nat.add_pos_left (List.length_pos_iff.mpr hsafe.first.nonempty) _
  have htext : asciiToWide (Row.entry digest path).text =
      asciiToWide digest ++ ([wideBlank, wideBlank] ++ asciiToWide path.bytes) := by
    rw [Row.text, asciiToWide_append, asciiToWide_append]
    rfl
  have htake : (asciiToWide (Row.entry digest path).text).take 64 = asciiToWide digest := by
    rw [htext, ← hwide, List.take_left]
  have hdrop : (asciiToWide (Row.entry digest path).text).drop 64 =
      [wideBlank, wideBlank] ++ asciiToWide path.bytes := by
    rw [htext, ← hwide, List.drop_left]
  have hrest : (asciiToWide (Row.entry digest path).text).drop 66 = asciiToWide path.bytes := by
    rw [htext, ← List.append_assoc]
    exact List.drop_left' (by rw [List.length_append, hwide]; rfl)
  have hall : (asciiToWide digest).all isHexUnit = true := by
    rw [asciiToWide, List.all_map, List.all_eq_true]
    intro c hc
    rw [Function.comp_apply, isHexUnit_toUInt16]
    exact hdigest c hc
  have hlong : 67 ≤ (asciiToWide (Row.entry digest path).text).length := by
    rw [htext, List.length_append, List.length_append, hwide]
    simp only [List.length_cons, List.length_nil]
    omega
  rw [matchLine, htake, hdrop, hrest, hall, decide_eq_true hlong]
  rfl

theorem toUInt16_injective {c d : UInt8} (h : c.toUInt16 = d.toUInt16) : c = d := by
  rw [← UInt8.toNat_inj, ← UInt8.toNat_toUInt16 c, h, UInt8.toNat_toUInt16]

theorem asciiToWide_inj {left right : List UInt8} :
    asciiToWide left = asciiToWide right ↔ left = right :=
  List.map_injective_iff.mpr (fun _ _ h => toUInt16_injective h) |>.eq_iff

theorem replaceSlashes_append (left right : WString) :
    replaceSlashes (left ++ right) = replaceSlashes left ++ replaceSlashes right := List.map_append

theorem replaceSlashes_segment (h : SafeSegment segment) :
    replaceSlashes (asciiToWide segment) = asciiToWide segment := by
  rw [replaceSlashes, asciiToWide, List.map_map]
  apply List.map_congr_left
  intro c hc
  have hslash : c.toUInt16 ≠ wideSlash := by
    intro heq
    have hself : c = slash := toUInt16_injective heq
    exact (h.allowed c hc).1 (.inl hself)
  exact if_neg hslash

theorem replaceSlashes_bytes (h : path.Safe) :
    replaceSlashes (asciiToWide path.bytes) = path.normalized := by
  obtain ⟨first, more⟩ := path
  have hmore := h.more
  rw [PathText.bytes, PathText.normalized, asciiToWide_append, replaceSlashes_append,
    replaceSlashes_segment h.first]
  congr 1
  simp only at hmore ⊢
  clear h
  induction more with
  | nil => rfl
  | cons next more ih =>
    obtain ⟨⟨hseparator, hsegment⟩, hrest⟩ := List.forall_mem_cons.mp hmore
    have hhead : replaceSlashes [next.1.toUInt16] = [backslash] := by
      cases hseparator with
      | inl hslash => rw [hslash]; rfl
      | inr hbackslash => rw [hbackslash]; rfl
    have hsplit : asciiToWide ((next :: more).flatMap fun next => next.1 :: next.2) =
        [next.1.toUInt16] ++ (asciiToWide next.2 ++
          asciiToWide (more.flatMap fun next => next.1 :: next.2)) := by
      rw [List.flatMap_cons, asciiToWide_append]
      rfl
    rw [hsplit, replaceSlashes_append, replaceSlashes_append, hhead, replaceSlashes_segment hsegment,
      ih hrest, List.flatMap_cons]
    rfl

theorem backslash_notMem (h : SafeSegment segment) : backslash ∉ asciiToWide segment := by
  intro hmem
  obtain ⟨c, hc, heq⟩ := List.mem_map.mp hmem
  have hself : c = backslashByte := toUInt16_injective heq
  exact (h.allowed c hc).1 (.inr hself)

theorem splitOn_normalized (h : path.Safe) : path.normalized.splitOn backslash =
    asciiToWide path.first :: path.more.map fun next => asciiToWide next.2 := by
  obtain ⟨first, more⟩ := path
  have hfirst := h.first
  have hmore := h.more
  simp only [PathText.normalized] at hfirst hmore ⊢
  clear h
  induction more generalizing first with
  | nil =>
    rw [List.flatMap_nil, List.append_nil, List.splitOn_eq_singleton (backslash_notMem hfirst)]
    rfl
  | cons next more ih =>
    obtain ⟨⟨-, hsegment⟩, hrest⟩ := List.forall_mem_cons.mp hmore
    rw [List.flatMap_cons, List.cons_append,
      List.splitOn_append_cons_self_of_not_mem (backslash_notMem hfirst), ih next.2 hsegment hrest]
    rfl

theorem isNonCanonical_segment (h : SafeSegment segment) :
    isNonCanonical (asciiToWide segment) = false := by
  obtain ⟨last, hlast⟩ := Option.isSome_iff_exists.mp (List.getLast?_isSome.mpr h.nonempty)
  have hwide : (asciiToWide segment).getLast? = some last.toUInt16 := by
    rw [asciiToWide, List.getLast?_map, hlast, Option.map_some]
  have hmem := List.mem_of_getLast? hlast
  have hprintable := h.printable last hmem
  have hblank : last ≠ spaceByte := by
    intro heq
    exact h.ending.2 (heq ▸ hlast)
  have hdot : last ≠ dot := by
    intro heq
    exact h.ending.1 (heq ▸ hlast)
  have hgraphic : Engine.isWhiteSpaceUnit last.toUInt16 = false := by
    have hall : ∀ n : Fin 127, 0x20 < n.val → Engine.isWhiteSpaceUnit n.val.toUInt16 = false := by
      decide +kernel
    have hlow : last.toNat ≠ 0x20 := fun heq => hblank (UInt8.toNat_inj.mp heq)
    have hrange := UInt8.le_iff_toNat_le.mp hprintable.1
    have hbound := Nat.lt_succ_of_le (UInt8.le_iff_toNat_le.mp hprintable.2)
    simp only [UInt8.reduceToNat] at hrange
    have hunit : last.toNat.toUInt16 = last.toUInt16 := by
      rw [← UInt16.toNat_inj, UInt8.toNat_toUInt16, Nat.toUInt16, UInt16.toNat_ofNat',
        Nat.mod_eq_of_lt (last.toNat_lt.trans (by decide))]
    rw [← hunit]
    exact hall ⟨last.toNat, hbound⟩ (show 0x20 < last.toNat by omega)
  have hvisible : (asciiToWide segment).all Engine.isWhiteSpaceUnit = false := by
    rw [List.all_eq_false]
    exact ⟨last.toUInt16, List.mem_of_getLast? hwide, by rw [hgraphic]; exact Bool.false_ne_true⟩
  have hone : asciiToWide segment ≠ [wideDot] := fun heq =>
    h.not_dots.1 (asciiToWide_inj.mp (heq : asciiToWide segment = asciiToWide [dot]))
  have htwo : asciiToWide segment ≠ [wideDot, wideDot] := fun heq =>
    h.not_dots.2 (asciiToWide_inj.mp (heq : asciiToWide segment = asciiToWide [dot, dot]))
  have hends : last.toUInt16 ≠ wideDot ∧ last.toUInt16 ≠ wideBlank :=
    ⟨fun heq => hdot (toUInt16_injective heq), fun heq => hblank (toUInt16_injective heq)⟩
  rw [isNonCanonical, hvisible, hwide]
  simp only [hone, htwo, Option.some.injEq, hends.1, hends.2, decide_false, Bool.or_self]

theorem colon_notMem (h : path.Safe) : wideColon ∉ path.normalized := by
  have hsegment : ∀ segment, SafeSegment segment → wideColon ∉ asciiToWide segment := by
    intro segment hsafe hmem
    obtain ⟨c, hc, heq⟩ := List.mem_map.mp hmem
    have hself : c = colon := toUInt16_injective heq
    exact (hsafe.allowed c hc).2 (hself ▸ by decide)
  intro hmem
  rw [PathText.normalized, List.mem_append, List.mem_flatMap] at hmem
  rcases hmem with hmem | ⟨next, hnext, hmem⟩
  · exact hsegment _ h.first hmem
  · rcases List.mem_cons.mp hmem with heq | hmem
    · exact absurd heq (by decide)
    · exact hsegment _ (h.more next hnext).2 hmem

theorem isPathRooted_normalized (h : path.Safe) : isPathRooted path.normalized = false := by
  obtain ⟨c, first, hfirst⟩ := List.exists_cons_of_ne_nil h.first.nonempty
  have hhead : isWideSeparator c.toUInt16 = false := by
    have hallowed := (h.first.allowed c (hfirst ▸ List.mem_cons_self)).1
    rw [isWideSeparator, Bool.or_eq_false_iff, decide_eq_false_iff_not, decide_eq_false_iff_not]
    exact ⟨fun heq => hallowed (.inr (toUInt16_injective heq)),
      fun heq => hallowed (.inl (toUInt16_injective heq))⟩
  have hsplit : path.normalized = c.toUInt16 :: path.normalized.tail := by
    rw [PathText.normalized, hfirst]
    rfl
  have hsecond : path.normalized.tail.head? ≠ some wideColon := by
    intro heq
    apply colon_notMem h
    rw [hsplit]
    exact List.mem_cons_of_mem _ (List.mem_of_head? heq)
  rw [isPathRooted, hsplit, List.head?_cons, Option.any_some, hhead, Bool.false_or, List.tail_cons]
  exact decide_eq_false hsecond

end Rows

section Records

def wideTilde : UInt16 := 0x7E

/-- The path names an item of the package by its own name, not by an alias; where a short name could
stand, in the very spelling of the item. -/
def Spelled (package : Manager.Package) (path : WString) : Prop :=
  ∃ found, package.resolve path = some found ∧ lowerCopy found.relativePath = lowerCopy path ∧
    (wideTilde ∈ path → found.relativePath = path)

/-- The folder of a package is its own full path, and so is what safe segments name below it, unless it
is an alias, which .NET replaces, or too long for .NET. -/
structure Resolves (runtime : Runtime) (package : Manager.Package) (longest : Nat) : Prop where
  nonempty : package.root ≠ []
  ending : ∀ c, package.root.getLast? = some c → isWideSeparator c = false
  full : runtime.getFullPath package.root = some package.root
  below : ∀ path : PathText, path.Safe → Spelled package path.normalized →
    runtime.getFullPath (joinPath package.root path.normalized) =
      if (joinPath package.root path.normalized).length ≤ longest then
        some (joinPath package.root path.normalized)
      else none

def packageRecord (root : WString) (entry : ManifestEntry) : PackageRecord :=
  ⟨entry.key, entry.relativePath, joinPath root entry.relativePath, entry.sha256⟩

variable {runtime : Runtime} {package : Manager.Package} {longest : Nat} {within : WString → Bool}
  {entries done : List ManifestEntry} {expected : List PackageRecord} {rows : List Row}

theorem Spelled.unaliased (h : ∀ entry ∈ entries, Spelled package entry.relativePath) :
    package.Unaliased entries := by
  intro entry hentry found hresolve
  obtain ⟨other, hother, hname, -⟩ := h entry hentry
  rw [hresolve, Option.some.injEq] at hother
  rw [hother, hname]

theorem joinPath_of_ending {left right : WString} (hleft : left ≠ [])
    (hending : ∀ c, left.getLast? = some c → isWideSeparator c = false) (hright : right ≠ []) :
    joinPath left right = left ++ [backslash] ++ right := by
  have hbackslash : left.getLast? ≠ some backslash := fun heq =>
    absurd (hending backslash heq) (by decide)
  have hslash : left.getLast? ≠ some wideSlash := fun heq =>
    absurd (hending wideSlash heq) (by decide)
  simp only [joinPath, List.isEmpty_eq_false_iff.mpr hleft, List.isEmpty_eq_false_iff.mpr hright,
    hbackslash, hslash, decide_false, Bool.or_self, Bool.false_eq_true, ↓reduceIte]

theorem Resolves.joinPath_eq (h : Resolves runtime package longest) {path : WString}
    (hpath : path ≠ []) : joinPath package.root path = package.root ++ [backslash] ++ path :=
  joinPath_of_ending h.nonempty h.ending hpath

theorem Resolves.trimEnd_eq (h : Resolves runtime package longest) :
    trimEnd package.root = package.root := by
  rw [trimEnd, List.rdropWhile_eq_self_iff]
  intro hne
  rw [Bool.not_eq_true]
  exact h.ending _ (List.getLast?_eq_some_getLast hne)

/-- Neither check takes a path below the package for one outside. -/
theorem within_joinPath (h : Resolves runtime package longest) {path : WString} (hpath : path ≠ []) :
    testChildPath runtime package.root (joinPath package.root path) = true ∧
      testPathWithinOrEqual runtime package.root (joinPath package.root path) = true := by
  have hstart : runtime.startsWith (joinPath package.root path) (trimEnd package.root ++ [backslash]) =
      true := by
    rw [h.trimEnd_eq, h.joinPath_eq hpath]
    exact startsWith_append runtime _ _
  refine ⟨hstart, ?_⟩
  rw [testPathWithinOrEqual, hstart]
  exact ite_self true

def AsciiPaths (entries : List ManifestEntry) : Prop :=
  ∀ entry ∈ entries, ∀ c ∈ entry.relativePath, c ≤ 0x7E

theorem containsKey_iff (h : AsciiPaths entries) {value : WString} :
    runtime.containsKey (entries.map (packageRecord package.root)) (lowerCopy value) = true ↔
      ∃ entry ∈ entries, entry.key = lowerCopy value := by
  rw [Runtime.containsKey, List.any_map, List.any_eq_true]
  apply exists_congr
  intro entry
  apply and_congr_right
  intro hentry
  have hkey := @equals_iff runtime _ (lowerCopy value) (ascii_lowerCopy (h entry hentry))
  rw [lowerCopy_lowerCopy, lowerCopy_lowerCopy] at hkey
  exact hkey

/-- What the line of an entry with a new key does. -/
theorem addLine_entry (hresolves : Resolves runtime package longest)
    (hwithin : ∀ path, path ≠ [] → within (joinPath package.root path) = true) {digest : List UInt8}
    {path : PathText} (hvalid : (Row.entry digest path).Valid)
    (hspelled : Spelled package path.normalized) (hascii : AsciiPaths done)
    (hnew : lowerCopy path.normalized ∉ done.map ManifestEntry.key) :
    addLine runtime package.root within (done.map (packageRecord package.root))
        (asciiToWide (Row.entry digest path).text) =
      if 128 ≤ done.length then .error (.duplicateOrExcessive path.normalized)
      else if (joinPath package.root path.normalized).length ≤ longest then
        .ok ((done ++ [(⟨path.normalized, (asciiToWide digest).map wideUpper⟩ : ManifestEntry)]).map
          (packageRecord package.root))
      else .error .noFullPath := by
  have hmatch := matchLine_entry hvalid
  obtain ⟨-, hdigest, hsafe⟩ := hvalid
  have hempty : path.normalized ≠ [] := by
    rw [PathText.normalized]
    apply List.append_ne_nil_of_left_ne_nil
    exact fun hnil => hsafe.first.nonempty (List.map_eq_nil_iff.mp hnil)
  have hcolon : path.normalized.contains wideColon = false := by
    rw [List.contains_eq_mem]
    exact decide_eq_false (colon_notMem hsafe)
  have hsegments : (path.normalized.splitOn backslash).any isNonCanonical = false := by
    rw [splitOn_normalized hsafe, List.any_cons, isNonCanonical_segment hsafe.first, Bool.false_or,
      List.any_map, List.any_eq_false]
    intro next hnext
    rw [Function.comp_apply, isNonCanonical_segment (hsafe.more next hnext).2]
    exact Bool.false_ne_true
  have hnone : (path.normalized.splitOn backslash).isEmpty = false :=
    List.isEmpty_eq_false_iff.mpr (List.splitOn_ne_nil _ _)
  have hkey : runtime.containsKey (done.map (packageRecord package.root)) (lowerCopy path.normalized) =
      false := by
    rw [Bool.eq_false_iff, ne_eq, containsKey_iff hascii]
    intro hsome
    obtain ⟨entry, hentry, heq⟩ := hsome
    exact hnew (heq ▸ List.mem_map_of_mem hentry)
  have hhash : runtime.toUpperInvariant (asciiToWide digest) = (asciiToWide digest).map wideUpper := by
    apply toUpperInvariant_eq
    intro c hc
    obtain ⟨byte, hbyte, rfl⟩ := List.mem_map.mp hc
    rw [UInt16.le_iff_toNat_le, UInt8.toNat_toUInt16]
    exact UInt8.le_iff_toNat_le.mp (isHexCharacter_le (hdigest byte hbyte))
  rw [addLine, hmatch]
  simp only [replaceSlashes_bytes hsafe, isPathRooted_normalized hsafe, hcolon, hsegments, hnone,
    toLowerInvariant_eq runtime hsafe.ascii, hkey, hhash, List.length_map, Bool.or_self, Bool.false_or,
    Bool.false_eq_true, decide_eq_true_eq, ↓reduceIte, hresolves.below path hsafe hspelled]
  by_cases hfull : 128 ≤ done.length
  · rw [if_pos hfull, if_pos hfull]
  · rw [if_neg hfull, if_neg hfull]
    by_cases hlong : (joinPath package.root path.normalized).length ≤ longest
    · simp only [if_pos hlong, hwithin _ hempty, Bool.not_true, Bool.false_eq_true, ↓reduceIte,
        List.map_append]
      rfl
    · simp only [if_neg hlong]

/-- What the installer asks of the manifest beyond what the manager does. -/
structure Admitted (root : WString) (longest : Nat) (contents : List UInt8)
    (entries : List ManifestEntry) : Prop where
  size : contents.length ≤ 1048576
  noBlankLine : [] ∉ readLines (asciiToWide contents)
  count : entries.length ≤ 128
  paths : ∀ entry ∈ entries, (joinPath root entry.relativePath).length ≤ longest

theorem foldlM_addLine_iff (hresolves : Resolves runtime package longest)
    (hwithin : ∀ path, path ≠ [] → within (joinPath package.root path) = true)
    (hvalid : ∀ row ∈ rows, row.Valid)
    (hspelled : ∀ entry ∈ rows.filterMap Row.entry?, Spelled package entry.relativePath)
    (hascii : AsciiPaths done)
    (hdistinct : ((done ++ rows.filterMap Row.entry?).map ManifestEntry.key).Nodup)
    (hroom : done.length ≤ 128) :
    (rows.map fun row => asciiToWide row.text).foldlM (addLine runtime package.root within)
        (done.map (packageRecord package.root)) = .ok expected ↔
      [] ∉ (rows.map fun row => asciiToWide row.text) ∧
        (done ++ rows.filterMap Row.entry?).length ≤ 128 ∧
        (∀ entry ∈ rows.filterMap Row.entry?,
          (joinPath package.root entry.relativePath).length ≤ longest) ∧
        expected = (done ++ rows.filterMap Row.entry?).map (packageRecord package.root) := by
  induction rows generalizing done with
  | nil =>
    simp only [List.map_nil, List.foldlM_nil, List.filterMap_nil, List.append_nil, List.not_mem_nil,
      not_false_eq_true, IsEmpty.forall_iff, implies_true, hroom, true_and]
    constructor
    · intro h
      exact (Except.ok.inj h).symm
    · intro h
      rw [h]
      rfl
  | cons row rows ih =>
    obtain ⟨hrow, hrows⟩ := List.forall_mem_cons.mp hvalid
    cases row with
    | blank =>
      have hblank : asciiToWide Row.blank.text = [] := rfl
      rw [List.map_cons, hblank]
      constructor
      · intro h
        cases h
      · intro h
        exact absurd List.mem_cons_self h.1
    | entry digest path =>
      rw [filterMap_entry, List.forall_mem_cons] at hspelled
      obtain ⟨hfirst, hlater⟩ := hspelled
      have hentries : done ++ (Row.entry digest path :: rows).filterMap Row.entry? =
          done ++ [⟨path.normalized, (asciiToWide digest).map wideUpper⟩] ++
            rows.filterMap Row.entry? := by
        rw [filterMap_entry, List.append_assoc, List.singleton_append]
      rw [hentries] at hdistinct ⊢
      have hnew : lowerCopy path.normalized ∉ done.map ManifestEntry.key := by
        have hfront := hdistinct
        rw [List.map_append] at hfront
        have hparts := hfront.of_append_left
        rw [List.map_append, List.nodup_append] at hparts
        intro hmem
        exact hparts.2.2 _ hmem _ (List.mem_singleton_self _) rfl
      have hline : asciiToWide (Row.entry digest path).text ≠ [] := by
        intro hnil
        have htext := List.map_eq_nil_iff.mp hnil
        rw [Row.text] at htext
        have hdigest := (List.append_eq_nil_iff.mp htext).1
        have hlength := hrow.1
        rw [hdigest] at hlength
        cases hlength
      have hmore : AsciiPaths (done ++ [⟨path.normalized, (asciiToWide digest).map wideUpper⟩]) := by
        intro entry hentry
        cases List.mem_append.mp hentry with
        | inl hold => exact hascii entry hold
        | inr hlast =>
          rw [List.mem_singleton.mp hlast]
          exact hrow.2.2.ascii
      rw [filterMap_entry, List.forall_mem_cons, List.map_cons, List.foldlM_cons,
        addLine_entry hresolves hwithin hrow hfirst hascii hnew, List.mem_cons, not_or]
      by_cases hfull : 128 ≤ done.length
      · rw [if_pos hfull]
        constructor
        · intro h
          cases h
        · intro h
          have hcount := h.2.1
          rw [List.length_append, List.length_append, List.length_singleton] at hcount
          omega
      · rw [if_neg hfull]
        by_cases hlong : (joinPath package.root path.normalized).length ≤ longest
        · rw [if_pos hlong]
          refine (ih hrows hlater hmore hdistinct ?_).trans ?_
          · rw [List.length_append, List.length_singleton]
            omega
          · simp only [hlong, hline.symm, not_false_eq_true, true_and]
        · rw [if_neg hlong]
          constructor
          · intro h
            cases h
          · intro h
            exact absurd h.2.2.1.1 hlong

end Records

end FfbInterceptor.Installer
