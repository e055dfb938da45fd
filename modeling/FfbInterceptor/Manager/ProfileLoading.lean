import FfbInterceptor.Launcher.RoundTrip
import FfbInterceptor.Manager.Profiles
import Mathlib.Data.List.GetD

/-! What is saved of a profile is read back, and when the profiles of a registry can be loaded. -/
namespace FfbInterceptor.Manager
open FfbInterceptor.Launcher

section Strings

variable {value : WString}

/-- The strings a profile may hold. -/
def FitsRegistry (value : WString) : Prop := value.length ≤ 32767 ∧ 0 ∉ value

theorem registryString_of_fits (h : FitsRegistry value) :
    registryString value = some (.string (value ++ [0])) := by
  have hhalf : kMaximumRegistryStringBytes / 2 = 32768 := by decide
  refine if_neg ?_
  simp only [hhalf, Bool.or_eq_true, decide_eq_true_eq, not_or, List.contains_eq_mem]
  exact ⟨Nat.not_le.mpr (Nat.lt_succ_of_le h.1), h.2⟩

/-- The longest string just fits: 32767 units and the terminator take all of the 64 KiB. -/
theorem readRegistryString_of_fits (h : FitsRegistry value) :
    readRegistryString (some (.string (value ++ [0]))) = some value := by
  have hbuffer : terminated (value ++ [0]) = value ++ [0] := if_pos List.getLast?_concat
  have hsize : ¬(decide ((value ++ [(0 : UInt16)]).length * 2 < 2) ||
      decide (kMaximumRegistryStringBytes < (value ++ [(0 : UInt16)]).length * 2)) = true := by
    have hlength := h.1
    simp only [kMaximumRegistryStringBytes, Bool.or_eq_true, decide_eq_true_eq, not_or,
      List.length_append, List.length_singleton]
    omega
  have hterminator : ¬(decide ((value ++ [(0 : UInt16)]).getLast? ≠ some 0) ||
      (value ++ [(0 : UInt16)]).dropLast.contains 0) = true := by
    rw [List.getLast?_concat, List.dropLast_concat]
    simp [h.2]
  rw [readRegistryString, hbuffer, if_neg hsize, if_neg hterminator, List.dropLast_concat]

/-- What the manager can save. -/
structure Savable (profile : Profile) : Prop where
  id : validProfileId profile.id = true
  name : profile.name ≠ [] ∧ profile.name.length ≤ 200 ∧ 0 ∉ profile.name
  gamePath : FitsRegistry profile.gamePath
  gameArguments : FitsRegistry profile.gameArguments
  simhubPath : FitsRegistry profile.simhubPath

theorem isSavable_iff (profile : Profile) : isSavable profile = true ↔ Savable profile := by
  rw [isSavable, Bool.not_eq_true', Bool.eq_false_iff]
  simp only [ne_eq, Bool.or_eq_true, Bool.not_eq_true', decide_eq_true_eq, not_or,
    Bool.not_eq_false, List.isEmpty_iff, Nat.not_lt, List.contains_eq_mem]
  constructor
  · intro h
    obtain ⟨⟨⟨⟨⟨⟨⟨⟨⟨hid, hname⟩, hlong⟩, hgame⟩, harguments⟩, hsimhub⟩, hname0⟩, hgame0⟩,
      harguments0⟩, hsimhub0⟩ := h
    exact ⟨hid, ⟨hname, hlong, hname0⟩, ⟨hgame, hgame0⟩, ⟨harguments, harguments0⟩, hsimhub, hsimhub0⟩
  · intro h
    exact ⟨⟨⟨⟨⟨⟨⟨⟨⟨h.id, h.name.1⟩, h.name.2.1⟩, h.gamePath.1⟩, h.gameArguments.1⟩,
      h.simhubPath.1⟩, h.name.2.2⟩, h.gamePath.2⟩, h.gameArguments.2⟩, h.simhubPath.2⟩

theorem Savable.fits_name {profile : Profile} (h : Savable profile) : FitsRegistry profile.name :=
  ⟨h.name.2.1.trans (by decide), h.name.2.2⟩

end Strings

section Names

variable {id other third : WString}

theorem sameName_iff : sameName id other = true ↔ lowerCopy id = lowerCopy other := decide_eq_true_iff

theorem sameName_refl (id : WString) : sameName id id = true := decide_eq_true rfl

theorem validProfileId_length (h : validProfileId id = true) : id.length = 38 := by
  rw [validProfileId] at h
  split at h
  · cases h
  · next hshape =>
    simp only [Bool.or_eq_true, decide_eq_true_eq, not_or, not_not] at hshape
    exact hshape.1.1

theorem isGuidDigit_wideLower (c : UInt16) : isGuidDigit (wideLower c) = isGuidDigit c := by
  rw [wideLower]
  split
  · next hupper =>
    simp only [Bool.and_eq_true, decide_eq_true_eq, UInt16.le_iff_toNat_le] at hupper
    rw [Bool.eq_iff_iff]
    simp only [isGuidDigit, Bool.or_eq_true, Bool.and_eq_true, decide_eq_true_eq,
      UInt16.le_iff_toNat_le, UInt16.toNat_add]
    simp only [UInt16.reduceToNat] at hupper ⊢
    omega
  · rfl

theorem canonicalGuid_lowerCopy (id : WString) :
    (canonicalGuid (lowerCopy id)).isSome = (canonicalGuid id).isSome := by
  have hat : ∀ {d : UInt16} (value : Option UInt16), d < 0x41 ∨ 0x7A < d →
      (value.map wideLower = some d ↔ value = some d) := by
    intro d value hd
    cases value with
    | none => exact iff_of_false nofun nofun
    | some c =>
      rw [Option.map_some, Option.some_inj, Option.some_inj]
      exact wideLower_eq_iff hd
  have hplace : ∀ index, (lowerCopy id).getD index 0 = hyphen ↔ id.getD index 0 = hyphen := by
    intro index
    have hgetD : (lowerCopy id).getD index 0 = wideLower (id.getD index 0) :=
      @List.getD_map _ _ id 0 index wideLower
    rw [hgetD]
    exact wideLower_eq_iff (Or.inl (by decide))
  have hgroup : ∀ start count, (((lowerCopy id).drop start).take count).all isGuidDigit =
      ((id.drop start).take count).all isGuidDigit := by
    intro start count
    rw [lowerCopy, ← List.map_drop, ← List.map_take, List.all_map]
    exact congrArg (List.all _) (funext isGuidDigit_wideLower)
  have hlength : (lowerCopy id).length = id.length := List.length_map _
  have hhead : (lowerCopy id).head? = some openBrace ↔ id.head? = some openBrace := by
    rw [lowerCopy, List.head?_map]
    exact hat _ (Or.inr (by decide))
  have hlast : (lowerCopy id).getLast? = some closeBrace ↔ id.getLast? = some closeBrace := by
    rw [lowerCopy, List.getLast?_map]
    exact hat _ (Or.inr (by decide))
  simp only [canonicalGuid, hlength, hhead, hlast, hplace, hgroup, apply_ite Option.isSome,
    Option.isSome_some, Option.isSome_none]

theorem validProfileId_eq (id : WString) : validProfileId id = (canonicalGuid id).isSome := by
  rw [validProfileId]
  split
  · next hshape =>
    refine (Option.isSome_eq_false_iff.mpr ?_).symm
    rw [Option.isNone_iff_eq_none, canonicalGuid]
    refine if_neg fun h => ?_
    simp only [Bool.and_eq_true, decide_eq_true_eq] at h
    simp only [h.1.1.1.1, h.1.1.1.2, h.1.1.2, ne_eq, not_true_eq_false, decide_false, Bool.or_self,
      Bool.false_eq_true] at hshape
  · cases hguid : canonicalGuid id with
    | none => rfl
    | some canonical =>
      rw [canonicalGuid] at hguid
      split at hguid
      · obtain rfl := Option.some.inj hguid
        have hupper : lowerCopy (id.map wideUpper) = lowerCopy id := by
          rw [lowerCopy, lowerCopy, List.map_map]
          exact congrArg (id.map ·) (funext wideLower_wideUpper)
        dsimp only
        rw [lowerCopy_cString, lowerCopy_cString, hupper]
        exact decide_eq_true rfl
      · cases hguid

theorem validProfileId_of_sameName (h : sameName id other = true) :
    validProfileId id = validProfileId other := by
  rw [validProfileId_eq, validProfileId_eq, ← canonicalGuid_lowerCopy id, sameName_iff.mp h,
    canonicalGuid_lowerCopy]

theorem getElem_mem_group {start length i : Nat} (hi : i < id.length) (hstart : start ≤ i)
    (hend : i < start + length) : id.get ⟨i, hi⟩ ∈ (id.drop start).take length := by
  refine List.mem_iff_getElem?.mpr ⟨i - start, ?_⟩
  rw [List.getElem?_take_of_lt (by omega), List.getElem?_drop, Nat.add_sub_of_le hstart]
  exact List.getElem?_eq_getElem hi

theorem fits_of_validProfileId (h : validProfileId id = true) : FitsRegistry id := by
  have hlength := validProfileId_length h
  refine ⟨by omega, fun hmem => ?_⟩
  rw [validProfileId] at h
  split at h
  · cases h
  · cases hguid : canonicalGuid id with
    | none =>
      rw [hguid] at h
      cases h
    | some canonical =>
      rw [canonicalGuid] at hguid
      split at hguid
      · next hshape =>
        simp only [Bool.and_eq_true, decide_eq_true_eq, List.all_eq_true, List.zip_cons_cons,
          List.zip_nil_right, List.forall_mem_cons] at hshape
        obtain ⟨⟨⟨⟨-, hfirst⟩, hlast⟩, h9, h14, h19, h24, -⟩, g1, g10, g15, g20, g25, -⟩ := hshape
        obtain ⟨⟨i, hi⟩, hzero⟩ := List.mem_iff_get.mp hmem
        have hgroup : ∀ start length, (∀ c ∈ (id.drop start).take length, isGuidDigit c = true) →
            ¬(start ≤ i ∧ i < start + length) := by
          intro start length hall hin
          have hdigit := hall _ (getElem_mem_group hi hin.1 hin.2)
          rw [hzero] at hdigit
          revert hdigit
          decide
        have hplace : ∀ place, place < id.length → id.getD place 0 ≠ 0 → i ≠ place := by
          intro place hplace hne heq
          subst heq
          rw [List.getD_eq_getElem id 0 hplace] at hne
          exact hne hzero
        have hhyphen : ∀ place, id.getD place 0 = hyphen → place < id.length → i ≠ place := by
          intro place hat hplace'
          exact hplace place hplace' (by rw [hat]; decide)
        have hopen : i ≠ 0 := by
          refine hplace 0 (by omega) ?_
          rw [List.head?_eq_getElem?] at hfirst
          rw [List.getD_eq_getElem?_getD, hfirst]
          decide
        have hclose : i ≠ 37 := by
          refine hplace 37 (by omega) ?_
          rw [List.getLast?_eq_getElem?, hlength] at hlast
          rw [List.getD_eq_getElem?_getD, hlast]
          decide
        have e9 := hhyphen 9 h9 (by omega)
        have e14 := hhyphen 14 h14 (by omega)
        have e19 := hhyphen 19 h19 (by omega)
        have e24 := hhyphen 24 h24 (by omega)
        have n1 := hgroup 1 8 g1
        have n10 := hgroup 10 4 g10
        have n15 := hgroup 15 4 g15
        have n20 := hgroup 20 4 g20
        have n25 := hgroup 25 12 g25
        omega
      · cases hguid

end Names

section Amending

variable {id : WString} {f g : Values → Values} {keys : List ProfileKey} {key : ProfileKey}

def ProfileKey.amend (id : WString) (f : Values → Values) (key : ProfileKey) : ProfileKey :=
  if sameName key.name id then { key with values := f key.values } else key

def LauncherKey.amend (launcher : LauncherKey) (id : WString) (f : Values → Values) : LauncherKey :=
  { launcher with profiles := launcher.profiles.map (List.map (ProfileKey.amend id f)) }

@[simp] theorem amend_name : (key.amend id f).name = key.name := by
  rw [ProfileKey.amend]
  split
  · rfl
  · rfl

theorem amend_amend : (key.amend id f).amend id g = key.amend id (g ∘ f) := by
  by_cases hsame : sameName key.name id = true
  · simp [ProfileKey.amend, hsame]
  · simp [ProfileKey.amend, hsame]

theorem amend_id : key.amend id (fun values => values) = key := by
  rw [ProfileKey.amend]
  split
  · rfl
  · rfl

theorem launcher_amend_amend (launcher : LauncherKey) :
    (launcher.amend id f).amend id g = launcher.amend id (g ∘ f) := by
  cases launcher with
  | mk values profiles =>
    cases profiles with
    | none => rfl
    | some keys =>
      have hkeys : (keys.map (ProfileKey.amend id f)).map (ProfileKey.amend id g) =
          keys.map (ProfileKey.amend id (g ∘ f)) := by
        rw [List.map_map]
        exact List.map_congr_left fun key _ => amend_amend
      simp only [LauncherKey.amend, Option.map_some, hkeys]

theorem launcher_amend_id (launcher : LauncherKey) :
    launcher.amend id (fun values => values) = launcher := by
  cases launcher with
  | mk values profiles =>
    cases profiles with
    | none => rfl
    | some keys =>
      have hkeys : keys.map (ProfileKey.amend id fun values => values) = keys :=
        (List.map_congr_left fun key _ => amend_id).trans (List.map_id keys)
      simp only [LauncherKey.amend, Option.map_some, hkeys]

def applied (writes : List (RegistryOperation × ValueName × Option RegistryValue × StoreError))
    (values : Values) : Values :=
  writes.foldl (fun values write =>
    match write.2.2.1 with
    | none => values
    | some value => values.set write.2.1 value) values

def isDone (answers : Answers)
    (write : RegistryOperation × ValueName × Option RegistryValue × StoreError) : Bool :=
  write.2.2.1.isSome && answers.succeeds write.1

theorem writeLoop_eq (answers : Answers) (launcher : LauncherKey)
    (writes : List (RegistryOperation × ValueName × Option RegistryValue × StoreError)) :
    writeLoop answers id launcher writes =
      ((writes.dropWhile (isDone answers)).head?.map fun write => write.2.2.2,
        launcher.amend id (applied (writes.takeWhile (isDone answers)))) := by
  induction writes generalizing launcher with
  | nil =>
    have hlauncher : launcher.amend id (applied []) = launcher := launcher_amend_id launcher
    rw [writeLoop, List.takeWhile_nil, List.dropWhile_nil, hlauncher]
    rfl
  | cons write writes ih =>
    obtain ⟨operation, valueName, value, error⟩ := write
    have hnone : launcher.amend id (applied []) = launcher := launcher_amend_id launcher
    cases value with
    | none =>
      have hdone : isDone answers (operation, valueName, none, error) = false := rfl
      rw [writeLoop, List.takeWhile_cons, List.dropWhile_cons, hdone, if_neg Bool.false_ne_true,
        if_neg Bool.false_ne_true, hnone]
      rfl
    | some value =>
      cases hsucceeds : answers.succeeds operation with
      | false =>
        have hdone : isDone answers (operation, valueName, some value, error) = false := hsucceeds
        rw [writeLoop, List.takeWhile_cons, List.dropWhile_cons, hdone, if_neg Bool.false_ne_true,
          if_neg Bool.false_ne_true, hnone]
        simp only [hsucceeds, Bool.false_eq_true, ↓reduceIte]
        rfl
      | true =>
        have hdone : isDone answers (operation, valueName, some value, error) = true := hsucceeds
        have hset : launcher.setValue id valueName value =
            launcher.amend id (fun values => values.set valueName value) := rfl
        rw [writeLoop, List.takeWhile_cons, List.dropWhile_cons, hdone, if_pos rfl, if_pos rfl]
        simp only [hsucceeds, ↓reduceIte]
        rw [ih, hset, launcher_amend_amend]
        rfl

end Amending

section Loading

variable {id activeId : WString} {index : Nat} {profiles : List Profile} {keys : List ProfileKey}

def profileOf? (key : ProfileKey) : Option Profile :=
  if validProfileId key.name then (readProfile key).toOption else none

def shownActive (activeId : WString) : WString :=
  if !activeId.isEmpty && !validProfileId activeId then [] else activeId

theorem readProfile_id {key : ProfileKey} {profile : Profile} (h : readProfile key = .ok profile) :
    profile.id = key.name := by
  rw [readProfile] at h
  split at h
  · split at h
    · cases h
    · cases h
      rfl
  · cases h

theorem profileOf?_eq_some {key : ProfileKey} {profile : Profile} :
    profileOf? key = some profile ↔
      validProfileId key.name = true ∧ readProfile key = .ok profile := by
  rw [profileOf?]
  split
  · next hvalid =>
    cases readProfile key with
    | error error => simp [Except.toOption]
    | ok read => simp [Except.toOption, hvalid]
  · next hvalid => simp [hvalid]

theorem loadLoop_of_none (h : (loadLoop activeId index profiles keys).error = none) :
    loadLoop activeId index profiles keys =
      ⟨profiles ++ keys.filterMap profileOf?, shownActive activeId, none⟩ := by
  induction keys generalizing index profiles with
  | nil =>
    rw [List.filterMap_nil, List.append_nil]
    rfl
  | cons key keys ih =>
    rw [loadLoop] at h ⊢
    split at h
    · cases h
    · next hlength =>
      rw [if_neg hlength]
      split at h
      · cases h
      · next hindex =>
        rw [if_neg hindex]
        cases hvalid : validProfileId key.name with
        | false =>
          have hnone : profileOf? key = none := by
            rw [profileOf?, hvalid, if_neg Bool.false_ne_true]
          rw [hvalid, Bool.not_false, if_pos rfl] at h
          rw [Bool.not_false, if_pos rfl, ih h, List.filterMap_cons, hnone]
        | true =>
          rw [hvalid, Bool.not_true, if_neg Bool.false_ne_true] at h
          rw [Bool.not_true, if_neg Bool.false_ne_true]
          split at h
          · cases h
          · next hcount =>
            rw [if_neg hcount]
            cases hread : readProfile key with
            | error error =>
              rw [hread] at h
              cases h
            | ok profile =>
              rw [hread] at h
              dsimp only at h ⊢
              have hsome : profileOf? key = some profile := profileOf?_eq_some.mpr ⟨hvalid, hread⟩
              rw [ih h, List.filterMap_cons, hsome, List.append_assoc, List.singleton_append]

/-- When there is nothing the loop stops at. -/
structure Loadable (index count : Nat) (keys : List ProfileKey) : Prop where
  names : ∀ key ∈ keys, key.name.length < 64
  readable : ∀ key ∈ keys, validProfileId key.name = true → ∃ profile, readProfile key = .ok profile
  subkeys : index + keys.length ≤ kMaximumProfileSubkeys
  profiles : count + (keys.filter fun key => validProfileId key.name).length ≤ kMaximumProfiles

theorem loadLoop_error_iff (hindex : index ≤ kMaximumProfileSubkeys)
    (hcount : profiles.length ≤ kMaximumProfiles) :
    (loadLoop activeId index profiles keys).error = none ↔ Loadable index profiles.length keys := by
  induction keys generalizing index profiles with
  | nil => exact iff_of_true rfl ⟨nofun, nofun, hindex, hcount⟩
  | cons key keys ih =>
    have hcons : Loadable index profiles.length (key :: keys) ↔ key.name.length < 64 ∧
        index < kMaximumProfileSubkeys ∧ (validProfileId key.name = false ∧
            Loadable (index + 1) profiles.length keys ∨
          validProfileId key.name = true ∧ profiles.length < kMaximumProfiles ∧
            (∃ profile, readProfile key = .ok profile) ∧
            Loadable (index + 1) (profiles.length + 1) keys) := by
      constructor
      · intro h
        obtain ⟨hname, hnames⟩ := List.forall_mem_cons.mp h.names
        obtain ⟨hread, hreads⟩ := List.forall_mem_cons.mp h.readable
        have hsubkeys := h.subkeys
        have hprofiles := h.profiles
        rw [List.length_cons] at hsubkeys
        refine ⟨hname, by omega, ?_⟩
        cases hvalid : validProfileId key.name with
        | false =>
          rw [List.filter_cons_of_neg (by simp [hvalid])] at hprofiles
          exact Or.inl ⟨rfl, hnames, hreads, by omega, hprofiles⟩
        | true =>
          rw [List.filter_cons_of_pos (by simp [hvalid]), List.length_cons] at hprofiles
          exact Or.inr ⟨rfl, by omega, hread hvalid, hnames, hreads, by omega, by omega⟩
      · intro h
        obtain ⟨hname, hless, ⟨hvalid, hrest⟩ | ⟨hvalid, -, hread, hrest⟩⟩ := h
        · have hsubkeys := hrest.subkeys
          refine ⟨List.forall_mem_cons.mpr ⟨hname, hrest.names⟩,
            List.forall_mem_cons.mpr ⟨fun h => ?_, hrest.readable⟩, ?_, ?_⟩
          · rw [hvalid] at h
            cases h
          · rw [List.length_cons]
            omega
          · rw [List.filter_cons_of_neg (by simp [hvalid])]
            exact hrest.profiles
        · have hsubkeys := hrest.subkeys
          have hprofiles := hrest.profiles
          refine ⟨List.forall_mem_cons.mpr ⟨hname, hrest.names⟩,
            List.forall_mem_cons.mpr ⟨fun _ => hread, hrest.readable⟩, ?_, ?_⟩
          · rw [List.length_cons]
            omega
          · rw [List.filter_cons_of_pos (by simp [hvalid]), List.length_cons]
            omega
    rw [hcons, loadLoop]
    by_cases hname : 64 ≤ key.name.length
    · rw [if_pos hname]
      exact iff_of_false nofun fun h => Nat.not_lt.mpr hname h.1
    rw [if_neg hname]
    by_cases hsubkeys : kMaximumProfileSubkeys ≤ index
    · rw [if_pos hsubkeys]
      exact iff_of_false nofun fun h => Nat.not_lt.mpr hsubkeys h.2.1
    rw [if_neg hsubkeys]
    have hname' := Nat.not_le.mp hname
    have hsubkeys' := Nat.not_le.mp hsubkeys
    cases hvalid : validProfileId key.name with
    | false =>
      rw [Bool.not_false, if_pos rfl, ih hsubkeys' hcount]
      simp [hname', hsubkeys']
    | true =>
      rw [Bool.not_true, if_neg Bool.false_ne_true]
      by_cases hfull : kMaximumProfiles ≤ profiles.length
      · rw [if_pos hfull]
        refine iff_of_false nofun fun h => ?_
        obtain ⟨-, -, ⟨hfalse, -⟩ | ⟨-, hroom, -⟩⟩ := h
        · cases hfalse
        · exact Nat.not_lt.mpr hfull hroom
      · rw [if_neg hfull]
        have hroom := Nat.not_le.mp hfull
        cases hread : readProfile key with
        | error error => simp
        | ok profile =>
          have hlength : (profiles ++ [profile]).length = profiles.length + 1 := by simp
          dsimp only
          rw [ih hsubkeys' (by rw [hlength]; exact hroom), hlength]
          simp [hname', hsubkeys', hroom]

end Loading

section Others

variable {id : WString} {f : Values → Values} {keys : List ProfileKey}

def othersOf (id : WString) (profiles : List Profile) : List Profile :=
  profiles.filter fun profile => !sameName profile.id id

def otherKeys (id : WString) (keys : List ProfileKey) : List ProfileKey :=
  keys.filter fun key => !sameName key.name id

theorem othersOf_filterMap : othersOf id (keys.filterMap profileOf?) =
    (otherKeys id keys).filterMap profileOf? := by
  induction keys with
  | nil => rfl
  | cons key keys ih =>
    rw [othersOf, otherKeys] at ih ⊢
    cases hkey : profileOf? key with
    | none =>
      cases hsame : sameName key.name id with
      | false => simpa [hkey, hsame] using ih
      | true => simpa [hkey, hsame] using ih
    | some profile =>
      have hname := readProfile_id (profileOf?_eq_some.mp hkey).2
      cases hsame : sameName key.name id with
      | false => simpa [hkey, hsame, hname] using ih
      | true => simpa [hkey, hsame, hname] using ih

theorem otherKeys_amend : otherKeys id (keys.map (ProfileKey.amend id f)) = otherKeys id keys := by
  induction keys with
  | nil => rfl
  | cons key keys ih =>
    rw [otherKeys, otherKeys] at ih ⊢
    cases hsame : sameName key.name id with
    | false =>
      have hkey : key.amend id f = key := by
        rw [ProfileKey.amend, hsame, if_neg Bool.false_ne_true]
      simpa [hkey, hsame] using ih
    | true => simpa [hsame] using ih

variable (answers : Answers)

def openedKeys (keys : List ProfileKey) (id : WString) : List ProfileKey :=
  if keys.any (fun key => sameName key.name id) then keys
  else
    let index := answers.place (keys.map ProfileKey.name) id
    keys.take index ++ ⟨id, noValues⟩ :: keys.drop index

theorem createProfileKey_eq (registry : Registry) : createProfileKey answers registry id =
    ⟨(createRoot registry).values,
      some (openedKeys answers ((createRoot registry).profiles.getD []) id)⟩ := by
  rw [createProfileKey, openedKeys]
  dsimp only
  split
  · rfl
  · rfl

theorem otherKeys_opened : otherKeys id (openedKeys answers keys id) = otherKeys id keys := by
  rw [openedKeys]
  split
  · rfl
  · rw [otherKeys, List.filter_append, List.filter_cons_of_neg (by simp [sameName_refl]),
      ← List.filter_append, List.take_append_drop]
    rfl

theorem mem_openedKeys {key : ProfileKey} (h : key ∈ openedKeys answers keys id) :
    key ∈ keys ∨ key = ⟨id, noValues⟩ ∧ ∀ other ∈ keys, sameName other.name id = false := by
  rw [openedKeys] at h
  split at h
  · exact Or.inl h
  · next hnone =>
    rw [Bool.not_eq_true, List.any_eq_false] at hnone
    cases List.mem_append.mp h with
    | inl hfront => exact Or.inl (List.mem_of_mem_take hfront)
    | inr hrest =>
      cases List.mem_cons.mp hrest with
      | inl hnew => exact Or.inr ⟨hnew, fun other hother => Bool.eq_false_iff.mpr (hnone other hother)⟩
      | inr hback => exact Or.inl (List.mem_of_mem_drop hback)

end Others

end FfbInterceptor.Manager
