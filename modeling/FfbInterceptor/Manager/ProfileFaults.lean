import FfbInterceptor.Manager.ProfileMap

/-! A save that fails part of the way mixes two versions of its profile, and touches no other. -/
namespace FfbInterceptor.Manager
open FfbInterceptor.Launcher

section Mixing

variable {profile : Profile} {answers : Answers} {values : Values} {valueName : ValueName}
  {done rest : List (RegistryOperation × ValueName × Option RegistryValue × StoreError)}

/-- The values a save has written before the first write that fails. -/
def writtenNames (answers : Answers) (profile : Profile) : List ValueName :=
  ((saveWrites profile).takeWhile (isDone answers)).map fun write => write.2.1

def partlySaved (answers : Answers) (profile : Profile) (values : Values) : Values :=
  applied ((saveWrites profile).takeWhile (isDone answers)) values

theorem applied_append : applied (done ++ rest) values = applied rest (applied done values) :=
  List.foldl_append

theorem applied_of_not_mem (h : valueName ∉ done.map fun write => write.2.1) :
    applied done values valueName = values valueName := by
  induction done generalizing values with
  | nil => rfl
  | cons write done ih =>
    obtain ⟨hname, hothers⟩ := not_or.mp (mt List.mem_cons.mpr h)
    obtain ⟨operation, written, value, error⟩ := write
    cases value with
    | none => exact ih hothers
    | some value => exact (ih hothers).trans (if_neg hname)

/-- A value that is among those written is as a complete save leaves it, any other as it was. -/
theorem partlySaved_eq (answers : Answers) (profile : Profile) (values : Values)
    (valueName : ValueName) : partlySaved answers profile values valueName =
      if valueName ∈ writtenNames answers profile then savedValues profile values valueName
      else values valueName := by
  have hwhole := List.takeWhile_append_dropWhile (p := isDone answers) (l := saveWrites profile)
  have hdistinct : ((saveWrites profile).map fun write => write.2.1).Nodup := by
    have hnames : (saveWrites profile).map (fun write => write.2.1) =
        [.name, .gamePath, .arguments, .simHubPath, .autoStartSimHub] := rfl
    rw [hnames]
    decide
  split
  · next hmem =>
    rw [← hwhole, List.map_append, List.nodup_append] at hdistinct
    have hlater : valueName ∉ ((saveWrites profile).dropWhile (isDone answers)).map
        fun write => write.2.1 :=
      fun hin => hdistinct.2.2 valueName hmem valueName hin rfl
    rw [savedValues, ← hwhole, applied_append, applied_of_not_mem hlater]
    rfl
  · next hmem => exact applied_of_not_mem hmem

end Mixing

section Fields

variable {profile old : Profile} {answers : Answers} {key : ProfileKey}

def mixed (names : List ValueName) (new old : Profile) : Profile where
  id := old.id
  name := if .name ∈ names then new.name else old.name
  gamePath := if .gamePath ∈ names then new.gamePath else old.gamePath
  gameArguments := if .arguments ∈ names then new.gameArguments else old.gameArguments
  simhubPath := if .simHubPath ∈ names then new.simhubPath else old.simhubPath
  autoStartSimhub := if .autoStartSimHub ∈ names then new.autoStartSimhub else old.autoStartSimhub

theorem readProfile_iff : readProfile key = .ok old ↔ old.id = key.name ∧
    (∃ name, readRegistryString (key.values .name) = some name ∧
      old.name = if name.isEmpty then unnamed else name) ∧
    readRegistryString (key.values .gamePath) = some old.gamePath ∧
    readRegistryString (key.values .arguments) = some old.gameArguments ∧
    readRegistryString (key.values .simHubPath) = some old.simhubPath ∧
    readAutoStart (key.values .autoStartSimHub) = some old.autoStartSimhub := by
  rw [readProfile]
  constructor
  · intro h
    split at h
    · next hname hgame harguments hsimhub =>
      cases hauto : readAutoStart (key.values .autoStartSimHub) with
      | none =>
        rw [hauto] at h
        cases h
      | some autoStart =>
        rw [hauto] at h
        obtain rfl := Except.ok.inj h
        exact ⟨rfl, ⟨_, hname, rfl⟩, hgame, harguments, hsimhub, rfl⟩
    · cases h
  · intro h
    obtain ⟨hid, ⟨name, hname, holdName⟩, hgame, harguments, hsimhub, hauto⟩ := h
    rw [hname, hgame, harguments, hsimhub]
    dsimp only
    rw [hauto]
    dsimp only
    rw [← hid, ← holdName]

theorem readProfile_partlySaved (h : Savable profile) (hold : readProfile key = .ok old) :
    readProfile { key with values := partlySaved answers profile key.values } =
      .ok (mixed (writtenNames answers profile) profile old) := by
  obtain ⟨hid, ⟨name, hname, holdName⟩, hgame, harguments, hsimhub, hauto⟩ := readProfile_iff.mp hold
  obtain ⟨hname', hgame', harguments', hsimhub', hauto'⟩ := savedValues_eq h key.values
  refine readProfile_iff.mpr ⟨hid, ?_, ?_, ?_, ?_, ?_⟩
  · dsimp only [mixed]
    rw [partlySaved_eq]
    split
    · refine ⟨profile.name, ?_, ?_⟩
      · rw [hname']
        exact readRegistryString_of_fits h.fits_name
      · exact (if_neg fun hempty => h.name.1 (List.isEmpty_iff.mp hempty)).symm
    · exact ⟨name, hname, holdName⟩
  · dsimp only [mixed]
    rw [partlySaved_eq]
    split
    · rw [hgame']
      exact readRegistryString_of_fits h.gamePath
    · exact hgame
  · dsimp only [mixed]
    rw [partlySaved_eq]
    split
    · rw [harguments']
      exact readRegistryString_of_fits h.gameArguments
    · exact harguments
  · dsimp only [mixed]
    rw [partlySaved_eq]
    split
    · rw [hsimhub']
      exact readRegistryString_of_fits h.simhubPath
    · exact hsimhub
  · dsimp only [mixed]
    rw [partlySaved_eq]
    split
    · rw [hauto']
      exact readAutoStart_saved _
    · exact hauto

def blankProfile (id : WString) : Profile := ⟨id, unnamed, [], [], [], true⟩

theorem readProfile_blank (id : WString) : readProfile ⟨id, noValues⟩ = .ok (blankProfile id) := rfl

end Fields

section Failures

variable {profile : Profile} {answers : Answers} {registry : Registry} {makeActive : Bool}

/-- The keys after a save that has failed once the key of the profile was open. -/
def partlySavedKeys (answers : Answers) (registry : Registry) (profile : Profile) :
    List ProfileKey :=
  (openedKeys answers (keysOf registry) profile.id).map
    (ProfileKey.amend profile.id (partlySaved answers profile))

/-- A save that fails with the key open leaves the root as it was, and the key with a part of the
values. -/
theorem save_registry (h : Savable profile) (hcreate : answers.succeeds .createKey = true)
    (herror : (save answers registry profile makeActive).error ≠ none) :
    (save answers registry profile makeActive).registry =
      some ⟨(createRoot registry).values, some (partlySavedKeys answers registry profile)⟩ := by
  have hsavable := (isSavable_iff profile).mpr h
  have hwrites : (writeLoop answers profile.id (createProfileKey answers registry profile.id)
      (saveWrites profile)).2 =
      ⟨(createRoot registry).values, some (partlySavedKeys answers registry profile)⟩ := by
    rw [writeLoop_eq, createProfileKey_eq, keysOf_createRoot]
    rfl
  revert herror
  rw [save, hsavable, hcreate, Bool.not_true, if_neg Bool.false_ne_true, if_neg Bool.false_ne_true]
  cases hloop : writeLoop answers profile.id (createProfileKey answers registry profile.id)
      (saveWrites profile) with
  | mk error launcher =>
    rw [hloop] at hwrites
    obtain rfl : launcher = _ := hwrites
    cases error with
    | some error => exact fun _ => rfl
    | none =>
      cases makeActive with
      | false => exact fun herror => absurd rfl herror
      | true =>
        dsimp only
        rw [if_pos rfl, setActive]
        split
        · exact fun _ => rfl
        · split
          · exact fun _ => rfl
          · dsimp only
            split
            · exact fun _ => rfl
            · split
              · exact fun herror => absurd rfl herror
              · exact fun _ => rfl

theorem load_of_none (h : (load registry).error = none) : load registry =
    ⟨profilesOf (keysOf registry),
      if (registry.bind LauncherKey.profiles).isSome then shownActive (activeOf registry) else [],
      none⟩ := by
  cases registry with
  | none => rfl
  | some launcher =>
    obtain ⟨values, profiles⟩ := launcher
    have hactiveOf : activeOf (some ⟨values, profiles⟩) =
        (readRegistryString (values .activeProfile)).getD [] := rfl
    rw [hactiveOf]
    rw [load] at h ⊢
    dsimp only at h ⊢
    cases hread : readRegistryString (values .activeProfile) with
    | none =>
      rw [hread] at h
      cases h
    | some activeId =>
      rw [hread] at h
      cases profiles with
      | none => rfl
      | some keys => exact loadLoop_of_none h

theorem loadable_nil : Loadable 0 0 [] where
  names _ hkey := absurd hkey List.not_mem_nil
  readable _ hkey := absurd hkey List.not_mem_nil
  subkeys := Nat.zero_le _
  profiles := Nat.zero_le _

theorem readable_of_load (h : (load registry).error = none) : Loadable 0 0 (keysOf registry) := by
  cases registry with
  | none => exact loadable_nil
  | some launcher =>
    obtain ⟨values, profiles⟩ := launcher
    rw [load] at h
    dsimp only at h
    cases profiles with
    | none => exact loadable_nil
    | some keys =>
      cases hread : readRegistryString (values .activeProfile) with
      | none =>
        rw [hread] at h
        cases h
      | some activeId =>
        rw [hread] at h
        exact (@loadLoop_error_iff activeId 0 [] keys (Nat.zero_le _) (Nat.zero_le _)).mp h

theorem loadable_partlySaved (h : Savable profile) (hbefore : Loadable 0 0 (keysOf registry)) :
    Loadable 0 0 (partlySavedKeys answers registry profile) ↔
      (openedKeys answers (keysOf registry) profile.id).length ≤ kMaximumProfileSubkeys ∧
      ((openedKeys answers (keysOf registry) profile.id).filter fun key =>
        validProfileId key.name).length ≤ kMaximumProfiles := by
  have hlength : (partlySavedKeys answers registry profile).length =
      (openedKeys answers (keysOf registry) profile.id).length := List.length_map _
  have hvalid : ((partlySavedKeys answers registry profile).filter fun key =>
      validProfileId key.name).length =
      ((openedKeys answers (keysOf registry) profile.id).filter fun key =>
        validProfileId key.name).length := by
    have hsame : (fun key : ProfileKey => validProfileId key.name) ∘
        ProfileKey.amend profile.id (partlySaved answers profile) =
        fun key => validProfileId key.name := funext fun key => congrArg validProfileId amend_name
    rw [partlySavedKeys, List.filter_map, List.length_map, hsame]
  constructor
  · intro hloadable
    have hsubkeys := hloadable.subkeys
    have hprofiles := hloadable.profiles
    rw [Nat.zero_add] at hsubkeys hprofiles
    exact ⟨hlength ▸ hsubkeys, hvalid ▸ hprofiles⟩
  · intro hbounds
    refine ⟨?_, ?_, ?_, ?_⟩
    · intro key' hkey'
      obtain ⟨key, hkey, rfl⟩ := List.mem_map.mp hkey'
      rw [amend_name]
      cases mem_openedKeys answers hkey with
      | inl hold => exact hbefore.names key hold
      | inr hnew =>
        rw [hnew.1, validProfileId_length h.id]
        decide
    · intro key' hkey' hvalidName
      obtain ⟨key, hkey, rfl⟩ := List.mem_map.mp hkey'
      rw [amend_name] at hvalidName
      have hread : ∃ old, readProfile key = .ok old := by
        cases mem_openedKeys answers hkey with
        | inl hold => exact hbefore.readable key hold hvalidName
        | inr hnew => exact ⟨_, hnew.1 ▸ readProfile_blank profile.id⟩
      obtain ⟨old, hold⟩ := hread
      rw [ProfileKey.amend]
      split
      · exact ⟨_, readProfile_partlySaved h hold⟩
      · exact ⟨old, hold⟩
    · rw [Nat.zero_add, hlength]
      exact hbounds.1
    · rw [Nat.zero_add, hvalid]
      exact hbounds.2

theorem profilesOf_amend (h : Savable profile) {keys : List ProfileKey}
    (hreadable : ∀ key ∈ keys, validProfileId key.name = true → ∃ old, readProfile key = .ok old) :
    profilesOf (keys.map (ProfileKey.amend profile.id (partlySaved answers profile))) =
      (profilesOf keys).map fun old =>
        if sameName old.id profile.id then mixed (writtenNames answers profile) profile old else old := by
  induction keys with
  | nil => rfl
  | cons key keys ih =>
    obtain ⟨hread, hreads⟩ := List.forall_mem_cons.mp hreadable
    have hkeys := ih hreads
    rw [profilesOf, profilesOf] at hkeys ⊢
    rw [List.map_cons, List.filterMap_cons, List.filterMap_cons, hkeys]
    cases hvalid : validProfileId key.name with
    | false => simp only [profileOf?, amend_name, hvalid, Bool.false_eq_true, ↓reduceIte]
    | true =>
      obtain ⟨old, hold⟩ := hread hvalid
      have hname := readProfile_id hold
      cases hsame : sameName key.name profile.id with
      | false =>
        have hkey : key.amend profile.id (partlySaved answers profile) = key := by
          rw [ProfileKey.amend, hsame, if_neg Bool.false_ne_true]
        simp only [hkey, profileOf?_eq_some.mpr ⟨hvalid, hold⟩, List.map_cons, hname, hsame,
          Bool.false_eq_true, ↓reduceIte]
      | true =>
        have hkey : key.amend profile.id (partlySaved answers profile) =
            { key with values := partlySaved answers profile key.values } := by
          rw [ProfileKey.amend, hsame, if_pos rfl]
        have hmixed : profileOf? (key.amend profile.id (partlySaved answers profile)) =
            some (mixed (writtenNames answers profile) profile old) := by
          rw [hkey]
          exact profileOf?_eq_some.mpr ⟨hvalid, readProfile_partlySaved h hold⟩
        simp only [hmixed, profileOf?_eq_some.mpr ⟨hvalid, hold⟩, List.map_cons, hname, hsame,
          ↓reduceIte]

theorem length_profilesOf {keys : List ProfileKey}
    (hreadable : ∀ key ∈ keys, validProfileId key.name = true → ∃ old, readProfile key = .ok old) :
    (profilesOf keys).length = (keys.filter fun key => validProfileId key.name).length := by
  rw [profilesOf, List.length_filterMap_eq_countP, ← List.countP_eq_length_filter]
  refine List.countP_congr fun key hkey => ?_
  constructor
  · intro hsome
    obtain ⟨old, hold⟩ := Option.isSome_iff_exists.mp hsome
    exact (profileOf?_eq_some.mp hold).1
  · intro hvalid
    obtain ⟨old, hold⟩ := hreadable key hkey hvalid
    exact Option.isSome_iff_exists.mpr ⟨old, profileOf?_eq_some.mpr ⟨hvalid, hold⟩⟩

theorem exists_key_iff (hid : validProfileId profile.id = true)
    (hbefore : Loadable 0 0 (keysOf registry)) :
    (∃ key ∈ keysOf registry, sameName key.name profile.id = true) ↔
      ∃ old ∈ profilesOf (keysOf registry), sameName old.id profile.id = true := by
  constructor
  · intro hkey
    obtain ⟨key, hmem, hname⟩ := hkey
    have hvalid := (validProfileId_of_sameName hname).trans hid
    obtain ⟨old, hold⟩ := hbefore.readable key hmem hvalid
    refine ⟨old, List.mem_filterMap.mpr ⟨key, hmem, profileOf?_eq_some.mpr ⟨hvalid, hold⟩⟩, ?_⟩
    rw [readProfile_id hold]
    exact hname
  · intro hold
    obtain ⟨old, hmem, hname⟩ := hold
    obtain ⟨key, hkey, hprofile⟩ := List.mem_filterMap.mp hmem
    rw [readProfile_id (profileOf?_eq_some.mp hprofile).2] at hname
    exact ⟨key, hkey, hname⟩

theorem load_partlySaved_error (hbefore : (load registry).error = none) {keys : List ProfileKey} :
    (load (some ⟨(createRoot registry).values, some keys⟩)).error = none ↔ Loadable 0 0 keys := by
  have hactive : ∃ activeId,
      readRegistryString ((createRoot registry).values .activeProfile) = some activeId := by
    cases registry with
    | none => exact ⟨[], rfl⟩
    | some launcher =>
      obtain ⟨values, profiles⟩ := launcher
      rw [load] at hbefore
      cases hread : readRegistryString (values .activeProfile) with
      | none =>
        dsimp only at hbefore
        rw [hread] at hbefore
        cases hbefore
      | some activeId => exact ⟨activeId, hread⟩
  obtain ⟨activeId, hactive⟩ := hactive
  simp only [load, hactive]
  exact @loadLoop_error_iff activeId 0 [] keys (Nat.zero_le _) (Nat.zero_le _)

section Opened

variable (h : Savable profile) (hcreate : answers.succeeds .createKey = true)
  (herror : (save answers registry profile makeActive).error ≠ none)
  (hbefore : (load registry).error = none)
include h hcreate herror hbefore

/-- A failed save of a profile that was there: the fields that were written are new. -/
theorem load_failed_update
    (hold : ∃ old ∈ (load registry).profiles, sameName old.id profile.id = true) :
    load (save answers registry profile makeActive).registry =
      ⟨(load registry).profiles.map fun old => if sameName old.id profile.id then
          mixed (writtenNames answers profile) profile old else old,
        (load registry).activeId, none⟩ := by
  have hloadable := readable_of_load hbefore
  rw [load_of_none hbefore] at hold ⊢
  obtain ⟨key, hkey, hname⟩ := (exists_key_iff h.id hloadable).mpr hold
  have hopened : openedKeys answers (keysOf registry) profile.id = keysOf registry :=
    if_pos (List.any_eq_true.mpr ⟨key, hkey, hname⟩)
  have hafter : Loadable 0 0 (partlySavedKeys answers registry profile) := by
    have hsubkeys := hloadable.subkeys
    have hprofiles := hloadable.profiles
    rw [Nat.zero_add] at hsubkeys hprofiles
    rw [loadable_partlySaved h hloadable, hopened]
    exact ⟨hsubkeys, hprofiles⟩
  have hkeys : (registry.bind LauncherKey.profiles).isSome = true := by
    cases hprofiles : registry.bind LauncherKey.profiles with
    | none =>
      rw [keysOf, hprofiles] at hkey
      cases hkey
    | some keys => rfl
  rw [save_registry h hcreate herror, load_of_none ((load_partlySaved_error hbefore).mpr hafter),
    hkeys, ← profilesOf_amend h hloadable.readable]
  have hsaved : keysOf (some ⟨(createRoot registry).values,
      some (partlySavedKeys answers registry profile)⟩) =
      (keysOf registry).map (ProfileKey.amend profile.id (partlySaved answers profile)) :=
    congrArg (List.map _) hopened
  rw [hsaved]
  rfl

/-- A failed save of a new profile: it is loaded between those that were there, with the values that
were written, unless the store has no room for it. -/
theorem load_failed_insert
    (hnone : ∀ old ∈ (load registry).profiles, sameName old.id profile.id = false) :
    ((load (save answers registry profile makeActive).registry).error = none ↔
      (keysOf registry).length < kMaximumProfileSubkeys ∧
      (load registry).profiles.length < kMaximumProfiles) ∧
    ((load (save answers registry profile makeActive).registry).error = none → ∃ front back,
      (load registry).profiles = front ++ back ∧
      (load (save answers registry profile makeActive).registry).profiles =
        front ++ mixed (writtenNames answers profile) profile (blankProfile profile.id) :: back ∧
      ((registry.bind LauncherKey.profiles).isSome = true →
        (load (save answers registry profile makeActive).registry).activeId =
          (load registry).activeId)) := by
  have hloadable := readable_of_load hbefore
  rw [load_of_none hbefore] at hnone ⊢
  dsimp only at hnone ⊢
  let index := answers.place ((keysOf registry).map ProfileKey.name) profile.id
  have hopened : openedKeys answers (keysOf registry) profile.id =
      (keysOf registry).take index ++ ⟨profile.id, noValues⟩ :: (keysOf registry).drop index := by
    refine if_neg fun hany => ?_
    obtain ⟨old, hmem, hname⟩ :=
      (exists_key_iff h.id hloadable).mp (List.any_eq_true.mp hany)
    rw [hnone old hmem] at hname
    cases hname
  have hperm : (openedKeys answers (keysOf registry) profile.id).Perm
      (⟨profile.id, noValues⟩ :: keysOf registry) := by
    rw [hopened]
    have hmiddle := @List.perm_middle _ (⟨profile.id, noValues⟩ : ProfileKey)
      ((keysOf registry).take index) ((keysOf registry).drop index)
    rwa [List.take_append_drop] at hmiddle
  have hreadable : ∀ key ∈ openedKeys answers (keysOf registry) profile.id,
      validProfileId key.name = true → ∃ old, readProfile key = .ok old := by
    intro key hkey hvalid
    cases mem_openedKeys answers hkey with
    | inl hold => exact hloadable.readable key hold hvalid
    | inr hnew => exact ⟨_, hnew.1 ▸ readProfile_blank profile.id⟩
  rw [save_registry h hcreate herror]
  constructor
  · have hvalid : ((openedKeys answers (keysOf registry) profile.id).filter fun key =>
        validProfileId key.name).length = (profilesOf (keysOf registry)).length + 1 := by
      rw [(hperm.filter _).length_eq, length_profilesOf hloadable.readable]
      exact congrArg List.length
        (List.filter_cons_of_pos (p := fun key : ProfileKey => validProfileId key.name) h.id)
    rw [load_partlySaved_error hbefore, loadable_partlySaved h hloadable, hperm.length_eq, hvalid]
    exact Iff.rfl
  · intro hafter
    let new := fun old : Profile => if sameName old.id profile.id then
      mixed (writtenNames answers profile) profile old else old
    have hblank : profileOf? ⟨profile.id, noValues⟩ = some (blankProfile profile.id) :=
      profileOf?_eq_some.mpr ⟨h.id, readProfile_blank profile.id⟩
    have hsplit : profilesOf (keysOf registry) = profilesOf ((keysOf registry).take index) ++
        profilesOf ((keysOf registry).drop index) := by
      rw [profilesOf, profilesOf, profilesOf, ← List.filterMap_append, List.take_append_drop]
    have hstay : ∀ profiles : List Profile, (∀ old ∈ profiles, old ∈ profilesOf (keysOf registry)) →
        profiles.map new = profiles := by
      intro profiles hin
      refine (List.map_congr_left fun old hold => ?_).trans (List.map_id _)
      exact if_neg (by rw [hnone old (hin old hold)]; exact Bool.false_ne_true)
    have hnew : new (blankProfile profile.id) =
        mixed (writtenNames answers profile) profile (blankProfile profile.id) :=
      if_pos (sameName_refl profile.id)
    refine ⟨profilesOf ((keysOf registry).take index), profilesOf ((keysOf registry).drop index),
      hsplit, ?_, ?_⟩
    · rw [load_of_none hafter]
      change profilesOf (partlySavedKeys answers registry profile) = _
      rw [partlySavedKeys, profilesOf_amend h hreadable, hopened, profilesOf, List.filterMap_append,
        List.filterMap_cons, hblank, List.map_append, List.map_cons]
      change (profilesOf _).map new ++ new _ :: (profilesOf _).map new = _
      rw [hnew, hstay, hstay]
      · intro old hold
        rw [hsplit]
        exact List.mem_append_right _ hold
      · intro old hold
        rw [hsplit]
        exact List.mem_append_left _ hold
    · intro hsome
      rw [load_of_none hafter, hsome]
      rfl

end Opened

/-- A save that fails before the key of the profile is open changes nothing. One that fails later
changes the fields it has written of its own profile, in front of the operation that failed, and nothing
else that is loaded: an earlier profile keeps its other fields, a new one has those of a blank profile. -/
theorem failed_save_touches_one_profile (answers : Answers) (registry : Registry)
    (profile : Profile) (makeActive : Bool) :
    let stored := save answers registry profile makeActive
    let before := load registry
    let after := load stored.registry
    (¬Savable profile ∨ answers.succeeds .createKey = false → stored.registry = registry) ∧
    (Savable profile → answers.succeeds .createKey = true → stored.error ≠ none →
      before.error = none →
      ((∃ old ∈ before.profiles, sameName old.id profile.id = true) →
        after = ⟨before.profiles.map fun old => if sameName old.id profile.id then
          mixed (writtenNames answers profile) profile old else old, before.activeId, none⟩) ∧
      ((∀ old ∈ before.profiles, sameName old.id profile.id = false) →
        (after.error = none ↔ (keysOf registry).length < kMaximumProfileSubkeys ∧
          before.profiles.length < kMaximumProfiles) ∧
        (after.error = none → ∃ front back, before.profiles = front ++ back ∧
          after.profiles = front ++
            mixed (writtenNames answers profile) profile (blankProfile profile.id) :: back ∧
          ((registry.bind LauncherKey.profiles).isSome = true →
            after.activeId = before.activeId)))) := by
  refine ⟨?_, fun h hcreate herror hbefore => ⟨load_failed_update h hcreate herror hbefore,
    load_failed_insert h hcreate herror hbefore⟩⟩
  intro h
  rw [save]
  cases hsavable : isSavable profile with
  | false => rfl
  | true =>
    have hcreate := h.resolve_left (not_not.mpr ((isSavable_iff profile).mp hsavable))
    rw [hcreate]
    rfl

end Failures

section HalfSaved

def oldVersion : Profile :=
  { id := sampleId 0, name := wide "FFB", gamePath := wide "C:\\A.exe", gameArguments := wide "-a" }

def newVersion : Profile := { oldVersion with gamePath := wide "C:\\B.exe", gameArguments := wide "-b" }

def oldRegistry : Registry := (save (reliable first) none oldVersion true).registry

def argumentsFail : Answers := ⟨fun operation => operation ≠ .writeArguments, first⟩

/-- The path of the new version is loaded with the arguments of the old one. -/
theorem halfSaved_mixes :
    (save argumentsFail oldRegistry newVersion true).error ≠ none ∧
    (load oldRegistry).profiles = [oldVersion] ∧
    (load (save argumentsFail oldRegistry newVersion true).registry).profiles =
      [{ oldVersion with gamePath := newVersion.gamePath }] := by decide +kernel

/-- The name and the path were written, and no other field is new. -/
theorem halfSaved_follows : writtenNames argumentsFail newVersion = [.name, .gamePath] ∧
    load (save argumentsFail oldRegistry newVersion true).registry =
      ⟨(load oldRegistry).profiles.map fun old => if sameName old.id newVersion.id then
        mixed (writtenNames argumentsFail newVersion) newVersion old else old,
      (load oldRegistry).activeId, none⟩ := by
  have hsavable : Savable newVersion := (isSavable_iff newVersion).mp (by decide +kernel)
  have hloads : (load oldRegistry).profiles = [oldVersion] := by decide +kernel
  have hold : ∃ old ∈ (load oldRegistry).profiles, sameName old.id newVersion.id = true := by
    rw [hloads]
    exact ⟨oldVersion, List.mem_singleton_self _, sameName_refl _⟩
  exact ⟨by decide +kernel, ((failed_save_touches_one_profile argumentsFail oldRegistry newVersion
    true).2 hsavable rfl (by decide +kernel) (by decide +kernel)).1 hold⟩

end HalfSaved

end FfbInterceptor.Manager
