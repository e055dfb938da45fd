import FfbInterceptor.Manager.ProfileLoading

/-! The profile store is a map, up to 64 profiles. -/
namespace FfbInterceptor.Manager
open FfbInterceptor.Launcher

section Saved

variable {profile : Profile} {answers : Answers} {registry : Registry} {key : ProfileKey}

def savedValues (profile : Profile) (values : Values) : Values := applied (saveWrites profile) values

theorem savedValues_eq (h : Savable profile) (values : Values) :
    savedValues profile values .name = some (.string (profile.name ++ [0])) ∧
    savedValues profile values .gamePath = some (.string (profile.gamePath ++ [0])) ∧
    savedValues profile values .arguments = some (.string (profile.gameArguments ++ [0])) ∧
    savedValues profile values .simHubPath = some (.string (profile.simhubPath ++ [0])) ∧
    savedValues profile values .autoStartSimHub =
      some (.dword (if profile.autoStartSimhub then 1 else 0)) := by
  have hname := registryString_of_fits h.fits_name
  have hgame := registryString_of_fits h.gamePath
  have harguments := registryString_of_fits h.gameArguments
  have hsimhub := registryString_of_fits h.simhubPath
  simp [savedValues, applied, saveWrites, Values.set, hname, hgame, harguments, hsimhub]

theorem readAutoStart_saved (autoStart : Bool) :
    readAutoStart (some (.dword (if autoStart then 1 else 0))) = some autoStart := by
  cases autoStart with
  | false => rfl
  | true => rfl

theorem readProfile_saved (h : Savable profile) (key : ProfileKey) :
    readProfile { key with values := savedValues profile key.values } =
      .ok { profile with id := key.name } := by
  obtain ⟨hname, hgame, harguments, hsimhub, hauto⟩ := savedValues_eq h key.values
  have hnonempty : ¬profile.name.isEmpty = true := fun hempty => h.name.1 (List.isEmpty_iff.mp hempty)
  rw [readProfile]
  simp only [hname, hgame, harguments, hsimhub, hauto, readAutoStart_saved,
    readRegistryString_of_fits h.fits_name, readRegistryString_of_fits h.gamePath,
    readRegistryString_of_fits h.gameArguments, readRegistryString_of_fits h.simhubPath]
  rw [if_neg hnonempty]

/-- The registry whose operations all succeed. -/
def reliable (place : List WString → WString → Nat) : Answers := ⟨fun _ => true, place⟩

variable {place : List WString → WString → Nat}

def savedKeys (place : List WString → WString → Nat) (registry : Registry) (profile : Profile) :
    List ProfileKey :=
  (openedKeys (reliable place) ((createRoot registry).profiles.getD []) profile.id).map
    (ProfileKey.amend profile.id (savedValues profile))

def savedRoot (registry : Registry) (profile : Profile) (makeActive : Bool) : Values :=
  if makeActive then
    (createRoot registry).values.set .activeProfile (.string (profile.id ++ [0]))
  else (createRoot registry).values

theorem setActive_reliable {id : WString} (h : validProfileId id = true) (registry : Registry) :
    setActive (reliable place) registry id =
      ⟨none, some { createRoot registry with
        values := (createRoot registry).values.set .activeProfile (.string (id ++ [0])) }⟩ := by
  have hstring := registryString_of_fits (fits_of_validProfileId h)
  simp [setActive, h, hstring, reliable]

theorem save_reliable (place : List WString → WString → Nat) (registry : Registry)
    (makeActive : Bool) (h : Savable profile) :
    save (reliable place) registry profile makeActive =
      ⟨none, some ⟨savedRoot registry profile makeActive,
        some (savedKeys place registry profile)⟩⟩ := by
  have hsavable := (isSavable_iff profile).mpr h
  have hdone : ∀ write ∈ saveWrites profile, isDone (reliable place) write = true := by
    simp [saveWrites, isDone, reliable, registryString_of_fits h.fits_name,
      registryString_of_fits h.gamePath, registryString_of_fits h.gameArguments,
      registryString_of_fits h.simhubPath]
  have htake : (saveWrites profile).takeWhile (isDone (reliable place)) = saveWrites profile :=
    List.takeWhile_eq_self_iff.mpr hdone
  have hdrop : (saveWrites profile).dropWhile (isDone (reliable place)) = [] :=
    List.dropWhile_eq_nil_iff.mpr hdone
  have hwrites : writeLoop (reliable place) profile.id
      (createProfileKey (reliable place) registry profile.id) (saveWrites profile) =
      (none, ⟨(createRoot registry).values, some (savedKeys place registry profile)⟩) := by
    rw [writeLoop_eq, htake, hdrop, createProfileKey_eq]
    rfl
  have hcreate : (reliable place).succeeds .createKey = true := rfl
  rw [save, hsavable, hcreate, hwrites]
  cases makeActive with
  | false => rfl
  | true => exact setActive_reliable h.id _

theorem save_error_iff (place : List WString → WString → Nat) (registry : Registry)
    (profile : Profile) (makeActive : Bool) :
    (save (reliable place) registry profile makeActive).error = none ↔ Savable profile := by
  constructor
  · intro h
    by_contra hno
    have hrefused : isSavable profile = false :=
      Bool.eq_false_iff.mpr fun hyes => hno ((isSavable_iff profile).mp hyes)
    rw [save, hrefused, Bool.not_false, if_pos rfl] at h
    cases h
  · intro h
    rw [save_reliable place registry makeActive h]

end Saved

section Contents

variable {place : List WString → WString → Nat} {profile : Profile} {registry : Registry}
  {saved : Bool}

/-- What the store can write in a registry whose operations succeed, and whether some profile has been
saved. -/
inductive Written (place : List WString → WString → Nat) : Bool → Registry → Prop
  | nothing : Written place false none
  | save {saved : Bool} {registry : Registry} (profile : Profile) (makeActive : Bool) :
      Written place saved registry →
      (save (reliable place) registry profile makeActive).error = none →
      Written place true (save (reliable place) registry profile makeActive).registry
  | erase {saved : Bool} {registry : Registry} (id : WString) : Written place saved registry →
      Written place saved (erase (reliable place) registry id).registry
  | setActive {saved : Bool} {registry : Registry} (id : WString) : Written place saved registry →
      Written place saved (setActive (reliable place) registry id).registry

/-- The keys of profiles that the store has written. -/
structure Proper (keys : List ProfileKey) : Prop where
  valid : ∀ key ∈ keys, validProfileId key.name = true
  readable : ∀ key ∈ keys, ∃ profile, readProfile key = .ok profile
  distinct : (keys.map fun key => lowerCopy key.name).Nodup

def keysOf (registry : Registry) : List ProfileKey := (registry.bind LauncherKey.profiles).getD []

def activeOf (registry : Registry) : WString :=
  ((readRegistryString ((createRoot registry).values .activeProfile))).getD []

structure ProperRegistry (saved : Bool) (registry : Registry) : Prop where
  keys : Proper (keysOf registry)
  active : ∃ activeId, readRegistryString ((createRoot registry).values .activeProfile) =
    some activeId ∧ (activeId = [] ∨ validProfileId activeId = true)
  saved : saved = true → ∃ keys, registry.bind LauncherKey.profiles = some keys

theorem createRoot_some (launcher : LauncherKey) : createRoot (some launcher) = launcher := rfl

theorem keysOf_createRoot (registry : Registry) :
    (createRoot registry).profiles.getD [] = keysOf registry := by
  cases registry with
  | none => rfl
  | some launcher => rfl

theorem opened_distinct {answers : Answers} {keys : List ProfileKey} {id : WString}
    (h : (keys.map fun key => lowerCopy key.name).Nodup) :
    ((openedKeys answers keys id).map fun key => lowerCopy key.name).Nodup := by
  rw [openedKeys]
  split
  · exact h
  · next hnone =>
    rw [Bool.not_eq_true, List.any_eq_false] at hnone
    have hnew : lowerCopy id ∉ keys.map fun key => lowerCopy key.name := by
      intro hmem
      obtain ⟨key, hkey, hname⟩ := List.mem_map.mp hmem
      exact hnone key hkey (sameName_iff.mpr hname)
    have hmiddle : (keys.take (answers.place (keys.map ProfileKey.name) id) ++
        ⟨id, noValues⟩ :: keys.drop (answers.place (keys.map ProfileKey.name) id)).Perm
        (⟨id, noValues⟩ :: keys) := by
      have hperm := @List.perm_middle _ (⟨id, noValues⟩ : ProfileKey)
        (keys.take (answers.place (keys.map ProfileKey.name) id))
        (keys.drop (answers.place (keys.map ProfileKey.name) id))
      rwa [List.take_append_drop] at hperm
    have hperm := hmiddle.map fun key => lowerCopy key.name
    exact hperm.nodup_iff.mpr (List.nodup_cons.mpr ⟨hnew, h⟩)

theorem Proper.save (h : Proper (keysOf registry)) (hsavable : Savable profile) :
    Proper (savedKeys place registry profile) := by
  have hmem : ∀ key ∈ savedKeys place registry profile, ∃ old, key = old.amend profile.id
      (savedValues profile) ∧ (old ∈ keysOf registry ∨ old = ⟨profile.id, noValues⟩) := by
    intro key hkey
    obtain ⟨old, hold, rfl⟩ := List.mem_map.mp hkey
    rw [keysOf_createRoot] at hold
    exact ⟨old, rfl, (mem_openedKeys (reliable place) hold).imp_right And.left⟩
  refine ⟨?_, ?_, ?_⟩
  · intro key hkey
    obtain ⟨old, rfl, hold | rfl⟩ := hmem key hkey
    · rw [amend_name]
      exact h.valid old hold
    · rw [amend_name]
      exact hsavable.id
  · intro key hkey
    obtain ⟨old, rfl, hold⟩ := hmem key hkey
    cases hsame : sameName old.name profile.id with
    | true =>
      rw [ProfileKey.amend, hsame, if_pos rfl]
      exact ⟨_, readProfile_saved hsavable old⟩
    | false =>
      rw [ProfileKey.amend, hsame, if_neg Bool.false_ne_true]
      cases hold with
      | inl hmem => exact h.readable old hmem
      | inr hnew =>
        rw [hnew, sameName_refl] at hsame
        cases hsame
  · rw [savedKeys, List.map_map, keysOf_createRoot]
    have hnames : (fun key : ProfileKey => lowerCopy key.name) ∘
        ProfileKey.amend profile.id (savedValues profile) = fun key => lowerCopy key.name :=
      funext fun key => congrArg lowerCopy amend_name
    rw [hnames]
    exact opened_distinct h.distinct

theorem Proper.filter {keys : List ProfileKey} (h : Proper keys) (p : ProfileKey → Bool) :
    Proper (keys.filter p) := by
  refine ⟨fun key hkey => h.valid key (List.mem_of_mem_filter hkey),
    fun key hkey => h.readable key (List.mem_of_mem_filter hkey), ?_⟩
  exact h.distinct.sublist (List.filter_sublist.map _)

theorem active_set {id : WString} (h : validProfileId id = true) (values : Values) :
    readRegistryString (values.set .activeProfile (.string (id ++ [0])) .activeProfile) = some id := by
  have hvalue : values.set .activeProfile (.string (id ++ [0])) .activeProfile =
    some (.string (id ++ [0])) := if_pos rfl
  rw [hvalue]
  exact readRegistryString_of_fits (fits_of_validProfileId h)

/-- Whatever the store writes is proper. -/
theorem Written.proper (h : Written place saved registry) : ProperRegistry saved registry := by
  induction h with
  | nothing => exact ⟨⟨nofun, nofun, List.nodup_nil⟩, ⟨[], rfl, Or.inl rfl⟩, nofun⟩
  | save profile makeActive hwritten hdone ih =>
    rename_i registry
    have hsavable := (save_error_iff place registry profile makeActive).mp hdone
    rw [save_reliable place registry makeActive hsavable]
    refine ⟨ih.keys.save hsavable, ?_, fun _ => ⟨_, rfl⟩⟩
    rw [createRoot_some]
    cases makeActive with
    | false => exact ih.active
    | true =>
      exact ⟨profile.id, active_set hsavable.id (createRoot registry).values, Or.inr hsavable.id⟩
  | erase id hwritten ih =>
    rename_i registry
    rw [Manager.erase]
    split
    · exact ih
    · rw [if_neg (show ¬(!(reliable place).succeeds .deleteTree) = true from Bool.false_ne_true)]
      cases registry with
      | none => exact ih
      | some launcher =>
        obtain ⟨values, profiles⟩ := launcher
        cases profiles with
        | none => exact ih
        | some keys => exact ⟨ih.keys.filter _, ih.active, fun _ => ⟨_, rfl⟩⟩
  | setActive id hwritten ih =>
    rename_i registry
    cases hvalid : validProfileId id with
    | false =>
      rw [Manager.setActive, hvalid, Bool.not_false, if_pos rfl]
      exact ih
    | true =>
      rw [setActive_reliable hvalid]
      refine ⟨?_, ⟨id, active_set hvalid (createRoot registry).values, Or.inr hvalid⟩,
        fun hsaved => ?_⟩
      · cases registry with
        | none => exact ih.keys
        | some launcher => exact ih.keys
      · obtain ⟨keys, hkeys⟩ := ih.saved hsaved
        cases registry with
        | none => cases hkeys
        | some launcher => exact ⟨keys, hkeys⟩

end Contents

section Loads

variable {saved : Bool} {registry : Registry} {keys : List ProfileKey}

theorem Proper.loadable (h : Proper keys) (hcount : keys.length ≤ kMaximumProfiles) :
    Loadable 0 0 keys := by
  have hlimits : kMaximumProfiles ≤ kMaximumProfileSubkeys := by decide
  refine ⟨fun key hkey => ?_, fun key hkey _ => h.readable key hkey, ?_, ?_⟩
  · rw [validProfileId_length (h.valid key hkey)]
    decide
  · rw [Nat.zero_add]
    exact hcount.trans hlimits
  · rw [Nat.zero_add]
    exact (List.length_filter_le _ _).trans hcount

def profilesOf (keys : List ProfileKey) : List Profile := keys.filterMap profileOf?

theorem loadLoop_proper (h : Proper keys) (hcount : keys.length ≤ kMaximumProfiles)
    (activeId : WString) :
    loadLoop activeId 0 [] keys = ⟨profilesOf keys, shownActive activeId, none⟩ := by
  have hnone := (@loadLoop_error_iff activeId 0 [] keys (Nat.zero_le _) (Nat.zero_le _)).mpr
    (h.loadable hcount)
  exact loadLoop_of_none hnone

theorem shownActive_eq {activeId : WString} (h : activeId = [] ∨ validProfileId activeId = true) :
    shownActive activeId = activeId := by
  cases h with
  | inl hnil =>
    rw [hnil]
    rfl
  | inr hvalid =>
    rw [shownActive, hvalid, Bool.not_true, Bool.and_false, if_neg Bool.false_ne_true]

theorem load_proper (h : ProperRegistry saved registry)
    (hcount : (keysOf registry).length ≤ kMaximumProfiles) :
    load registry = ⟨profilesOf (keysOf registry),
      if (registry.bind LauncherKey.profiles).isSome then activeOf registry else [], none⟩ := by
  cases registry with
  | none => rfl
  | some launcher =>
    obtain ⟨values, profiles⟩ := launcher
    obtain ⟨activeId, hactive, hvalid⟩ := h.active
    have hread : readRegistryString (values .activeProfile) = some activeId := hactive
    have hactiveOf : activeOf (some ⟨values, profiles⟩) = activeId := by
      rw [activeOf, createRoot_some, hread]
      rfl
    rw [hactiveOf]
    simp only [load, hread]
    cases profiles with
    | none => rfl
    | some keys =>
      refine (loadLoop_proper h.keys hcount activeId).trans ?_
      rw [shownActive_eq hvalid]
      rfl

end Loads

section Map

variable {place : List WString → WString → Nat} {saved : Bool} {registry : Registry}
  {profile : Profile} {id : WString} {keys : List ProfileKey}

def profileCount (registry : Registry) : Nat := (keysOf registry).length

theorem keysOf_erase (registry : Registry) (id : WString) :
    keysOf (deleteProfileKey registry id) = otherKeys id (keysOf registry) := by
  cases registry with
  | none => rfl
  | some launcher =>
    obtain ⟨values, profiles⟩ := launcher
    cases profiles with
    | none => rfl
    | some keys => rfl

theorem otherKeys_saved : otherKeys profile.id (savedKeys place registry profile) =
    otherKeys profile.id (keysOf registry) := by
  rw [savedKeys, otherKeys_amend, otherKeys_opened, keysOf_createRoot]

theorem length_opened_le {answers : Answers} (keys : List ProfileKey) (id : WString) :
    keys.length ≤ (openedKeys answers keys id).length := by
  rw [openedKeys]
  split
  · exact Nat.le_refl _
  · rw [List.length_append, List.length_cons, List.length_take, List.length_drop]
    omega

theorem length_le_savedKeys : (keysOf registry).length ≤ (savedKeys place registry profile).length := by
  rw [savedKeys, List.length_map, keysOf_createRoot]
  exact length_opened_le _ _

theorem exists_opened (answers : Answers) (keys : List ProfileKey) (id : WString) :
    ∃ key ∈ openedKeys answers keys id, sameName key.name id = true := by
  rw [openedKeys]
  split
  · next hany => exact List.any_eq_true.mp hany
  · exact ⟨⟨id, noValues⟩, List.mem_append_right _ List.mem_cons_self, sameName_refl id⟩

theorem profilesOf_ids (h : Proper keys) :
    (profilesOf keys).map Profile.id = keys.map ProfileKey.name := by
  have hvalid := h.valid
  have hread := h.readable
  clear h
  induction keys with
  | nil => rfl
  | cons key keys ih =>
    obtain ⟨hkey, hkeys⟩ := List.forall_mem_cons.mp hvalid
    obtain ⟨⟨profile, hprofile⟩, hreads⟩ := List.forall_mem_cons.mp hread
    have hsome : profileOf? key = some profile := profileOf?_eq_some.mpr ⟨hkey, hprofile⟩
    rw [profilesOf, List.filterMap_cons, hsome, List.map_cons, List.map_cons,
      readProfile_id hprofile]
    exact congrArg (key.name :: ·) (ih hkeys hreads)

theorem profilesOf_distinct (h : Proper keys) :
    ((profilesOf keys).map fun profile => lowerCopy profile.id).Nodup := by
  have hnames : (profilesOf keys).map (fun profile => lowerCopy profile.id) =
      keys.map fun key => lowerCopy key.name := by
    have hids := congrArg (List.map lowerCopy) (profilesOf_ids h)
    rwa [List.map_map, List.map_map] at hids
  rw [hnames]
  exact h.distinct

theorem saved_mem (h : Proper (keysOf registry)) (hsavable : Savable profile) :
    ∃ stored ∈ profilesOf (savedKeys place registry profile),
      sameName stored.id profile.id = true ∧ stored = { profile with id := stored.id } := by
  obtain ⟨key, hkey, hname⟩ := exists_opened (reliable place)
    ((createRoot registry).profiles.getD []) profile.id
  have hamended : key.amend profile.id (savedValues profile) =
      { key with values := savedValues profile key.values } := by
    rw [ProfileKey.amend, hname, if_pos rfl]
  have hin : { key with values := savedValues profile key.values } ∈
      savedKeys place registry profile := List.mem_map.mpr ⟨key, hkey, hamended⟩
  have hproper : Proper (savedKeys place registry profile) := h.save hsavable
  have hvalid := hproper.valid _ hin
  refine ⟨{ profile with id := key.name }, ?_, hname, rfl⟩
  exact List.mem_filterMap.mpr
    ⟨_, hin, profileOf?_eq_some.mpr ⟨hvalid, readProfile_saved hsavable key⟩⟩

theorem saved_ids (h : Proper (keysOf registry)) (hsavable : Savable profile)
    (hold : ∃ old ∈ profilesOf (keysOf registry), sameName old.id profile.id = true) :
    (profilesOf (savedKeys place registry profile)).map Profile.id =
      (profilesOf (keysOf registry)).map Profile.id := by
  obtain ⟨old, hmem, hname⟩ := hold
  obtain ⟨key, hkey, hprofile⟩ := List.mem_filterMap.mp hmem
  rw [readProfile_id (profileOf?_eq_some.mp hprofile).2] at hname
  have hany : (keysOf registry).any (fun key => sameName key.name profile.id) = true :=
    List.any_eq_true.mpr ⟨key, hkey, hname⟩
  rw [profilesOf_ids (h.save hsavable), profilesOf_ids h, savedKeys, keysOf_createRoot, openedKeys,
    if_pos hany, List.map_map]
  exact List.map_congr_left fun key _ => amend_name

/-- What a save does to what is loaded. -/
structure SavesInto (profile : Profile) (before after : Loaded) : Prop where
  loaded : before.error = none ∧ after.error = none
  stored : ∃ stored ∈ after.profiles,
    sameName stored.id profile.id = true ∧ stored = { profile with id := stored.id }
  others : othersOf profile.id after.profiles = othersOf profile.id before.profiles
  distinct : (after.profiles.map fun profile => lowerCopy profile.id).Nodup
  updated : (∃ old ∈ before.profiles, sameName old.id profile.id = true) →
    after.profiles.map Profile.id = before.profiles.map Profile.id

theorem save_loads (h : Written place saved registry) (makeActive : Bool)
    (hsavable : Savable profile)
    (hcount : (savedKeys place registry profile).length ≤ kMaximumProfiles) :
    let before := load registry
    let after := load (save (reliable place) registry profile makeActive).registry
    SavesInto profile before after ∧
    (makeActive = true → after.activeId = profile.id) ∧
    (makeActive = false → saved = true → after.activeId = before.activeId) := by
  intro before after
  have hproper := h.proper
  have hcountBefore := length_le_savedKeys.trans hcount
  have hbefore : before = _ := load_proper hproper hcountBefore
  have hdone := (save_error_iff place registry profile makeActive).mpr hsavable
  have hwritten : ProperRegistry true
      (save (reliable place) registry profile makeActive).registry :=
    (h.save profile makeActive hdone).proper
  have hafter : after = ⟨profilesOf (savedKeys place registry profile),
      activeOf (some ⟨savedRoot registry profile makeActive,
        some (savedKeys place registry profile)⟩), none⟩ := by
    rw [save_reliable place registry makeActive hsavable] at hwritten
    simp only [after, save_reliable place registry makeActive hsavable]
    exact load_proper hwritten hcount
  refine ⟨⟨?_, ?_, ?_, ?_, ?_⟩, ?_, ?_⟩
  · rw [hbefore, hafter]
    exact ⟨rfl, rfl⟩
  · rw [hafter]
    exact saved_mem hproper.keys hsavable
  · rw [hbefore, hafter]
    change othersOf _ (profilesOf _) = othersOf _ (profilesOf _)
    rw [profilesOf, profilesOf, othersOf_filterMap, othersOf_filterMap, otherKeys_saved]
  · rw [hafter]
    exact profilesOf_distinct (hproper.keys.save hsavable)
  · rw [hbefore, hafter]
    exact saved_ids hproper.keys hsavable
  · intro hactive
    rw [hafter, hactive]
    change activeOf _ = profile.id
    rw [activeOf, createRoot_some, savedRoot, if_pos rfl, active_set hsavable.id]
    rfl
  · intro hactive hsaved
    obtain ⟨keys, hkeys⟩ := hproper.saved hsaved
    rw [hafter, hbefore, hactive, hkeys]
    rfl

theorem erase_loads (h : Written place saved registry) (hvalid : validProfileId id = true)
    (hcount : profileCount registry ≤ kMaximumProfiles) :
    (erase (reliable place) registry id).error = none ∧
    load (erase (reliable place) registry id).registry =
      { load registry with profiles := othersOf id (load registry).profiles } := by
  have herase : erase (reliable place) registry id = ⟨none, deleteProfileKey registry id⟩ := by
    rw [erase, hvalid]
    rfl
  have hwritten : ProperRegistry saved (deleteProfileKey registry id) := by
    have hproper := (h.erase id).proper
    rwa [herase] at hproper
  have hcount' : (keysOf (deleteProfileKey registry id)).length ≤ kMaximumProfiles := by
    rw [keysOf_erase]
    exact (List.length_filter_le _ _).trans hcount
  rw [herase]
  refine ⟨rfl, ?_⟩
  rw [load_proper hwritten hcount', load_proper h.proper hcount, keysOf_erase]
  dsimp only
  rw [profilesOf, profilesOf, othersOf_filterMap]
  cases registry with
  | none => rfl
  | some launcher =>
    obtain ⟨values, profiles⟩ := launcher
    cases profiles with
    | none => rfl
    | some keys => rfl

theorem setActive_loads (h : Written place saved registry) (hvalid : validProfileId id = true)
    (hsaved : saved = true) (hcount : profileCount registry ≤ kMaximumProfiles) :
    (setActive (reliable place) registry id).error = none ∧
    load (setActive (reliable place) registry id).registry =
      { load registry with activeId := id } := by
  have hwritten := (h.setActive id).proper
  rw [setActive_reliable hvalid] at hwritten ⊢
  obtain ⟨keys, hkeys⟩ := h.proper.saved hsaved
  cases registry with
  | none => cases hkeys
  | some launcher =>
    obtain ⟨values, profiles⟩ := launcher
    obtain rfl : profiles = some keys := hkeys
    refine ⟨rfl, ?_⟩
    rw [load_proper hwritten hcount, load_proper h.proper hcount]
    have hactive : activeOf (some ⟨values.set .activeProfile (.string (id ++ [0])), some keys⟩) =
        id := by
      rw [activeOf, createRoot_some, active_set hvalid]
      rfl
    change Loaded.mk _ _ _ = Loaded.mk _ _ _
    rw [createRoot_some, hactive]
    rfl

/-- The store is a map from names to profiles, with an active one, as long as there are no more than 64
of them: a save sets one profile, in whatever case its name is written, an erasure removes one, and the
choice of the active profile changes none. -/
theorem profile_store_is_map (h : Written place saved registry) :
    (∀ profile makeActive,
      let after := save (reliable place) registry profile makeActive
      (after.error = none ↔ Savable profile) ∧
      (after.error = none → profileCount after.registry ≤ 64 →
        SavesInto profile (load registry) (load after.registry) ∧
        (makeActive = true → (load after.registry).activeId = profile.id) ∧
        (makeActive = false → saved = true →
          (load after.registry).activeId = (load registry).activeId))) ∧
    (∀ id, validProfileId id = true → profileCount registry ≤ 64 →
      let after := erase (reliable place) registry id
      after.error = none ∧ load after.registry =
        { load registry with profiles := othersOf id (load registry).profiles }) ∧
    (∀ id, validProfileId id = true → saved = true → profileCount registry ≤ 64 →
      let after := setActive (reliable place) registry id
      after.error = none ∧ load after.registry = { load registry with activeId := id }) := by
  refine ⟨?_, fun id => erase_loads h, fun id => setActive_loads h⟩
  intro profile makeActive after
  refine ⟨save_error_iff place registry profile makeActive, fun hdone hcount => ?_⟩
  have hsavable := (save_error_iff place registry profile makeActive).mp hdone
  refine save_loads h makeActive hsavable ?_
  have hafter : after = _ := save_reliable place registry makeActive hsavable
  rw [hafter] at hcount
  exact hcount

end Map

section Limit

def sampleId (n : Nat) : WString :=
  [openBrace, 0x30 + (n / 10).toUInt16, 0x30 + (n % 10).toUInt16] ++
    wide "000000-0000-0000-0000-000000000000" ++ [closeBrace]

def sampleProfile (n : Nat) : Profile := { id := sampleId n, name := wide "FFB" }

def first (_ : List WString) (_ : WString) : Nat := 0

theorem sampleProfile_savable {n : Nat} (h : n < 65) : Savable (sampleProfile n) := by
  have hids : ∀ n < 65, validProfileId (sampleId n) = true := by decide +kernel
  have hname : wide "FFB" ≠ [] ∧ (wide "FFB").length ≤ 200 ∧ 0 ∉ wide "FFB" := by decide
  have hempty : FitsRegistry [] := ⟨by decide, by decide⟩
  exact ⟨hids n h, hname, hempty, hempty, hempty⟩

theorem sampleId_distinct {m n : Nat} (hm : m < 65) (hn : n < 65)
    (h : sameName (sampleId m) (sampleId n) = true) : m = n := by
  have hall : ∀ m < 65, ∀ n < 65, sameName (sampleId m) (sampleId n) = true → m = n := by
    decide +kernel
  exact hall m hm n hn h

/-- The first sample with letters in its name, in either case. -/
def letteredProfile (capital : Bool) (gamePath : WString) : Profile where
  id := wide (if capital then "\x7bAB000000-0000-0000-0000-000000000000\x7d"
    else "\x7bab000000-0000-0000-0000-000000000000\x7d")
  name := wide "FFB"
  gamePath := gamePath

theorem letteredProfile_savable (capital : Bool) {gamePath : WString} (h : FitsRegistry gamePath) :
    Savable (letteredProfile capital gamePath) := by
  have hid : ∀ capital, validProfileId (letteredProfile capital []).id = true := by decide +kernel
  have hname : wide "FFB" ≠ [] ∧ (wide "FFB").length ≤ 200 ∧ 0 ∉ wide "FFB" := by decide
  have hempty : FitsRegistry [] := ⟨by decide, by decide⟩
  exact ⟨hid capital, hname, h, hempty, hempty⟩

def pairRegistry : Registry :=
  let capitals := save (reliable first) none (letteredProfile true (wide "C:\\A.exe")) true
  (save (reliable first) capitals.registry (sampleProfile 0) false).registry

/-- The profile is saved once more in small letters: it is the same profile, and the other one stays. -/
theorem recased_save_loads :
    SavesInto (letteredProfile false (wide "C:\\B.exe")) (load pairRegistry)
      (load (save (reliable first) pairRegistry
        (letteredProfile false (wide "C:\\B.exe")) false).registry) ∧
    (load (save (reliable first) pairRegistry
      (letteredProfile false (wide "C:\\B.exe")) false).registry).profiles =
        [sampleProfile 0, letteredProfile true (wide "C:\\B.exe")] := by
  have hold : Savable (letteredProfile true (wide "C:\\A.exe")) :=
    letteredProfile_savable true ⟨by decide, by decide⟩
  have hnew : Savable (letteredProfile false (wide "C:\\B.exe")) :=
    letteredProfile_savable false ⟨by decide, by decide⟩
  have hwritten : Written first true pairRegistry :=
    (Written.nothing.save _ true ((save_error_iff first none _ true).mpr hold)).save (sampleProfile 0)
      false ((save_error_iff first _ _ false).mpr (sampleProfile_savable (by decide)))
  refine ⟨(((profile_store_is_map hwritten).1 _ false).2 ((save_error_iff first _ _ false).mpr hnew)
    (by decide +kernel)).1, by decide +kernel⟩

theorem savedKeys_sample {n : Nat} {registry : Registry} (hn : n < 65)
    (hnames : ∀ key ∈ keysOf registry, ∃ m < n, key.name = sampleId m) :
    savedKeys first registry (sampleProfile n) = (⟨sampleId n, noValues⟩ :: keysOf registry).map
      (ProfileKey.amend (sampleId n) (savedValues (sampleProfile n))) := by
  have hnew : ¬(keysOf registry).any (fun key => sameName key.name (sampleId n)) = true := by
    intro hany
    obtain ⟨key, hkey, hname⟩ := List.any_eq_true.mp hany
    obtain ⟨m, hm, hid⟩ := hnames key hkey
    rw [hid] at hname
    have hsame := sampleId_distinct (by omega) hn hname
    omega
  rw [savedKeys, keysOf_createRoot]
  exact congrArg (List.map _) (if_neg hnew)

theorem length_savedKeys_sample {n : Nat} {registry : Registry}
    (hnames : ∀ key ∈ keysOf registry, ∃ m < n, key.name = sampleId m) (hn : n < 65) :
    (savedKeys first registry (sampleProfile n)).length = (keysOf registry).length + 1 := by
  rw [savedKeys_sample hn hnames, List.length_map, List.length_cons]

theorem exists_count {n : Nat} (h : n ≤ 65) : ∃ saved registry, Written first saved registry ∧
    profileCount registry = n ∧ ∀ key ∈ keysOf registry, ∃ m < n, key.name = sampleId m := by
  induction n with
  | zero => exact ⟨false, none, .nothing, rfl, nofun⟩
  | succ n ih =>
    obtain ⟨saved, registry, hwritten, hcount, hnames⟩ := ih (Nat.le_of_succ_le h)
    have hsavable : Savable (sampleProfile n) := sampleProfile_savable h
    refine ⟨true, _, hwritten.save (sampleProfile n) false
      ((save_error_iff first registry (sampleProfile n) false).mpr hsavable), ?_, ?_⟩
    · rw [save_reliable first registry false hsavable]
      change (savedKeys first registry (sampleProfile n)).length = n + 1
      rw [length_savedKeys_sample hnames h]
      exact congrArg (· + 1) hcount
    · rw [save_reliable first registry false hsavable]
      change ∀ key ∈ savedKeys first registry (sampleProfile n), _
      rw [savedKeys_sample h hnames]
      intro key hkey
      obtain ⟨old, hold, rfl⟩ := List.mem_map.mp hkey
      rw [amend_name]
      cases List.mem_cons.mp hold with
      | inl hhead => exact ⟨n, Nat.lt_succ_self n, by rw [hhead]⟩
      | inr htail =>
        obtain ⟨m, hm, hid⟩ := hnames old htail
        exact ⟨m, Nat.lt_succ_of_lt hm, hid⟩

theorem load_crowded {saved : Bool} {registry : Registry} (h : ProperRegistry saved registry)
    (hcount : kMaximumProfiles < profileCount registry) : (load registry).error ≠ none := by
  cases registry with
  | none => exact absurd hcount (Nat.not_lt_zero _)
  | some launcher =>
    obtain ⟨values, profiles⟩ := launcher
    cases profiles with
    | none => exact absurd hcount (Nat.not_lt_zero _)
    | some keys =>
      obtain ⟨activeId, hactive, -⟩ := h.active
      have hread : readRegistryString (values .activeProfile) = some activeId := hactive
      simp only [load, hread]
      intro hnone
      have hloadable := (@loadLoop_error_iff activeId 0 [] keys (Nat.zero_le _) (Nat.zero_le _)).mp
        hnone
      have hall : keys.filter (fun key => validProfileId key.name) = keys :=
        List.filter_eq_self.mpr h.keys.valid
      have hlimit := hloadable.profiles
      rw [hall, List.length_nil, Nat.zero_add] at hlimit
      exact Nat.not_lt.mpr hlimit hcount

/-- With 64 profiles in the store one more can be saved, and then nothing can be loaded. -/
theorem full_store_unloadable : ∃ saved registry profile, Written first saved registry ∧
    profileCount registry ≤ 64 ∧ (save (reliable first) registry profile false).error = none ∧
    (load (save (reliable first) registry profile false).registry).error ≠ none := by
  obtain ⟨saved, registry, hwritten, hcount, hnames⟩ := @exists_count 64 (by decide)
  have hsavable : Savable (sampleProfile 64) := sampleProfile_savable (by decide)
  have hdone := (save_error_iff first registry (sampleProfile 64) false).mpr hsavable
  refine ⟨saved, registry, sampleProfile 64, hwritten, Nat.le_of_eq hcount, hdone, ?_⟩
  refine load_crowded (hwritten.save (sampleProfile 64) false hdone).proper ?_
  have hlength := length_savedKeys_sample hnames (by decide)
  rw [save_reliable first registry false hsavable]
  change kMaximumProfiles < (savedKeys first registry (sampleProfile 64)).length
  rw [hlength, ← profileCount, hcount]
  decide

end Limit

end FfbInterceptor.Manager
