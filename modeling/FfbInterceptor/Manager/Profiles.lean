import FfbInterceptor.Manager.Manifest

/-! The profiles of the manager in the registry of the user (`manager_model.cpp`). -/
namespace FfbInterceptor.Manager
open FfbInterceptor.Launcher

section Registry

/-- A value of the registry. A string has the units that are stored, with or without a terminator. -/
inductive RegistryValue where
  | string (units : WString)
  | dword (value : UInt32)
  | other
  deriving DecidableEq, Repr

inductive ValueName where
  | activeProfile
  | name
  | gamePath
  | arguments
  | simHubPath
  | autoStartSimHub
  deriving DecidableEq, Repr

abbrev Values := ValueName → Option RegistryValue

def Values.set (values : Values) (valueName : ValueName) (value : RegistryValue) : Values :=
  fun other => if other = valueName then some value else values other

structure ProfileKey where
  name : WString
  values : Values

structure LauncherKey where
  values : Values
  profiles : Option (List ProfileKey)

abbrev Registry := Option LauncherKey

def noValues : Values := fun _ => none

/-- Names of keys do not depend on case. -/
def sameName (left right : WString) : Bool := lowerCopy left = lowerCopy right

def kMaximumProfiles : Nat := 64
def kMaximumProfileSubkeys : Nat := 256
def kMaximumRegistryStringBytes : Nat := 64 * 1024

/-- The units `RegGetValueW` gives of a string, which it terminates. -/
def terminated (units : WString) : WString :=
  if units.getLast? = some 0 then units else units ++ [0]

/-- A missing value reads as the empty string. -/
def readRegistryString (value : Option RegistryValue) : Option WString :=
  match value with
  | none => some []
  | some (.string units) =>
    let buffer := terminated units
    let size := buffer.length * 2
    if size < 2 || kMaximumRegistryStringBytes < size then none
    else if buffer.getLast? ≠ some 0 || buffer.dropLast.contains 0 then none
    else some buffer.dropLast
  | some _ => none

/-- The value that is written for a string, unless it is too long or holds a NUL. -/
def registryString (value : WString) : Option RegistryValue :=
  if kMaximumRegistryStringBytes / 2 ≤ value.length || value.contains 0 then none
  else some (.string (value ++ [0]))

end Registry

section Profiles

structure Profile where
  id : WString
  name : WString := []
  gamePath : WString := []
  gameArguments : WString := []
  simhubPath : WString := []
  autoStartSimhub : Bool := true
  deriving DecidableEq, Repr

def isGuidDigit (c : UInt16) : Bool :=
  (0x30 ≤ c && c ≤ 0x39) || (0x61 ≤ c && c ≤ 0x66) || (0x41 ≤ c && c ≤ 0x46)

def hyphen : UInt16 := 0x2D
def openBrace : UInt16 := 0x7B
def closeBrace : UInt16 := 0x7D

/-- The text of `StringFromGUID2` for the identifier that `CLSIDFromString` reads. -/
def canonicalGuid (id : WString) : Option WString :=
  let groups := [1, 10, 15, 20, 25]
  let lengths := [8, 4, 4, 4, 12]
  if id.length = 38 && id.head? = some openBrace && id.getLast? = some closeBrace &&
      ([9, 14, 19, 24].all fun index => id.getD index 0 = hyphen) &&
      ((groups.zip lengths).all fun group => ((id.drop group.1).take group.2).all isGuidDigit) then
    some (id.map wideUpper)
  else none

def validProfileId (id : WString) : Bool :=
  if id.length ≠ 38 || id.head? ≠ some openBrace || id.getLast? ≠ some closeBrace then false
  else match canonicalGuid id with
    | none => false
    | some canonical => lowerCopy (cString id) = lowerCopy (cString canonical)

inductive LoadError where
  | malformedActive
  | cannotEnumerate
  | tooManySubkeys
  | tooManyProfiles
  | invalidString
  | malformedAutoStart
  deriving DecidableEq, Repr

def LoadError.text : LoadError → String
  | .malformedActive => "目前使用中的設定檔格式錯誤。"
  | .cannotEnumerate => "列舉遊戲設定檔時發生錯誤。"
  | .tooManySubkeys => "遊戲設定檔的登錄子機碼數量超過安全上限。"
  | .tooManyProfiles => "遊戲設定檔數量超過 64 個上限。"
  | .invalidString => "遊戲設定檔含有無效或過大的字串。"
  | .malformedAutoStart => "SimHub 自動啟動偏好格式錯誤。"

/-- What `load` returns and leaves in its outputs. -/
structure Loaded where
  profiles : List Profile
  activeId : WString
  error : Option LoadError
  deriving DecidableEq, Repr

def unnamed : WString := wide "未命名遊戲"

def readAutoStart (value : Option RegistryValue) : Option Bool :=
  match value with
  | none => some true
  | some (.dword value) => some (value ≠ 0)
  | some _ => none

def readProfile (key : ProfileKey) : Except LoadError Profile :=
  match readRegistryString (key.values .name), readRegistryString (key.values .gamePath),
      readRegistryString (key.values .arguments), readRegistryString (key.values .simHubPath) with
  | some name, some gamePath, some gameArguments, some simhubPath =>
    match readAutoStart (key.values .autoStartSimHub) with
    | none => .error .malformedAutoStart
    | some autoStartSimhub =>
      .ok ⟨key.name, if name.isEmpty then unnamed else name, gamePath, gameArguments, simhubPath,
        autoStartSimhub⟩
  | _, _, _, _ => .error .invalidString

/-- The loop over the subkeys. The buffer for a name takes 63 units. -/
def loadLoop (activeId : WString) (index : Nat) (profiles : List Profile) : List ProfileKey → Loaded
  | [] =>
    ⟨profiles, if !activeId.isEmpty && !validProfileId activeId then [] else activeId, none⟩
  | key :: keys =>
    if 64 ≤ key.name.length then ⟨profiles, activeId, some .cannotEnumerate⟩
    else if kMaximumProfileSubkeys ≤ index then ⟨profiles, activeId, some .tooManySubkeys⟩
    else if !validProfileId key.name then loadLoop activeId (index + 1) profiles keys
    else if kMaximumProfiles ≤ profiles.length then ⟨profiles, activeId, some .tooManyProfiles⟩
    else match readProfile key with
      | .error error => ⟨profiles, activeId, some error⟩
      | .ok profile => loadLoop activeId (index + 1) (profiles ++ [profile]) keys

def load (registry : Registry) : Loaded :=
  match registry with
  | none => ⟨[], [], none⟩
  | some launcher =>
    match readRegistryString (launcher.values .activeProfile) with
    | none => ⟨[], [], some .malformedActive⟩
    | some activeId =>
      match launcher.profiles with
      | none => ⟨[], [], none⟩
      | some keys => loadLoop activeId 0 [] keys

end Profiles

section Saving

/-- The operations on the registry that the store asks for, each of which may fail. -/
inductive RegistryOperation where
  | createKey
  | writeName
  | writeGamePath
  | writeArguments
  | writeSimHubPath
  | writeAutoStart
  | openRoot
  | writeActive
  | deleteTree
  deriving DecidableEq, Repr

inductive StoreError where
  | invalidProfile
  | cannotSave
  | cannotSaveAutoStart
  | invalidErase
  | cannotErase
  | invalidActive
  | cannotActivate
  deriving DecidableEq, Repr

def StoreError.text : StoreError → String
  | .invalidProfile => "設定檔欄位為空、過長或識別碼無效。"
  | .cannotSave => "無法儲存目前使用者的遊戲設定檔。"
  | .cannotSaveAutoStart => "無法儲存 SimHub 啟動偏好。"
  | .invalidErase => "拒絕刪除識別碼無效的設定檔。"
  | .cannotErase => "無法刪除遊戲設定檔。"
  | .invalidActive => "使用中的設定檔識別碼無效。"
  | .cannotActivate => "無法更新目前使用中的設定檔。"

/-- An operation that has succeeded or failed, and the registry it leaves. -/
structure Stored where
  error : Option StoreError
  registry : Registry

/-- Which operations succeed, and where in the order of enumeration a new key comes. -/
structure Answers where
  succeeds : RegistryOperation → Bool
  place : List WString → WString → Nat

variable (answers : Answers)

def createRoot (registry : Registry) : LauncherKey := registry.getD ⟨noValues, none⟩

/-- `RegCreateKeyExW` for the key of a profile: it opens the key of that name or makes one. -/
def createProfileKey (registry : Registry) (id : WString) : LauncherKey :=
  let launcher := createRoot registry
  let keys := launcher.profiles.getD []
  if keys.any (fun key => sameName key.name id) then { launcher with profiles := some keys }
  else
    let index := answers.place (keys.map ProfileKey.name) id
    { launcher with profiles := some (keys.take index ++ ⟨id, noValues⟩ :: keys.drop index) }

def ProfileKey.setValue (id : WString) (valueName : ValueName) (value : RegistryValue)
    (key : ProfileKey) : ProfileKey :=
  if sameName key.name id then { key with values := key.values.set valueName value } else key

/-- A write through a handle on the key of a profile. -/
def LauncherKey.setValue (launcher : LauncherKey) (id : WString) (valueName : ValueName)
    (value : RegistryValue) : LauncherKey :=
  { launcher with
    profiles := launcher.profiles.map (List.map (ProfileKey.setValue id valueName value)) }

def saveWrites (profile : Profile) :
    List (RegistryOperation × ValueName × Option RegistryValue × StoreError) :=
  [(.writeName, .name, registryString profile.name, .cannotSave),
    (.writeGamePath, .gamePath, registryString profile.gamePath, .cannotSave),
    (.writeArguments, .arguments, registryString profile.gameArguments, .cannotSave),
    (.writeSimHubPath, .simHubPath, registryString profile.simhubPath, .cannotSave),
    (.writeAutoStart, .autoStartSimHub, some (.dword (if profile.autoStartSimhub then 1 else 0)),
      .cannotSaveAutoStart)]

def writeLoop (id : WString) (launcher : LauncherKey) :
    List (RegistryOperation × ValueName × Option RegistryValue × StoreError) →
      Option StoreError × LauncherKey
  | [] => (none, launcher)
  | (operation, valueName, value, error) :: writes =>
    match value with
    | none => (some error, launcher)
    | some value =>
      if answers.succeeds operation then writeLoop id (launcher.setValue id valueName value) writes
      else (some error, launcher)

def setActive (registry : Registry) (id : WString) : Stored :=
  if !validProfileId id then ⟨some .invalidActive, registry⟩
  else if !answers.succeeds .openRoot then ⟨some .cannotActivate, registry⟩
  else
    let launcher := createRoot registry
    match registryString id with
    | none => ⟨some .cannotActivate, some launcher⟩
    | some value =>
      if answers.succeeds .writeActive then
        ⟨none, some { launcher with values := launcher.values.set .activeProfile value }⟩
      else ⟨some .cannotActivate, some launcher⟩

def isSavable (profile : Profile) : Bool :=
  !(!validProfileId profile.id || profile.name.isEmpty || 200 < profile.name.length ||
    32767 < profile.gamePath.length || 32767 < profile.gameArguments.length ||
    32767 < profile.simhubPath.length || profile.name.contains 0 || profile.gamePath.contains 0 ||
    profile.gameArguments.contains 0 || profile.simhubPath.contains 0)

def save (registry : Registry) (profile : Profile) (makeActive : Bool) : Stored :=
  if !isSavable profile then ⟨some .invalidProfile, registry⟩
  else if !answers.succeeds .createKey then ⟨some .cannotSave, registry⟩
  else match writeLoop answers profile.id (createProfileKey answers registry profile.id)
      (saveWrites profile) with
    | (some error, launcher) => ⟨some error, some launcher⟩
    | (none, launcher) =>
      if makeActive then setActive answers (some launcher) profile.id else ⟨none, some launcher⟩

/-- `RegDeleteTreeW`, which finds nothing to delete or deletes the key. -/
def deleteProfileKey (registry : Registry) (id : WString) : Registry :=
  registry.map fun launcher => { launcher with
    profiles := launcher.profiles.map (List.filter fun key => !sameName key.name id) }

def erase (registry : Registry) (id : WString) : Stored :=
  if !validProfileId id then ⟨some .invalidErase, registry⟩
  else if !answers.succeeds .deleteTree then ⟨some .cannotErase, registry⟩
  else ⟨none, deleteProfileKey registry id⟩

end Saving

end FfbInterceptor.Manager
