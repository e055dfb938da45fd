import FfbInterceptor.Library.Dialogue
import FfbInterceptor.Library.Substring
import FfbInterceptor.Server.Client
import Mathlib.Data.List.DropRight

/-! The publication of a release on GitHub (`publish-release-assets.ps1`, `release-api.ps1`), as a
dialogue with GitHub and the files of the release. The temporary directory is left out. -/
namespace FfbInterceptor.Release.Publisher
open Library
open Library.Dialogue (ask fail)
open Server (isWhiteSpace)

abbrev Text := List Char

def text (literal : String) : Text := literal.toList

def number (value : Int) : Text := (toString value).toList

section Json

inductive Json where
  | null
  | bool (value : Bool)
  | number (digits : Text)
  | string (value : Text)
  | array (items : List Json)
  | object (fields : List (Text × Json))

/-- `$value.PSObject.Properties[name]`; names are written in small letters. -/
def Json.property (name : Text) : Json → Option Json
  | .object fields => (fields.find? fun field => field.1.map Char.toLower = name).map Prod.snd
  | _ => none

end Json

/-- What PowerShell does with values and texts: the conversions, the comparison behind `-ceq`, the
groups of `Group-Object`, and the letters and digits of a pattern that ignores case. -/
structure PowerShell where
  convertFromJson : Text → Option Json
  toText : Json → Text
  toLong : Json → Option Int
  tryParseLong : Text → Option Int
  ceq : Text → Text → Bool
  sameGroup : Option Json → Option Json → Bool
  isLetter : Char → Bool
  isDigit : Char → Bool
  sameGroup_refl : ∀ name, sameGroup name name = true

section Patterns

variable (ps : PowerShell)

def isVersionNumber : Text → Bool
  | [] => false
  | first :: rest => (first = '0' && rest = []) || ('1' ≤ first && first ≤ '9' && rest.all ps.isDigit)

def isReleaseTag : Text → Bool
  | 'v' :: version => (version.splitOn '.').length = 3 && (version.splitOn '.').all (isVersionNumber ps)
  | _ => false

def isPlainLetter (c : Char) : Bool := ps.isLetter c || ('0' ≤ c && c ≤ '9')

def isRepository (repository : Text) : Bool :=
  (repository.splitOn '/').length = 2 && (repository.splitOn '/').all fun part =>
    !part.isEmpty && part.all fun c => isPlainLetter ps c || c = '_' || c = '.' || c = '-'

def isAssetName : Text → Bool
  | [] => false
  | first :: rest => isPlainLetter ps first &&
      rest.all fun c => isPlainLetter ps c || c = '.' || c = '_' || c = '-'

/-- The digits behind `sha256:`, where `$` lets one line feed through at the end. -/
def digestOf (digest : Text) : Option Text :=
  let digits := digest.drop 7
  let digits := if digits.getLast? = some '\n' then digits.dropLast else digits
  if (digest.take 7).map Char.toLower = text "sha256:" && digits.length = 64 &&
      digits.all fun c => ('0' ≤ c && c ≤ '9') || ('a' ≤ c.toLower && c.toLower ≤ 'f') then
    some digits
  else none

end Patterns

section Notes

def startMarker : Text := text "<!-- ffb-generated:start -->"

def endMarker : Text := text "<!-- ffb-generated:end -->"

def replaceAll (pattern replacement : Text) : (skip : Nat) → Text → Text
  | _, [] => []
  | skip + 1, _ :: rest => replaceAll pattern replacement skip rest
  | 0, c :: rest =>
    if pattern.isPrefixOf (c :: rest) then
      replacement ++ replaceAll pattern replacement (pattern.length - 1) rest
    else c :: replaceAll pattern replacement 0 rest

def trim (value : Text) : Text := (value.dropWhile isWhiteSpace).rdropWhile isWhiteSpace

def generatedNotes (notesTemplate tag channelNotice : Text) : Text :=
  let generated := replaceAll (text "\x7b\x7bTAG\x7d\x7d") tag 0 notesTemplate
  let generated := replaceAll (text "\x7b\x7bVERSION\x7d\x7d") tag.tail 0 generated
  trim (replaceAll (text "\x7b\x7bCHANNEL_NOTICE\x7d\x7d") channelNotice 0 generated)

def generatedBlock (generated : Text) : Text := startMarker ++ '\n' :: generated ++ '\n' :: endMarker

def cut (part value : Text) : Option (Text × Text) :=
  (Substring.find part value).map fun place => (value.take place, value.drop (place + part.length))

def markerMatch (body : Text) : Option (Text × Text) :=
  (cut startMarker body).bind fun opened =>
    (cut endMarker opened.2).map fun closed => (opened.1, closed.2)

/-- The notes take the place of those of an earlier run, or follow what the body says. -/
def mergeBody (existingBody block : Text) : Except Text Text :=
  match markerMatch existingBody with
  | some (before, behind) =>
    if (markerMatch behind).isSome then
      .error (text "Existing release body has duplicate generated-note markers.")
    else .ok (before ++ block ++ behind)
  | none =>
    if existingBody.all isWhiteSpace then .ok block
    else .ok (existingBody.rdropWhile isWhiteSpace ++ text "\n\n" ++ block)

end Notes

section Calls

structure Listing where
  exitCode : Int
  response : List Text
  deriving DecidableEq, Repr

structure FinalizeRequest where
  tagName : Text
  name : Text
  body : Text
  draft : Bool
  prerelease : Bool
  deriving DecidableEq, Repr

/-- A release is addressed by its tag in a new draft, and by its number after that. -/
inductive Call where
  | listReleases
  | getFileHash (name : Text)
  | download (name : Text)
  | downloadedHash (name : Text)
  | createDraft (tag title body : Text)
  | readToken
  | getItem (name : Text)
  | upload (releaseId : Int) (name : Text)
  | finalize (releaseId : Int) (request : FinalizeRequest)
  | sleep
  deriving DecidableEq, Repr

/-- Exit codes of `gh`; `none` and `false` are failures. -/
@[reducible] def Answer : Call → Type
  | .listReleases => Listing
  | .getFileHash _ => Option Text
  | .download _ => Int
  | .downloadedHash _ => Option Text
  | .createDraft _ _ _ => Int
  | .readToken => Text
  | .getItem _ => Bool
  | .upload _ _ => Int
  | .finalize _ _ => Int
  | .sleep => PUnit

end Calls

abbrev Publish (α : Type) := Dialogue Answer Text α

/-- What may fail without a call. -/
def lift {α : Type} : Except Text α → Publish α
  | .ok a => pure a
  | .error error => fail error

section Reading

variable (ps : PowerShell)

/-- The release document that `Get-FFBUniqueReleaseByTag` has checked. -/
structure ReleaseDocument where
  id : Int
  draft : Bool
  prerelease : Bool
  immutable : Bool
  assets : List Json
  document : Json

def pageDocuments : Json → Except Text (List Json)
  | .array documents => .ok documents
  | _ => .error (text "GitHub releases list query contained a non-array page.")

def readPages (tag : Text) (listing : Listing) : Except Text (List Json) :=
  if listing.exitCode ≠ 0 then
    .error (text "GitHub releases list query failed for " ++ tag ++ text " (exit " ++
      number listing.exitCode ++ text ").")
  else if listing.response = [] then
    .error (text "GitHub releases list query returned an empty response for " ++ tag ++ text ".")
  else
    match ps.convertFromJson
        (text "\x7b\"pages\":" ++ (listing.response.intersperse ['\n']).flatten ++ text "\x7d") with
    | none => .error (text "GitHub releases list query returned malformed JSON for " ++ tag ++ text ".")
    | some parsed =>
      match parsed.property (text "pages") with
      | some (.array pages) => (pages.mapM pageDocuments).map List.flatten
      | _ => .error (text "GitHub releases list query did not return an outer page array.")

def tagOf : Json → Except Text Text
  | .null => .error (text "GitHub releases list contained a null release document.")
  | document =>
    match document.property (text "tag_name") with
    | some (.string value) =>
      if value.all isWhiteSpace then
        .error (text "GitHub releases list contained a release without a valid tag_name.")
      else .ok value
    | _ => .error (text "GitHub releases list contained a release without a valid tag_name.")

def matchingDocuments (tag : Text) : List Json → Except Text (List Json)
  | [] => .ok []
  | document :: rest => do
    let value ← tagOf document
    let later ← matchingDocuments tag rest
    pure (if ps.ceq value tag then document :: later else later)

def readId (tag : Text) (document : Json) : Except Text Int :=
  match (document.property (text "id")).bind fun value => ps.tryParseLong (ps.toText value) with
  | some id =>
    if id ≤ 0 then .error (text "GitHub release " ++ tag ++ text " has an invalid release ID.")
    else .ok id
  | none => .error (text "GitHub release " ++ tag ++ text " has an invalid release ID.")

def readBoolean (tag name : Text) (document : Json) : Except Text Bool :=
  match document.property name with
  | some (.bool value) => .ok value
  | _ => .error (text "GitHub release " ++ tag ++ text " has an invalid " ++ name ++ text " field.")

def readAssets (tag : Text) (document : Json) : Except Text (List Json) :=
  match document.property (text "assets") with
  | some (.array assets) => .ok assets
  | _ => .error (text "GitHub release " ++ tag ++ text " has an invalid assets field.")

def readRelease (tag : Text) (expectedId : Int) (document : Json) : Except Text ReleaseDocument := do
  let id ← readId ps tag document
  let draft ← readBoolean tag (text "draft") document
  let prerelease ← readBoolean tag (text "prerelease") document
  let immutable ← readBoolean tag (text "immutable") document
  let assets ← readAssets tag document
  if draft && immutable then
    .error (text "GitHub release " ++ tag ++
      text " is both draft and immutable; refusing an inconsistent state.")
  else if 0 < expectedId && id ≠ expectedId then
    .error (text "Pinned release ID changed for " ++ tag ++ text ": expected " ++ number expectedId ++
      text ", got " ++ number id ++ text ".")
  else pure ⟨id, draft, prerelease, immutable, assets, document⟩

def readListing (tag : Text) (expectedId : Int) (listing : Listing) :
    Except Text (Option ReleaseDocument) := do
  let documents ← readPages ps tag listing
  match ← matchingDocuments ps tag documents with
  | [] =>
    if 0 < expectedId then
      .error (text "Pinned release " ++ number expectedId ++ text " for " ++ tag ++
        text " disappeared from the GitHub releases list.")
    else pure none
  | [document] => return some (← readRelease ps tag expectedId document)
  | _ =>
    .error (text "GitHub releases list contains multiple releases for exact tag " ++ tag ++ text ".")

def getUniqueReleaseByTag (repository tag : Text) (expectedId : Int) :
    Publish (Option ReleaseDocument) :=
  if !isRepository ps repository then fail (text "Invalid repository: " ++ repository)
  else if !isReleaseTag ps tag then fail (text "Invalid release tag: " ++ tag)
  else if expectedId < 0 then fail (text "Expected release ID cannot be negative.")
  else do
    let listing ← ask Call.listReleases
    lift (readListing ps tag expectedId listing)

def assertMutableReleaseDraft (tag : Text) (release : ReleaseDocument) : Publish PUnit :=
  if !release.draft then
    fail (text "Release " ++ tag ++
      text " is already published; refusing to mutate public release state.")
  else if release.immutable then
    fail (text "Release " ++ tag ++ text " is immutable; refusing to mutate release state.")
  else pure ⟨⟩

end Reading

section Checking

variable (ps : PowerShell)

structure Item where
  name : Text
  length : Nat
  isFile : Bool := true
  reparsePoint : Bool := false
  deriving DecidableEq, Repr

/-- Strict mode refuses a property that is not there. -/
def requireProperty (name : Text) (value : Json) : Except Text Json :=
  match value.property name with
  | some found => .ok found
  | none => .error (text "The property '" ++ name ++ text "' cannot be found on this object.")

def hasDuplicateNames : List Json → Bool
  | [] => false
  | asset :: rest =>
    rest.any (fun other => ps.sameGroup (asset.property (text "name")) (other.property (text "name"))) ||
      hasDuplicateNames rest

def readNames : List Json → Except Text (List (Text × Json))
  | [] => .ok []
  | remote :: rest => do
    let name ← requireProperty (text "name") remote
    let later ← readNames rest
    pure ((ps.toText name, remote) :: later)

def requireLocalNames (assets : List Item) (named : List (Text × Json)) : Except Text Unit :=
  match named.find? fun remote => !assets.any fun asset => asset.name = remote.1 with
  | some remote => .error (text "Release contains an unexpected immutable asset: " ++ remote.1)
  | none => .ok ()

def namedAssets (assets : List Item) (remoteAssets : List Json) : Except Text (List (Text × Json)) := do
  let named ← readNames ps remoteAssets
  requireLocalNames assets named
  pure named

def hexLower (hash : Text) : Text := hash.map Char.toLower

def requireFileHash (name : Text) : Publish Text := do
  match ← ask (Call.getFileHash name) with
  | none => fail (text "Cannot read " ++ name)
  | some hash => pure (hexLower hash)

def verifyDownload (asset : Item) (localHash : Text) : Publish PUnit := do
  let exitCode ← ask (Call.download asset.name)
  if exitCode ≠ 0 then fail (text "Unable to verify existing release asset: " ++ asset.name)
  else
    match ← ask (Call.downloadedHash asset.name) with
    | none => fail (text "Immutable release asset differs in content: " ++ asset.name)
    | some hash =>
      if ps.ceq (hexLower hash) localHash then pure ⟨⟩
      else fail (text "Immutable release asset differs in content: " ++ asset.name)

def remoteDigest (remote : Json) : Option Text :=
  ((remote.property (text "digest")).map ps.toText).bind digestOf

/-- The size, and the digest that GitHub tells or else the content. -/
def verifyAsset (asset : Item) (remote : Json) : Publish PUnit := do
  let size ← lift (requireProperty (text "size") remote)
  match ps.toLong size with
  | none => fail (text "Cannot convert the size of " ++ asset.name)
  | some size =>
    if size ≠ asset.length then fail (text "Immutable release asset differs in size: " ++ asset.name)
    else
      let localHash ← requireFileHash asset.name
      match remoteDigest ps remote with
      | some digest =>
        if ps.ceq localHash (hexLower digest) then pure ⟨⟩
        else fail (text "Immutable release asset differs in digest: " ++ asset.name)
      | none => verifyDownload ps asset localHash

def missingLoop (remoteAssets : List (Text × Json)) : List Item → Publish (List Item)
  | [] => pure []
  | asset :: rest =>
    match remoteAssets.find? fun remote => ps.ceq remote.1 asset.name with
    | none => do
      let missing ← missingLoop remoteAssets rest
      pure (asset :: missing)
    | some remote => do
      verifyAsset ps asset remote.2
      missingLoop remoteAssets rest

def getMissingReleaseAssetPaths (assets : List Item) (release : ReleaseDocument) : Publish (List Item) :=
  if hasDuplicateNames ps release.assets then fail (text "Release contains duplicate asset names.")
  else do
    let remoteAssets ← lift (namedAssets ps assets release.assets)
    missingLoop ps remoteAssets assets

end Checking

section Publishing

variable (ps : PowerShell)

/-- The arguments; `assets` are the entries of the directory, sorted, and `none` is an expectation that
is not given. -/
structure Parameters where
  assets : List Item
  tag : Text
  repository : Text
  expectedAssetNames : List Text
  title : Text
  notesTemplate : Text
  channelNotice : Text := text "UNSIGNED EXPERIMENTAL - command telemetry only; not motor torque."
  expectedReleaseId : Option Int := none
  prerelease : Bool := false
  deriving DecidableEq, Repr

def Item.isSafe (asset : Item) : Bool :=
  asset.isFile && !asset.reparsePoint && isAssetName ps asset.name && decide (0 < asset.length)

def expectedNamesLoop : (seen : List Text) → List Text → Except Text (List Text)
  | seen, [] => .ok seen
  | seen, name :: rest =>
    if !isAssetName ps name || seen.contains name then
      .error (text "Invalid or duplicate expected release asset name: " ++ name)
    else expectedNamesLoop (name :: seen) rest

variable (p : Parameters)

def Parameters.check : Except Text Unit := do
  if !isReleaseTag ps p.tag then .error (text "Invalid release tag: " ++ p.tag) else
  if !isRepository ps p.repository then .error (text "Invalid repository: " ++ p.repository) else
  if p.expectedReleaseId.any (· < 0) then .error (text "ExpectedReleaseId cannot be negative.") else
  if p.assets.length = 0 || 64 < p.assets.length then
    .error (text "Release must contain between 1 and 64 assets.")
  else
  match p.assets.find? fun asset => !asset.isSafe ps with
  | some asset => .error (text "Unsafe or empty release asset: " ++ asset.name)
  | none =>
    let expected ← expectedNamesLoop ps [] p.expectedAssetNames
    if expected.length ≠ p.assets.length then
      .error (text "Local release asset count does not match the expected set (" ++
        number p.assets.length ++ text " != " ++ number expected.length ++ text ").")
    else
      match p.assets.find? fun asset => !expected.contains asset.name with
      | some asset => .error (text "Local release contains an unexpected asset: " ++ asset.name)
      | none => pure ()

/-- A release that is expected by its number cannot be missing. -/
def getPinnedRelease (releaseId : Int) : Publish ReleaseDocument := do
  match ← getUniqueReleaseByTag ps p.repository p.tag releaseId with
  | some release => pure release
  | none => fail (text "Cannot bind argument to parameter 'ReleaseDocument' because it is null.")

def findRelease : Publish (Option ReleaseDocument) :=
  match p.expectedReleaseId with
  | none => getUniqueReleaseByTag ps p.repository p.tag 0
  | some expectedId =>
    if 0 < expectedId then do
      let release ← getPinnedRelease ps p expectedId
      assertMutableReleaseDraft p.tag release
      pure (some release)
    else do
      match ← getUniqueReleaseByTag ps p.repository p.tag 0 with
      | none => pure none
      | some _ =>
        fail (text "Release " ++ p.tag ++
          text " appeared after preflight reported an empty publication slot.")

def bodyOf : Option ReleaseDocument → Except Text Text
  | none => .ok []
  | some release => do
    let body ← requireProperty (text "body") release.document
    pure (ps.toText body)

def releaseBody (release : Option ReleaseDocument) : Except Text Text := do
  let existingBody ← bodyOf ps release
  mergeBody existingBody (generatedBlock (generatedNotes p.notesTemplate p.tag p.channelNotice))

def hasTexts (body : Text) (release : ReleaseDocument) : Except Text Bool := do
  let name ← requireProperty (text "name") release.document
  if !ps.ceq (ps.toText name) p.title then pure false
  else
    let remoteBody ← requireProperty (text "body") release.document
    pure (ps.ceq (ps.toText remoteBody) body)

/-- A release that is public already must be the one that was asked for. -/
def confirmPublished (body : Text) (release : ReleaseDocument) : Publish PUnit := do
  if !release.immutable then
    fail (text "Published release " ++ p.tag ++
      text " is not immutable; refusing to trust or mutate it.")
  else
    let missing ← getMissingReleaseAssetPaths ps p.assets release
    let differs := text "Published immutable release " ++ p.tag ++
      text " does not exactly match the requested release."
    if missing ≠ [] then fail differs
    else
      let same ← lift (hasTexts ps p body release)
      if !same || release.prerelease ≠ p.prerelease then fail differs else pure ⟨⟩

def createRelease (body : Text) : Publish Int := do
  let exitCode ← ask (Call.createDraft p.tag p.title body)
  if exitCode ≠ 0 then fail (text "Unable to create draft release " ++ p.tag ++ text ".")
  else
    match ← getUniqueReleaseByTag ps p.repository p.tag 0 with
    | none => fail (text "Created draft release " ++ p.tag ++ text " could not be read back.")
    | some release => pure release.id

def uploadLoop (releaseId : Int) : List Item → Publish PUnit
  | [] => pure ⟨⟩
  | asset :: rest => do
    if ← ask (Call.getItem asset.name) then
      let exitCode ← ask (Call.upload releaseId asset.name)
      if exitCode ≠ 0 then
        fail (text "Unable to upload new immutable asset " ++ asset.name ++ text " for " ++ p.tag ++
          text ".")
      else uploadLoop releaseId rest
    else fail (text "Cannot find path of " ++ asset.name)

def uploadMissing (releaseId : Int) (missing : List Item) : Publish PUnit :=
  if missing = [] then pure ⟨⟩
  else do
    let token ← ask Call.readToken
    if token.all isWhiteSpace then
      fail (text "GH_TOKEN is required for numeric-ID release asset upload.")
    else uploadLoop p releaseId missing

/-- A draft that may still be changed, as GitHub tells now, and what it does not have yet. -/
def readDraft (releaseId : Int) : Publish (List Item) := do
  let release ← getPinnedRelease ps p releaseId
  assertMutableReleaseDraft p.tag release
  getMissingReleaseAssetPaths ps p.assets release

def finalizeRequest (body : Text) : FinalizeRequest := ⟨p.tag, p.title, body, false, p.prerelease⟩

/-- The immutable flag may show late; the rest may not. -/
def readBack (releaseId : Int) (body : Text) : (attempts : Nat) → Publish ReleaseDocument
  | 0 => fail (text "Final release state for " ++ p.tag ++
      text " did not become immutable after publication.")
  | attempts + 1 => do
    let release ← getPinnedRelease ps p releaseId
    let differs := text "Final release state for " ++ p.tag ++
      text " did not match the verified publication request."
    if release.draft || release.prerelease ≠ p.prerelease then fail differs
    else
      let same ← lift (hasTexts ps p body release)
      if !same then fail differs
      else if release.immutable then pure release
      else if attempts = 0 then readBack releaseId body attempts
      else do
        let _ ← ask Call.sleep
        readBack releaseId body attempts

def completeRelease (releaseId : Int) (body : Text) : Publish PUnit := do
  let missing ← readDraft ps p releaseId
  uploadMissing p releaseId missing
  let stillMissing ← readDraft ps p releaseId
  if stillMissing ≠ [] then
    fail (text "Release " ++ p.tag ++ text " is still missing " ++ number stillMissing.length ++
      text " immutable asset(s) after upload.")
  else
    let exitCode ← ask (Call.finalize releaseId (finalizeRequest p body))
    if exitCode ≠ 0 then fail (text "Unable to finalize release metadata for " ++ p.tag ++ text ".")
    else
      let release ← readBack ps p releaseId body 6
      let finalMissing ← getMissingReleaseAssetPaths ps p.assets release
      if finalMissing ≠ [] then
        fail (text "Final release state for " ++ p.tag ++ text " is missing " ++
          number finalMissing.length ++ text " immutable asset(s).")
      else pure ⟨⟩

def publishReleaseAssets : Publish PUnit := do
  lift (p.check ps)
  let release ← findRelease ps p
  let body ← lift (releaseBody ps p release)
  match release with
  | none => do
    let releaseId ← createRelease ps p body
    completeRelease ps p releaseId body
  | some release =>
    if release.draft then completeRelease ps p release.id body
    else confirmPublished ps p body release

end Publishing

end FfbInterceptor.Release.Publisher
