import FfbInterceptor.Library.Deciding
import FfbInterceptor.Release.Publisher

/-! What the publisher may do to a release on GitHub, and what it has seen when it succeeds. -/
namespace FfbInterceptor.Release.Publisher
open Library
open Library.Dialogue (ask fail Ensures Guarded Records Yields Brief Only Transcript only_nil only_cons
  only_append guarded_nil)

abbrev History := List (Exchange Answer)

section Calls

def Call.checks : Call → Bool
  | .getFileHash _ | .download _ | .downloadedHash _ => true
  | _ => false

/-- Calls that may follow the first look at a draft. -/
def Call.fills (releaseId : Int) : Call → Bool
  | .getFileHash _ | .download _ | .downloadedHash _ | .readToken | .getItem _ => true
  | .upload id _ => id = releaseId
  | _ => false

def Call.mutates : Call → Bool
  | .createDraft _ _ _ | .upload _ _ | .finalize _ _ => true
  | _ => false

def Call.finalizes : Call → Bool
  | .finalize _ _ => true
  | _ => false

def Checks (e : Exchange Answer) : Prop := e.1.checks = true
def Fills (releaseId : Int) (e : Exchange Answer) : Prop := e.1.fills releaseId = true

theorem Checks.fills {e : Exchange Answer} {releaseId : Int} (h : Checks e) : Fills releaseId e := by
  obtain ⟨call, answer⟩ := e
  cases call <;> first | rfl | cases h

theorem Fills.not_finalizes {e : Exchange Answer} {releaseId : Int} (h : Fills releaseId e) :
    e.1.finalizes = false := by
  obtain ⟨call, answer⟩ := e
  cases call <;> first | rfl | cases h

end Calls

section Seen

variable (ps : PowerShell) (p : Parameters)

/-- The file has the size of the remote asset, and its hash is that of what GitHub has. -/
def Verified (asset : Item) (remote : Json) (since : History) : Prop :=
  (∃ size, remote.property (text "size") = some size ∧ ps.toLong size = some asset.length) ∧
    ∃ hash, ⟨.getFileHash asset.name, some hash⟩ ∈ since ∧
      ((∃ digest, remoteDigest ps remote = some digest ∧
          ps.ceq (hexLower hash) (hexLower digest) = true) ∨
        (remoteDigest ps remote = none ∧ ⟨.download asset.name, (0 : Int)⟩ ∈ since ∧
          ∃ downloaded, ⟨.downloadedHash asset.name, some downloaded⟩ ∈ since ∧
            ps.ceq (hexLower downloaded) (hexLower hash) = true))

def IsNamed (remote : Json) (name : Text) : Prop :=
  ∃ value, remote.property (text "name") = some value ∧ ps.ceq (ps.toText value) name = true

structure Complete (release : ReleaseDocument) (since : History) : Prop where
  distinct : (release.assets.map fun remote => remote.property (text "name")).Nodup
  expected : ∀ remote ∈ release.assets, ∃ value, remote.property (text "name") = some value ∧
    ∃ asset ∈ p.assets, asset.name = ps.toText value
  verified : ∀ asset ∈ p.assets, ∃ remote ∈ release.assets, IsNamed ps remote asset.name ∧
    Verified ps asset remote since

/-- What is missing on GitHub, and everything else is as it should be. -/
structure Inspected (release : ReleaseDocument) (missing : List Item) (since : History) : Prop where
  distinct : (release.assets.map fun remote => remote.property (text "name")).Nodup
  expected : ∀ remote ∈ release.assets, ∃ value, remote.property (text "name") = some value ∧
    ∃ asset ∈ p.assets, asset.name = ps.toText value
  lacks : ∀ asset ∈ missing, asset ∈ p.assets ∧
    ∀ remote ∈ release.assets, ¬IsNamed ps remote asset.name
  verified : ∀ asset ∈ p.assets, asset ∈ missing ∨ ∃ remote ∈ release.assets,
    IsNamed ps remote asset.name ∧ Verified ps asset remote since

/-- GitHub has told that the release with this number is a draft. -/
def ShowsDraft (releaseId : Int) (listing : Listing) (release : ReleaseDocument) : Prop :=
  readListing ps p.tag releaseId listing = .ok (some release) ∧ release.id = releaseId ∧
    release.draft = true ∧ release.immutable = false

/-- The release whose number is pinned from here on was there as a draft, or was created. -/
inductive Opening (releaseId : Int) (body : Text) : History → Prop where
  | found (listing : Listing) (release : ReleaseDocument)
      (hread : readListing ps p.tag (p.expectedReleaseId.getD 0) listing = .ok (some release))
      (hexpected : p.expectedReleaseId ≠ some 0) (hid : release.id = releaseId)
      (hdraft : release.draft = true) (hbody : releaseBody ps p (some release) = .ok body) :
      Opening releaseId body [⟨.listReleases, listing⟩]
  | created (listing listing' : Listing) (release : ReleaseDocument)
      (hread : readListing ps p.tag 0 listing = .ok none)
      (hexpected : ∀ expectedId, p.expectedReleaseId = some expectedId → expectedId ≤ 0)
      (hbody : releaseBody ps p none = .ok body)
      (hcreated : readListing ps p.tag 0 listing' = .ok (some release)) (hid : release.id = releaseId) :
      Opening releaseId body [⟨.listReleases, listing⟩, ⟨.createDraft p.tag p.title body, (0 : Int)⟩,
        ⟨.listReleases, listing'⟩]

/-- What allows a call that changes the release. -/
def Justified (front : History) : Call → Prop
  | .createDraft tag title body => tag = p.tag ∧ title = p.title ∧ releaseBody ps p none = .ok body ∧
      (∀ expectedId, p.expectedReleaseId = some expectedId → expectedId ≤ 0) ∧
      ∃ listing, front = [⟨.listReleases, listing⟩] ∧ readListing ps p.tag 0 listing = .ok none
  | .upload releaseId name => ∃ body opening listing release since,
      front = opening ++ ⟨.listReleases, listing⟩ :: since ∧ Opening ps p releaseId body opening ∧
      ShowsDraft ps p releaseId listing release ∧ Only (Fills releaseId) since ∧
      (∃ asset ∈ p.assets, asset.name = name) ∧ ∀ remote ∈ release.assets, ¬IsNamed ps remote name
  | .finalize releaseId request => ∃ body opening listing release between listing' release' since,
      front = opening ++ ⟨.listReleases, listing⟩ :: (between ++ ⟨.listReleases, listing'⟩ :: since) ∧
      Opening ps p releaseId body opening ∧ request = finalizeRequest p body ∧
      ShowsDraft ps p releaseId listing release ∧ Only (Fills releaseId) between ∧
      ShowsDraft ps p releaseId listing' release' ∧ Only Checks since ∧ Complete ps p release' since
  | _ => True

structure IsPublished (body : Text) (release : ReleaseDocument) (since : History) : Prop where
  published : release.draft = false
  immutable : release.immutable = true
  prerelease : release.prerelease = p.prerelease
  texts : hasTexts ps p body release = .ok true
  complete : Complete ps p release since

/-- A run that has succeeded: the last list of releases shows the publication, which an earlier run
had made or this one has made, and a check of all files has followed. -/
def Settled (h : History) : Prop :=
  ∃ old listing release body since, h = old ++ ⟨.listReleases, listing⟩ :: since ∧ Only Checks since ∧
    IsPublished ps p body release since ∧
    Transcript (getMissingReleaseAssetPaths ps p.assets release) [] since ∧
    ((old = [] ∧ readListing ps p.tag 0 listing = .ok (some release) ∧
        releaseBody ps p (some release) = .ok body) ∨
      (readListing ps p.tag release.id listing = .ok (some release) ∧
        ⟨.finalize release.id (finalizeRequest p body), (0 : Int)⟩ ∈ old))

end Seen

section Inspecting

variable {ps : PowerShell} {p : Parameters} {α : Type}

theorem brief_lift {P : Exchange Answer → Prop} {result : Except Text α} : Brief P (lift result) := by
  cases result with
  | ok a => exact Brief.pure
  | error error => exact Brief.fail

theorem yields_lift {result : Except Text α} :
    Yields (lift result) fun a h => h = [] ∧ result = .ok a := by
  cases result with
  | ok a => exact Yields.pure ⟨rfl, rfl⟩
  | error error => exact Yields.fail

theorem ensures_lift {P : History → Prop} {result : Except Text α} {F : History → Prop}
    (hF : ∀ history, P history → F history) :
    Ensures P (lift result) (fun a history => P history ∧ result = .ok a) F := by
  cases result with
  | ok a => exact Ensures.pure fun history h => ⟨h, rfl⟩
  | error error => exact Ensures.fail hF

theorem brief_requireFileHash (name : Text) : Brief Checks (requireFileHash name) := by
  apply Brief.ask_bind fun _ => rfl
  intro answer
  cases answer with
  | none => exact Brief.fail
  | some hash => exact Brief.pure

theorem yields_requireFileHash (name : Text) : Yields (requireFileHash name) fun localHash h =>
    ∃ hash, localHash = hexLower hash ∧ h = [⟨.getFileHash name, some hash⟩] := by
  apply Yields.ask_bind
  intro answer
  cases answer with
  | none => exact Yields.fail
  | some hash => exact Yields.pure ⟨hash, rfl, rfl⟩

theorem brief_verifyDownload (asset : Item) (localHash : Text) :
    Brief Checks (verifyDownload ps asset localHash) := by
  apply Brief.ask_bind fun _ => rfl
  intro exitCode
  apply Brief.ite Brief.fail
  apply Brief.ask_bind fun _ => rfl
  intro answer
  cases answer with
  | none => exact Brief.fail
  | some hash => exact Brief.ite Brief.pure Brief.fail

theorem yields_verifyDownload (asset : Item) (localHash : Text) :
    Yields (verifyDownload ps asset localHash) fun _ h => ⟨.download asset.name, (0 : Int)⟩ ∈ h ∧
      ∃ downloaded, ⟨.downloadedHash asset.name, some downloaded⟩ ∈ h ∧
        ps.ceq (hexLower downloaded) localHash = true := by
  apply Yields.ask_bind
  intro exitCode
  refine Yields.ite (fun _ => Yields.fail) ?_
  intro hexit
  rw [not_not] at hexit
  subst hexit
  apply Yields.ask_bind
  intro answer
  cases answer with
  | none => exact Yields.fail
  | some hash =>
    refine Yields.ite ?_ fun _ => Yields.fail
    intro hsame
    apply Yields.pure
    exact ⟨List.mem_cons_self, hash, List.mem_cons_of_mem _ List.mem_cons_self, hsame⟩

theorem brief_verifyAsset (asset : Item) (remote : Json) :
    Brief Checks (verifyAsset ps asset remote) := by
  apply brief_lift.bind
  intro size
  cases hlong : ps.toLong size with
  | none => exact Brief.fail
  | some length =>
    apply Brief.ite Brief.fail
    apply (brief_requireFileHash asset.name).bind
    intro localHash
    cases hdigest : remoteDigest ps remote with
    | none => exact brief_verifyDownload asset localHash
    | some digest => exact Brief.ite Brief.pure Brief.fail

theorem requireProperty_ok {name : Text} {value found : Json}
    (h : requireProperty name value = .ok found) : value.property name = some found := by
  rw [requireProperty] at h
  cases hproperty : value.property name with
  | none =>
    rw [hproperty] at h
    cases h
  | some other =>
    rw [hproperty] at h
    exact congrArg some (Except.ok.inj h)

theorem yields_verifyAsset (asset : Item) (remote : Json) :
    Yields (verifyAsset ps asset remote) fun _ h => Verified ps asset remote h := by
  apply yields_lift.bind
  intro size nothing hsize
  obtain ⟨hnothing, hsize⟩ := hsize
  subst hnothing
  simp only [List.nil_append]
  cases hlong : ps.toLong size with
  | none => exact Yields.fail
  | some length =>
    refine Yields.ite (fun _ => Yields.fail) ?_
    intro hlength
    rw [not_not] at hlength
    subst hlength
    have hfirst : ∃ size, remote.property (text "size") = some size ∧
        ps.toLong size = some (asset.length : Int) := ⟨size, requireProperty_ok hsize, hlong⟩
    apply (yields_requireFileHash asset.name).bind
    intro localHash hashing hhash
    obtain ⟨hash, hlocal, hhashing⟩ := hhash
    subst hlocal hhashing
    cases hdigest : remoteDigest ps remote with
    | some digest =>
      refine Yields.ite ?_ fun _ => Yields.fail
      intro hsame
      apply Yields.pure
      exact ⟨hfirst, hash, List.mem_cons_self, Or.inl ⟨digest, hdigest, hsame⟩⟩
    | none =>
      apply (yields_verifyDownload asset (hexLower hash)).weaken
      intro _ h hdownload
      obtain ⟨hdownload, downloaded, hdownloaded, hsame⟩ := hdownload
      exact ⟨hfirst, hash, List.mem_cons_self, Or.inr ⟨hdigest, List.mem_cons_of_mem _ hdownload,
        downloaded, List.mem_cons_of_mem _ hdownloaded, hsame⟩⟩

theorem Verified.mono {asset : Item} {remote : Json} {h more : History}
    (hverified : Verified ps asset remote h) (hsub : ∀ e ∈ h, e ∈ more) :
    Verified ps asset remote more := by
  obtain ⟨hsize, hash, hhash, hsame⟩ := hverified
  refine ⟨hsize, hash, hsub _ hhash, ?_⟩
  cases hsame with
  | inl hdigest => exact Or.inl hdigest
  | inr hdownload =>
    obtain ⟨hnone, hdownload, downloaded, hdownloaded, hsame⟩ := hdownload
    exact Or.inr ⟨hnone, hsub _ hdownload, downloaded, hsub _ hdownloaded, hsame⟩

theorem brief_missingLoop (remoteAssets : List (Text × Json)) (assets : List Item) :
    Brief Checks (missingLoop ps remoteAssets assets) := by
  induction assets with
  | nil => exact Brief.pure
  | cons asset rest ih =>
    rw [missingLoop]
    cases hfind : remoteAssets.find? fun remote => ps.ceq remote.1 asset.name with
    | none => exact ih.bind fun _ => Brief.pure
    | some remote => exact (brief_verifyAsset asset remote.2).bind fun _ => ih

theorem yields_missingLoop (remoteAssets : List (Text × Json)) (assets : List Item) :
    Yields (missingLoop ps remoteAssets assets) fun missing h =>
      (∀ asset ∈ missing, asset ∈ assets ∧ ∀ remote ∈ remoteAssets, ps.ceq remote.1 asset.name = false) ∧
        ∀ asset ∈ assets, asset ∈ missing ∨ ∃ remote ∈ remoteAssets,
          ps.ceq remote.1 asset.name = true ∧ Verified ps asset remote.2 h := by
  induction assets with
  | nil =>
    apply Yields.pure
    constructor
    · intro asset h
      cases h
    · intro asset h
      cases h
  | cons asset rest ih =>
    rw [missingLoop]
    cases hfind : remoteAssets.find? fun remote => ps.ceq remote.1 asset.name with
    | none =>
      apply ih.bind
      intro missing h hmissing
      apply Yields.pure
      rw [List.append_nil]
      refine ⟨fun other hother => ?_, fun other hother => ?_⟩
      · cases hother with
        | head =>
          refine ⟨List.mem_cons_self, fun remote hremote => ?_⟩
          exact Bool.eq_false_iff.mpr (List.find?_eq_none.mp hfind remote hremote)
        | tail _ hother =>
          obtain ⟨hmem, hlacks⟩ := hmissing.1 other hother
          exact ⟨List.mem_cons_of_mem _ hmem, hlacks⟩
      · cases hother with
        | head => exact Or.inl List.mem_cons_self
        | tail _ hother =>
          cases hmissing.2 other hother with
          | inl hmem => exact Or.inl (List.mem_cons_of_mem _ hmem)
          | inr hverified => exact Or.inr hverified
    | some remote =>
      apply (yields_verifyAsset asset remote.2).bind
      intro _ checking hchecking
      apply ih.weaken
      intro missing h hmissing
      refine ⟨fun other hother => ?_, fun other hother => ?_⟩
      · obtain ⟨hmem, hlacks⟩ := hmissing.1 other hother
        exact ⟨List.mem_cons_of_mem _ hmem, hlacks⟩
      · cases hother with
        | head =>
          refine Or.inr ⟨remote, List.mem_of_find?_eq_some hfind, ?_, ?_⟩
          · exact List.find?_some (p := fun remote : Text × Json => ps.ceq remote.1 asset.name) hfind
          · exact hchecking.mono fun e he => List.mem_append_left _ he
        | tail _ hother =>
          cases hmissing.2 other hother with
          | inl hmem => exact Or.inl hmem
          | inr hverified =>
            obtain ⟨found, hfound, hname, hverified⟩ := hverified
            exact Or.inr ⟨found, hfound, hname, hverified.mono fun e he => List.mem_append_right _ he⟩

theorem readNames_ok {remoteAssets : List Json} {named : List (Text × Json)}
    (h : readNames ps remoteAssets = .ok named) : named.map Prod.snd = remoteAssets ∧
      ∀ remote ∈ named, ∃ value, remote.2.property (text "name") = some value ∧
        remote.1 = ps.toText value := by
  induction remoteAssets generalizing named with
  | nil =>
    cases h
    exact ⟨rfl, fun remote h => by cases h⟩
  | cons remote rest ih =>
    rw [readNames] at h
    cases hname : requireProperty (text "name") remote with
    | error error =>
      rw [hname] at h
      cases h
    | ok value =>
      cases hrest : readNames ps rest with
      | error error =>
        rw [hname, hrest] at h
        cases h
      | ok later =>
        rw [hname, hrest] at h
        cases h
        obtain ⟨hmap, hvalues⟩ := ih hrest
        refine ⟨?_, fun found hfound => ?_⟩
        · rw [List.map_cons, hmap]
        · cases hfound with
          | head => exact ⟨value, requireProperty_ok hname, rfl⟩
          | tail _ hfound => exact hvalues found hfound

theorem namedAssets_ok {assets : List Item} {remoteAssets : List Json} {named : List (Text × Json)}
    (h : namedAssets ps assets remoteAssets = .ok named) : readNames ps remoteAssets = .ok named ∧
      ∀ remote ∈ named, ∃ asset ∈ assets, asset.name = remote.1 := by
  rw [namedAssets] at h
  cases hnames : readNames ps remoteAssets with
  | error error =>
    rw [hnames] at h
    cases h
  | ok other =>
    cases hfind : other.find? fun remote => !assets.any fun asset => asset.name = remote.1 with
    | some remote =>
      have hlocal : requireLocalNames assets other =
          .error (text "Release contains an unexpected immutable asset: " ++ remote.1) := by
        rw [requireLocalNames, hfind]
      rw [hnames] at h
      simp only [bind, Except.bind, hlocal] at h
      cases h
    | none =>
      have hlocal : requireLocalNames assets other = .ok () := by rw [requireLocalNames, hfind]
      rw [hnames] at h
      simp only [bind, Except.bind, hlocal] at h
      cases h
      refine ⟨rfl, fun remote hremote => ?_⟩
      have hlocal := List.find?_eq_none.mp hfind remote hremote
      simpa using hlocal

theorem hasDuplicateNames_false {remoteAssets : List Json}
    (h : hasDuplicateNames ps remoteAssets = false) :
    (remoteAssets.map fun remote => remote.property (text "name")).Nodup := by
  induction remoteAssets with
  | nil => exact List.nodup_nil
  | cons remote rest ih =>
    rw [hasDuplicateNames, Bool.or_eq_false_iff, List.any_eq_false] at h
    rw [List.map_cons, List.nodup_cons]
    refine ⟨fun hmem => ?_, ih h.2⟩
    obtain ⟨other, hother, hsame⟩ := List.mem_map.mp hmem
    have hgroup := h.1 other hother
    rw [hsame, ps.sameGroup_refl] at hgroup
    exact hgroup rfl

theorem brief_getMissingReleaseAssetPaths (release : ReleaseDocument) :
    Brief Checks (getMissingReleaseAssetPaths ps p.assets release) := by
  apply Brief.ite Brief.fail
  apply brief_lift.bind
  intro named
  exact brief_missingLoop named p.assets

theorem isNamed_iff {remote : Text × Json} {name : Text} {found : Json}
    (hproperty : remote.2.property (text "name") = some found) (hvalue : remote.1 = ps.toText found) :
    IsNamed ps remote.2 name ↔ ps.ceq remote.1 name = true := by
  constructor
  · intro h
    obtain ⟨other, hother, hsame⟩ := h
    rw [hproperty] at hother
    cases hother
    rw [hvalue]
    exact hsame
  · intro h
    rw [hvalue] at h
    exact ⟨found, hproperty, h⟩

theorem yields_getMissingReleaseAssetPaths (release : ReleaseDocument) :
    Yields (getMissingReleaseAssetPaths ps p.assets release) fun missing h =>
      Inspected ps p release missing h := by
  apply Yields.ite fun _ => Yields.fail
  intro hdistinct
  rw [Bool.not_eq_true] at hdistinct
  apply yields_lift.bind
  intro named nothing hnamed
  obtain ⟨hnothing, hnamed⟩ := hnamed
  subst hnothing
  obtain ⟨hnames, hlocal⟩ := namedAssets_ok hnamed
  obtain ⟨hmap, hvalues⟩ := readNames_ok hnames
  have hback : ∀ remote ∈ release.assets, ∃ found ∈ named, found.2 = remote := by
    intro remote hremote
    rw [← hmap] at hremote
    exact List.mem_map.mp hremote
  apply (yields_missingLoop named p.assets).weaken
  intro missing h hmissing
  rw [List.nil_append]
  constructor
  · exact hasDuplicateNames_false hdistinct
  · intro remote hremote
    obtain ⟨found, hfound, hsame⟩ := hback remote hremote
    obtain ⟨value, hvalue, hname⟩ := hvalues found hfound
    obtain ⟨asset, hasset, hassetName⟩ := hlocal found hfound
    rw [hsame] at hvalue
    exact ⟨value, hvalue, asset, hasset, hassetName.trans hname⟩
  · intro asset hasset
    obtain ⟨hmem, hlacks⟩ := hmissing.1 asset hasset
    refine ⟨hmem, fun remote hremote hnamed => ?_⟩
    obtain ⟨found, hfound, hsame⟩ := hback remote hremote
    obtain ⟨value, hvalue, hname⟩ := hvalues found hfound
    subst hsame
    have hceq := (isNamed_iff hvalue hname).mp hnamed
    rw [hlacks found hfound] at hceq
    cases hceq
  · intro asset hasset
    cases hmissing.2 asset hasset with
    | inl hmem => exact Or.inl hmem
    | inr hverified =>
      obtain ⟨found, hfound, hceq, hverified⟩ := hverified
      obtain ⟨value, hvalue, hname⟩ := hvalues found hfound
      refine Or.inr ⟨found.2, ?_, ⟨value, hvalue, ?_⟩, hverified⟩
      · rw [← hmap]
        exact List.mem_map_of_mem hfound
      · rw [← hname]
        exact hceq

theorem Inspected.complete {release : ReleaseDocument} {since : History}
    (h : Inspected ps p release [] since) : Complete ps p release since := by
  refine ⟨h.distinct, h.expected, fun asset hasset => ?_⟩
  cases h.verified asset hasset with
  | inl hmem => cases hmem
  | inr hverified => exact hverified

end Inspecting

section Guarding

variable {ps : PowerShell} {p : Parameters} {A : History → Prop} {releaseId : Int} {body : Text}

abbrev Allowed (ps : PowerShell) (p : Parameters) (h : History) : Prop := Guarded (Justified ps p) h

theorem Allowed.append {h more : History} (hallowed : Allowed ps p h) (hchecks : Only Checks more) :
    Allowed ps p (h ++ more) := by
  apply Guarded.append hallowed
  intro e he front
  have hcheck := hchecks e he
  obtain ⟨call, answer⟩ := e
  cases call <;> trivial

theorem readId_ok {tag : Text} {document : Json} {id : Int} (h : readId ps tag document = .ok id) :
    0 < id := by
  rw [readId] at h
  split at h
  · split at h
    · cases h
    · next hpositive =>
      cases h
      exact Int.not_le.mp hpositive
  · cases h

theorem readRelease_ok {tag : Text} {expectedId : Int} {document : Json} {release : ReleaseDocument}
    (h : readRelease ps tag expectedId document = .ok release) :
    0 < release.id ∧ (0 < expectedId → release.id = expectedId) := by
  obtain ⟨id, hid, h⟩ := ok_of_bind h
  obtain ⟨draft, -, h⟩ := ok_of_bind h
  obtain ⟨prerelease, -, h⟩ := ok_of_bind h
  obtain ⟨immutable, -, h⟩ := ok_of_bind h
  obtain ⟨assets, -, h⟩ := ok_of_bind h
  split at h
  · cases h
  · split at h
    · cases h
    · next hexpected =>
      cases h
      rw [Bool.and_eq_true, decide_eq_true_eq, decide_eq_true_eq] at hexpected
      refine ⟨readId_ok hid, fun hpositive => ?_⟩
      by_contra hne
      exact hexpected ⟨hpositive, hne⟩

theorem readListing_ok {tag : Text} {expectedId : Int} {listing : Listing} {release : ReleaseDocument}
    (h : readListing ps tag expectedId listing = .ok (some release)) :
    0 < release.id ∧ (0 < expectedId → release.id = expectedId) := by
  obtain ⟨documents, -, h⟩ := ok_of_bind h
  obtain ⟨matching, -, h⟩ := ok_of_bind h
  split at h
  · split at h <;> cases h
  · obtain ⟨found, hfound, h⟩ := ok_of_bind h
    cases h
    exact readRelease_ok hfound
  · cases h

theorem ensures_getUniqueReleaseByTag (repository : Text) (expectedId : Int) :
    Ensures (fun h => Allowed ps p h ∧ A h) (getUniqueReleaseByTag ps repository p.tag expectedId)
      (fun found h => Allowed ps p h ∧ ∃ old listing, h = old ++ [⟨.listReleases, listing⟩] ∧ A old ∧
        readListing ps p.tag expectedId listing = .ok found) (Allowed ps p) := by
  apply Ensures.ite fun _ => Ensures.fail fun _ h => h.1
  intro _
  apply Ensures.ite fun _ => Ensures.fail fun _ h => h.1
  intro _
  apply Ensures.ite fun _ => Ensures.fail fun _ h => h.1
  intro _
  apply Ensures.ask_bind (Q := fun listing h => Allowed ps p h ∧ ∃ old,
    h = old ++ [⟨.listReleases, listing⟩] ∧ A old)
  · intro history listing h
    exact ⟨h.1.snoc trivial, history, rfl, h.2⟩
  · intro listing
    apply (ensures_lift fun _ h => h.1).weaken fun _ h => h
    intro found h hfound
    obtain ⟨⟨hallowed, old, hh, hold⟩, hread⟩ := hfound
    exact ⟨hallowed, old, listing, hh, hold, hread⟩

theorem ensures_getPinnedRelease :
    Ensures (fun h => Allowed ps p h ∧ A h) (getPinnedRelease ps p releaseId)
      (fun release h => Allowed ps p h ∧ ∃ old listing, h = old ++ [⟨.listReleases, listing⟩] ∧ A old ∧
        readListing ps p.tag releaseId listing = .ok (some release)) (Allowed ps p) := by
  apply (ensures_getUniqueReleaseByTag p.repository releaseId).bind
  intro found
  cases found with
  | none => exact Ensures.fail fun _ h => h.1
  | some release => exact Ensures.pure fun _ h => h

theorem ensures_assertMutableReleaseDraft {B : History → Prop} {release : ReleaseDocument}
    (hB : ∀ history, B history → Allowed ps p history) :
    Ensures B (assertMutableReleaseDraft p.tag release)
      (fun _ h => B h ∧ release.draft = true ∧ release.immutable = false) (Allowed ps p) := by
  apply Ensures.ite fun _ => Ensures.fail hB
  intro hdraft
  apply Ensures.ite fun _ => Ensures.fail hB
  intro himmutable
  apply Ensures.pure
  intro history h
  rw [Bool.not_eq_true] at himmutable
  rw [Bool.not_eq_true', Bool.not_eq_false] at hdraft
  exact ⟨h, hdraft, himmutable⟩

theorem ensures_getMissingReleaseAssetPaths (release : ReleaseDocument) :
    Ensures (fun h => Allowed ps p h ∧ A h) (getMissingReleaseAssetPaths ps p.assets release)
      (fun missing h => Allowed ps p h ∧ ∃ old since, h = old ++ since ∧ A old ∧ Only Checks since ∧
        Inspected ps p release missing since ∧
        Transcript (getMissingReleaseAssetPaths ps p.assets release) missing since) (Allowed ps p) := by
  have hrecords := Records.both (@yields_getMissingReleaseAssetPaths ps p release)
    (@brief_getMissingReleaseAssetPaths ps p release)
  apply (Records.ensures hrecords _).weaken fun _ h => h
  · intro missing h hh
    obtain ⟨history, more, hh, hhistory, ⟨hinspected, hchecks⟩, htranscript⟩ := hh
    subst hh
    exact ⟨hhistory.1.append hchecks, history, more, rfl, hhistory.2, hchecks, hinspected, htranscript⟩
  · intro history more hhistory hmore
    cases hmore with
    | inl hfailed => exact hhistory.1.append hfailed.2
    | inr hunfinished => exact hunfinished.2.elim

theorem ensures_readDraft (hid : 0 < releaseId) :
    Ensures (fun h => Allowed ps p h ∧ A h) (readDraft ps p releaseId)
      (fun missing h => Allowed ps p h ∧ ∃ old listing release since,
        h = old ++ ⟨.listReleases, listing⟩ :: since ∧ A old ∧
        ShowsDraft ps p releaseId listing release ∧ Only Checks since ∧
        Inspected ps p release missing since) (Allowed ps p) := by
  apply ensures_getPinnedRelease.bind
  intro release
  apply (ensures_assertMutableReleaseDraft fun _ h => h.1).bind
  intro _
  have hinspect := @ensures_getMissingReleaseAssetPaths ps p (fun h =>
    ∃ old listing, h = old ++ [⟨.listReleases, listing⟩] ∧ A old ∧
      ShowsDraft ps p releaseId listing release) release
  apply hinspect.weaken
  · intro h hh
    obtain ⟨⟨hallowed, old, listing, hh, hold, hread⟩, hdraft, himmutable⟩ := hh
    exact ⟨hallowed, old, listing, hh, hold, hread, (readListing_ok hread).2 hid, hdraft, himmutable⟩
  · intro missing h hh
    obtain ⟨hallowed, start, since, hh, hstart, hchecks, hinspected, -⟩ := hh
    obtain ⟨old, listing, hstart, hold, hshows⟩ := hstart
    subst hstart
    rw [List.append_assoc] at hh
    exact ⟨hallowed, old, listing, release, since, hh, hold, hshows, hchecks, hinspected⟩

/-- The first look at the pinned draft, and what has been done for it since. -/
def Filling (ps : PowerShell) (p : Parameters) (releaseId : Int) (body : Text) (missing : List Item)
    (h : History) : Prop :=
  ∃ opening listing release since, h = opening ++ ⟨.listReleases, listing⟩ :: since ∧
    Opening ps p releaseId body opening ∧ ShowsDraft ps p releaseId listing release ∧
    Only (Fills releaseId) since ∧ ∀ asset ∈ missing, asset ∈ p.assets ∧
      ∀ remote ∈ release.assets, ¬IsNamed ps remote asset.name

theorem Filling.snoc {missing : List Item} {h : History} {e : Exchange Answer}
    (hfilling : Filling ps p releaseId body missing h) (he : Fills releaseId e) :
    Filling ps p releaseId body missing (h ++ [e]) := by
  obtain ⟨opening, listing, release, since, hh, hopening, hshows, hsince, hmissing⟩ := hfilling
  subst hh
  refine ⟨opening, listing, release, since ++ [e], ?_, hopening, hshows, ?_, hmissing⟩
  · rw [List.append_assoc, List.cons_append]
  · exact only_append.mpr ⟨hsince, only_cons.mpr ⟨he, only_nil⟩⟩

theorem ensures_uploadLoop {missing rest : List Item} (hrest : ∀ asset ∈ rest, asset ∈ missing) :
    Ensures (fun h => Allowed ps p h ∧ Filling ps p releaseId body missing h)
      (uploadLoop p releaseId rest)
      (fun _ h => Allowed ps p h ∧ Filling ps p releaseId body missing h) (Allowed ps p) := by
  induction rest with
  | nil => exact Ensures.pure fun _ h => h
  | cons asset rest ih =>
    apply Ensures.ask_bind (Q := fun _ h => Allowed ps p h ∧ Filling ps p releaseId body missing h)
    · intro history answer h
      exact ⟨h.1.snoc trivial, h.2.snoc rfl⟩
    intro found
    refine Ensures.ite ?_ fun _ => Ensures.fail fun _ h => h.1
    intro _
    apply Ensures.ask_bind (Q := fun _ h => Allowed ps p h ∧ Filling ps p releaseId body missing h)
    · intro history answer h
      obtain ⟨hallowed, hfilling⟩ := h
      refine ⟨hallowed.snoc ?_, hfilling.snoc (decide_eq_true rfl)⟩
      obtain ⟨opening, listing, release, since, hh, hopening, hshows, hsince, hmissing⟩ := hfilling
      obtain ⟨hmem, hlacks⟩ := hmissing asset (hrest asset List.mem_cons_self)
      exact ⟨body, opening, listing, release, since, hh, hopening, hshows, hsince,
        ⟨asset, hmem, rfl⟩, hlacks⟩
    intro exitCode
    apply Ensures.ite fun _ => Ensures.fail fun _ h => h.1
    intro _
    exact ih fun other hother => hrest other (List.mem_cons_of_mem _ hother)

theorem ensures_uploadMissing {missing : List Item} :
    Ensures (fun h => Allowed ps p h ∧ Filling ps p releaseId body missing h)
      (uploadMissing p releaseId missing)
      (fun _ h => Allowed ps p h ∧ Filling ps p releaseId body missing h) (Allowed ps p) := by
  refine Ensures.ite (fun _ => Ensures.pure fun _ h => h) ?_
  intro _
  apply Ensures.ask_bind (Q := fun _ h => Allowed ps p h ∧ Filling ps p releaseId body missing h)
  · intro history answer h
    exact ⟨h.1.snoc trivial, h.2.snoc rfl⟩
  intro token
  apply Ensures.ite fun _ => Ensures.fail fun _ h => h.1
  intro _
  exact ensures_uploadLoop fun _ h => h

theorem ensures_readBack {attempts : Nat} (hid : 0 < releaseId) {B : History → Prop}
    (hB : ∀ h e, B h → B (h ++ [e])) :
    Ensures (fun h => Allowed ps p h ∧ B h) (readBack ps p releaseId body attempts)
      (fun release h => Allowed ps p h ∧ ∃ old listing, h = old ++ [⟨.listReleases, listing⟩] ∧ B old ∧
        readListing ps p.tag releaseId listing = .ok (some release) ∧ release.id = releaseId ∧
        release.draft = false ∧ release.immutable = true ∧ release.prerelease = p.prerelease ∧
        hasTexts ps p body release = .ok true) (Allowed ps p) := by
  induction attempts with
  | zero => exact Ensures.fail fun _ h => h.1
  | succ attempts ih =>
    apply ensures_getPinnedRelease.bind
    intro release
    apply Ensures.ite fun _ => Ensures.fail fun _ h => h.1
    intro hstate
    rw [Bool.or_eq_true, not_or, decide_eq_true_eq, not_not, Bool.not_eq_true] at hstate
    apply (ensures_lift fun _ h => h.1).bind
    intro same
    apply Ensures.ite fun _ => Ensures.fail fun _ h => h.1.1
    intro hsame
    rw [Bool.not_eq_true', Bool.not_eq_false] at hsame
    subst hsame
    have hagain : ∀ history, (Allowed ps p history ∧ ∃ old listing,
        history = old ++ [⟨.listReleases, listing⟩] ∧ B old ∧
        readListing ps p.tag releaseId listing = .ok (some release)) ∧
        hasTexts ps p body release = .ok true → Allowed ps p history ∧ B history := by
      intro history h
      obtain ⟨⟨hallowed, old, listing, hh, hold, -⟩, -⟩ := h
      subst hh
      exact ⟨hallowed, hB _ _ hold⟩
    apply Ensures.ite
    · intro himmutable
      apply Ensures.pure
      intro history h
      obtain ⟨⟨hallowed, old, listing, hh, hold, hread⟩, htexts⟩ := h
      exact ⟨hallowed, old, listing, hh, hold, hread, (readListing_ok hread).2 hid, hstate.1, himmutable,
        hstate.2, htexts⟩
    intro _
    apply Ensures.ite
    · intro _
      exact ih.weaken hagain fun _ _ h => h
    intro _
    apply Ensures.ask_bind (Q := fun _ h => Allowed ps p h ∧ B h)
    · intro history answer h
      obtain ⟨hallowed, hold⟩ := hagain history h
      exact ⟨hallowed.snoc trivial, hB _ _ hold⟩
    intro _
    exact ih

theorem ensures_completeRelease (hid : 0 < releaseId) :
    Ensures (fun h => Allowed ps p h ∧ Opening ps p releaseId body h)
      (completeRelease ps p releaseId body) (fun _ h => Allowed ps p h ∧ Settled ps p h)
      (Allowed ps p) := by
  apply (ensures_readDraft hid).bind
  intro missing
  have hupload := @ensures_uploadMissing ps p releaseId body missing
  apply (hupload.weaken _ fun _ _ h => h).bind
  · intro _
    apply (ensures_readDraft hid).bind
    intro stillMissing
    refine Ensures.ite (fun _ => Ensures.fail fun _ h => h.1) ?_
    intro hcomplete
    rw [not_not] at hcomplete
    subst hcomplete
    apply Ensures.ask_bind (Q := fun exitCode h => Allowed ps p h ∧
      ⟨.finalize releaseId (finalizeRequest p body), exitCode⟩ ∈ h)
    · intro history exitCode h
      obtain ⟨hallowed, front, listing', release', since, hh, hfilling, hshows', hchecks, hinspected⟩ :=
        h
      obtain ⟨opening, listing, release, between, hfront, hopening, hshows, hbetween, -⟩ := hfilling
      refine ⟨hallowed.snoc ?_, List.mem_append_right _ List.mem_cons_self⟩
      refine ⟨body, opening, listing, release, between, listing', release', since, ?_, hopening, rfl,
        hshows, hbetween, hshows', hchecks, hinspected.complete⟩
      rw [hh, hfront, List.append_assoc, List.cons_append]
    intro exitCode
    refine Ensures.ite (fun _ => Ensures.fail fun _ h => h.1) ?_
    intro hexit
    rw [not_not] at hexit
    subst hexit
    have hback := @ensures_readBack ps p releaseId body 6 hid (fun h =>
      ⟨.finalize releaseId (finalizeRequest p body), (0 : Int)⟩ ∈ h) fun h e hmem =>
        List.mem_append_left _ hmem
    apply hback.bind
    intro release
    apply (ensures_getMissingReleaseAssetPaths release).bind
    intro finalMissing
    refine Ensures.ite (fun _ => Ensures.fail fun _ h => h.1) ?_
    intro hfinal
    rw [not_not] at hfinal
    subst hfinal
    apply Ensures.pure
    intro history h
    obtain ⟨hallowed, start, since, hh, hstart, hchecks, hinspected, htranscript⟩ := h
    obtain ⟨old, listing, hstart, hfinalized, hread, hrelease, hdraft, himmutable, hprerelease,
      htexts⟩ := hstart
    subst hstart hrelease
    refine ⟨hallowed, old, listing, release, body, since, ?_, hchecks,
      ⟨hdraft, himmutable, hprerelease, htexts, hinspected.complete⟩, htranscript,
      Or.inr ⟨hread, hfinalized⟩⟩
    rw [hh, List.append_assoc]
    rfl
  · intro h hh
    obtain ⟨hallowed, opening, listing, release, since, hh, hopening, hshows, hchecks, hinspected⟩ := hh
    exact ⟨hallowed, opening, listing, release, since, hh, hopening, hshows,
      hchecks.weaken fun _ h => h.fills, hinspected.lacks⟩

inductive Found (ps : PowerShell) (p : Parameters) : Option ReleaseDocument → History → Prop where
  | none (listing : Listing) (hread : readListing ps p.tag 0 listing = .ok none)
      (hexpected : ∀ expectedId, p.expectedReleaseId = some expectedId → expectedId ≤ 0) :
      Found ps p none [⟨.listReleases, listing⟩]
  | some (listing : Listing) (release : ReleaseDocument)
      (hread : readListing ps p.tag (p.expectedReleaseId.getD 0) listing = .ok (some release))
      (hexpected : p.expectedReleaseId ≠ some 0)
      (hdraft : p.expectedReleaseId ≠ Option.none → release.draft = true) :
      Found ps p (some release) [⟨.listReleases, listing⟩]

theorem ensures_findRelease (hexpected : ∀ expectedId, p.expectedReleaseId = some expectedId →
    0 ≤ expectedId) :
    Ensures (fun h => h = []) (findRelease ps p)
      (fun found h => Allowed ps p h ∧ Found ps p found h) (Allowed ps p) := by
  have hstart : ∀ h : History, h = [] → Allowed ps p h ∧ h = [] := by
    intro h hh
    subst hh
    exact ⟨guarded_nil, rfl⟩
  have hlists : ∀ expectedId, Ensures (fun h : History => h = [])
      (getUniqueReleaseByTag ps p.repository p.tag expectedId)
      (fun found h => Allowed ps p h ∧ ∃ old listing, h = old ++ [⟨.listReleases, listing⟩] ∧ old = [] ∧
        readListing ps p.tag expectedId listing = .ok found) (Allowed ps p) := fun expectedId =>
    (ensures_getUniqueReleaseByTag p.repository expectedId).weaken hstart fun _ _ h => h
  rw [findRelease]
  cases hgiven : p.expectedReleaseId with
  | none =>
    apply (hlists 0).weaken fun _ h => h
    intro found h hh
    obtain ⟨hallowed, old, listing, hh, hold, hread⟩ := hh
    subst hh hold
    refine ⟨hallowed, ?_⟩
    cases found with
    | none =>
      apply Found.none listing hread
      intro expectedId h
      rw [hgiven] at h
      cases h
    | some release =>
      apply Found.some listing release
      · rw [hgiven]
        exact hread
      · rw [hgiven]
        intro h
        cases h
      · exact fun h => absurd hgiven h
  | some expectedId =>
    apply Ensures.ite
    · intro hpositive
      have hpinned : Ensures (fun h : History => h = []) (getPinnedRelease ps p expectedId)
          (fun release h => Allowed ps p h ∧ ∃ old listing, h = old ++ [⟨.listReleases, listing⟩] ∧
            old = [] ∧ readListing ps p.tag expectedId listing = .ok (some release)) (Allowed ps p) :=
        ensures_getPinnedRelease.weaken hstart fun _ _ h => h
      apply hpinned.bind
      intro release
      apply (ensures_assertMutableReleaseDraft fun _ h => h.1).bind
      intro _
      apply Ensures.pure
      intro h hh
      obtain ⟨⟨hallowed, old, listing, hh, hold, hread⟩, hdraft, -⟩ := hh
      subst hh hold
      refine ⟨hallowed, Found.some listing release ?_ ?_ fun _ => hdraft⟩
      · rw [hgiven]
        exact hread
      · intro h
        rw [hgiven] at h
        rw [Option.some.inj h] at hpositive
        exact absurd hpositive (lt_irrefl 0)
    · intro hnegative
      have hzero : expectedId = 0 := le_antisymm (not_lt.mp hnegative) (hexpected expectedId hgiven)
      subst hzero
      apply (hlists 0).bind
      intro found
      cases found with
      | some release => exact Ensures.fail fun _ h => h.1
      | none =>
        apply Ensures.pure
        intro h hh
        obtain ⟨hallowed, old, listing, hh, hold, hread⟩ := hh
        subst hh hold
        refine ⟨hallowed, Found.none listing hread ?_⟩
        intro expectedId h
        rw [hgiven] at h
        rw [← Option.some.inj h]

theorem check_ok (h : p.check ps = .ok ()) : ∀ expectedId, p.expectedReleaseId = some expectedId →
    0 ≤ expectedId := by
  intro expectedId hgiven
  by_contra hnegative
  have hany : p.expectedReleaseId.any (· < 0) = true := by
    rw [hgiven]
    exact decide_eq_true (not_le.mp hnegative)
  rw [Parameters.check, hany] at h
  split at h
  · cases h
  · split at h <;> cases h

theorem ensures_createRelease (hbody : releaseBody ps p none = .ok body) :
    Ensures (fun h => Allowed ps p h ∧ Found ps p none h) (createRelease ps p body)
      (fun releaseId h => (Allowed ps p h ∧ Opening ps p releaseId body h) ∧ 0 < releaseId)
      (Allowed ps p) := by
  apply Ensures.ask_bind (Q := fun exitCode h => Allowed ps p h ∧ ∃ first, Found ps p none first ∧
    h = first ++ [⟨.createDraft p.tag p.title body, exitCode⟩])
  · intro history exitCode h
    obtain ⟨hallowed, hfound⟩ := h
    refine ⟨hallowed.snoc ?_, history, hfound, rfl⟩
    cases hfound with
    | none listing hread hexpected => exact ⟨rfl, rfl, hbody, hexpected, listing, rfl, hread⟩
  intro exitCode
  refine Ensures.ite (fun _ => Ensures.fail fun _ h => h.1) ?_
  intro hexit
  rw [not_not] at hexit
  subst hexit
  apply (ensures_getUniqueReleaseByTag p.repository 0).bind
  intro found
  cases found with
  | none => exact Ensures.fail fun _ h => h.1
  | some release =>
    apply Ensures.pure
    intro h hh
    obtain ⟨hallowed, old, listing', hh, hold, hcreated⟩ := hh
    obtain ⟨first, hfirst, hold⟩ := hold
    subst hold hh
    refine ⟨⟨hallowed, ?_⟩, (readListing_ok hcreated).1⟩
    cases hfirst with
    | none listing hread hexpected =>
      exact Opening.created listing listing' release hread hexpected hbody hcreated rfl

theorem ensures_confirmPublished {release : ReleaseDocument} (hdraft : release.draft = false)
    (hbody : releaseBody ps p (some release) = .ok body) :
    Ensures (fun h => Allowed ps p h ∧ Found ps p (some release) h) (confirmPublished ps p body release)
      (fun _ h => Allowed ps p h ∧ Settled ps p h) (Allowed ps p) := by
  refine Ensures.ite (fun _ => Ensures.fail fun _ h => h.1) ?_
  intro himmutable
  rw [Bool.not_eq_true', Bool.not_eq_false] at himmutable
  apply (ensures_getMissingReleaseAssetPaths release).bind
  intro missing
  refine Ensures.ite (fun _ => Ensures.fail fun _ h => h.1) ?_
  intro hmissing
  rw [not_not] at hmissing
  subst hmissing
  apply (ensures_lift fun _ h => h.1).bind
  intro same
  refine Ensures.ite (fun _ => Ensures.fail fun _ h => h.1.1) ?_
  intro hsame
  rw [Bool.or_eq_true, not_or, decide_eq_true_eq, not_not, Bool.not_eq_true, Bool.not_eq_false'] at hsame
  apply Ensures.pure
  intro h hh
  obtain ⟨⟨hallowed, first, since, hh, hfound, hchecks, hinspected, htranscript⟩, htexts⟩ := hh
  obtain ⟨hsame, hprerelease⟩ := hsame
  subst hsame hh
  refine ⟨hallowed, ?_⟩
  cases hfound with
  | some listing release hread hexpected hfoundDraft =>
    have hnone : p.expectedReleaseId = none := by
      by_contra hgiven
      rw [hfoundDraft hgiven] at hdraft
      cases hdraft
    rw [hnone] at hread
    exact ⟨[], listing, release, body, since, rfl, hchecks,
      ⟨hdraft, himmutable, hprerelease, htexts, hinspected.complete⟩, htranscript,
      Or.inl ⟨rfl, hread, hbody⟩⟩

theorem ensures_publishReleaseAssets :
    Ensures (fun h => h = []) (publishReleaseAssets ps p)
      (fun _ h => Allowed ps p h ∧ Settled ps p h) (Allowed ps p) := by
  have hstart : ∀ h : History, h = [] → Allowed ps p h := by
    intro h hh
    subst hh
    exact guarded_nil
  apply (ensures_lift hstart).bind
  intro _
  apply Ensures.given (C := p.check ps = .ok ()) _ fun _ h => h.2
  intro hcheck
  apply ((ensures_findRelease (check_ok hcheck)).weaken (fun _ h => h.1) fun _ _ h => h).bind
  intro found
  apply (ensures_lift fun _ h => h.1).bind
  intro body
  apply Ensures.given (C := releaseBody ps p found = .ok body) _ fun _ h => h.2
  intro hbody
  cases found with
  | none =>
    apply ((ensures_createRelease hbody).weaken (fun _ h => h.1) fun _ _ h => h).bind
    intro releaseId
    apply Ensures.given (C := 0 < releaseId) _ fun _ h => h.2
    intro hid
    exact (ensures_completeRelease hid).weaken (fun _ h => h.1) fun _ _ h => h
  | some release =>
    apply Ensures.ite
    · intro hdraft
      apply Ensures.given (C := 0 < release.id)
      · intro hid
        apply (ensures_completeRelease hid).weaken _ fun _ _ h => h
        intro h hh
        obtain ⟨⟨hallowed, hfound⟩, -⟩ := hh
        refine ⟨hallowed, ?_⟩
        cases hfound with
        | some listing release hread hexpected _ =>
          exact Opening.found listing release hread hexpected rfl hdraft hbody
      · intro h hh
        cases hh.1.2 with
        | some listing release hread _ _ => exact (readListing_ok hread).1
    · intro hdraft
      rw [Bool.not_eq_true] at hdraft
      exact (ensures_confirmPublished hdraft hbody).weaken (fun _ h => h.1) fun _ _ h => h

end Guarding

section Publishing

variable {ps : PowerShell} {p : Parameters} {releaseId : Int} {body : Text}

theorem Opening.not_finalizes {opening : History} (h : Opening ps p releaseId body opening) :
    Only (fun e => e.1.finalizes = false) opening := by
  cases h with
  | found listing release => exact only_cons.mpr ⟨rfl, only_nil⟩
  | created listing listing' release =>
    simp only [only_cons, only_nil, and_true]
    exact ⟨rfl, rfl, rfl⟩

/-- A call that changes the release comes before the request that publishes it. -/
theorem Justified.not_finalizes {front : History} {call : Call} (h : Justified ps p front call)
    (hmutates : call.mutates = true) : Only (fun e => e.1.finalizes = false) front := by
  cases call with
  | createDraft tag title body =>
    obtain ⟨-, -, -, -, listing, hfront, -⟩ := h
    subst hfront
    exact only_cons.mpr ⟨rfl, only_nil⟩
  | upload releaseId name =>
    obtain ⟨body, opening, listing, release, since, hfront, hopening, -, hsince, -⟩ := h
    subst hfront
    simp only [only_append, only_cons]
    exact ⟨hopening.not_finalizes, rfl, hsince.weaken fun _ h => h.not_finalizes⟩
  | finalize releaseId request =>
    obtain ⟨body, opening, listing, release, between, listing', release', since, hfront, hopening, -, -,
      hbetween, -, hsince, -⟩ := h
    subst hfront
    simp only [only_append, only_cons]
    exact ⟨hopening.not_finalizes, rfl, hbetween.weaken fun _ h => h.not_finalizes, rfl,
      hsince.weaken fun _ h => (@Checks.fills _ releaseId h).not_finalizes⟩
  | listReleases => cases hmutates
  | getFileHash name => cases hmutates
  | download name => cases hmutates
  | downloadedHash name => cases hmutates
  | readToken => cases hmutates
  | getItem name => cases hmutates
  | sleep => cases hmutates

/-- Nothing is changed behind the request that publishes. -/
def FinalizedLast (h : History) : Prop :=
  ∀ front e back, h = front ++ e :: back → e.1.finalizes = true → ∀ later ∈ back, later.1.mutates = false

theorem Allowed.finalizedLast {h : History} (hallowed : Allowed ps p h) : FinalizedLast h := by
  intro front e back hh hfinalizes later hlater
  obtain ⟨between, rest, hback⟩ := List.append_of_mem hlater
  rw [hback, ← List.cons_append, ← List.append_assoc] at hh
  by_contra hmutates
  rw [Bool.not_eq_false] at hmutates
  have hbefore := (hallowed _ later rest hh).not_finalizes hmutates
  simp only [only_append, only_cons] at hbefore
  rw [hbefore.2.1] at hfinalizes
  cases hfinalizes

/-- Whatever GitHub answers: a draft is created only where the first look has found no release; a file
is uploaded only to the pinned release, while that was seen to be a draft without this file; the
release is published only after a last look at the draft has shown every file with the right content
and nothing else; and nothing is changed after that. -/
theorem publish_changes_justified (ps : PowerShell) (p : Parameters) (around : Surroundings Answer) :
    Guarded (Justified ps p) (publishReleaseAssets ps p around []).2 ∧
      FinalizedLast (publishReleaseAssets ps p around []).2 := by
  have hallowed : Allowed ps p (publishReleaseAssets ps p around []).2 := by
    have hmeets := @ensures_publishReleaseAssets ps p around [] rfl
    cases houtcome : publishReleaseAssets ps p around [] with
    | mk result left =>
      rw [houtcome] at hmeets
      cases result with
      | ok done => exact hmeets.1
      | error stop =>
        cases stop with
        | failed error => exact hmeets
        | unfinished => exact hmeets
  exact ⟨hallowed, hallowed.finalizedLast⟩

/-- A run that ends with success has seen the release public, immutable and complete. -/
theorem publish_settles (ps : PowerShell) (p : Parameters) (around : Surroundings Answer) :
    Dialogue.Meets (fun _ h => Settled ps p h) (fun _ => True) (fun _ => True)
      (publishReleaseAssets ps p around []) := by
  have hmeets := @ensures_publishReleaseAssets ps p around [] rfl
  cases houtcome : publishReleaseAssets ps p around [] with
  | mk result left =>
    rw [houtcome] at hmeets
    cases result with
    | ok done => exact hmeets.2
    | error stop => cases stop <;> trivial

end Publishing

end FfbInterceptor.Release.Publisher
