import FfbInterceptor.Release.PublisherSafety

/-! The notes in the body of a release, and a publication that is run again. -/
namespace FfbInterceptor.Release.Publisher
open Library
open Library.Dialogue (ask fail Only Transcript Replays Answers)
open Server (isWhiteSpace)

section Notes

variable {part value before behind existing generated body : Text}

theorem cut_eq_some_iff (hne : part ≠ []) : cut part value = some (before, behind) ↔
    value = before ++ (part ++ behind) ∧ ¬ part <:+: (before ++ part).dropLast := by
  rw [cut, Option.map_eq_some_iff]
  constructor
  · intro h
    obtain ⟨place, hplace, heq⟩ := h
    obtain ⟨front, rest, rfl, rfl, hfirst⟩ := (Substring.find_eq_some_iff hne).mp hplace
    rw [List.take_left, ← List.drop_drop, List.drop_left, List.drop_left, Prod.mk.injEq] at heq
    obtain ⟨rfl, rfl⟩ := heq
    exact ⟨rfl, hfirst⟩
  · intro h
    obtain ⟨rfl, hfirst⟩ := h
    refine ⟨before.length, (Substring.find_eq_some_iff hne).mpr ⟨before, behind, rfl, rfl, hfirst⟩, ?_⟩
    rw [List.take_left, ← List.drop_drop, List.drop_left, List.drop_left]

theorem startMarker_ne_nil : startMarker ≠ [] := by
  intro h
  cases h

theorem endMarker_ne_nil : endMarker ≠ [] := by
  intro h
  cases h

theorem markerMatch_eq_some_iff : markerMatch value = some (before, behind) ↔
    ∃ inside, value = before ++ (startMarker ++ (inside ++ (endMarker ++ behind))) ∧
      ¬ startMarker <:+: (before ++ startMarker).dropLast ∧
      ¬ endMarker <:+: (inside ++ endMarker).dropLast := by
  rw [markerMatch, Option.bind_eq_some_iff]
  constructor
  · intro h
    obtain ⟨opened, hopened, h⟩ := h
    obtain ⟨closed, hclosed, heq⟩ := Option.map_eq_some_iff.mp h
    obtain ⟨front, rest⟩ := opened
    obtain ⟨inside, later⟩ := closed
    rw [Prod.mk.injEq] at heq
    obtain ⟨rfl, rfl⟩ := heq
    obtain ⟨rfl, hstart⟩ := (cut_eq_some_iff startMarker_ne_nil).mp hopened
    obtain ⟨hrest, hend⟩ := (cut_eq_some_iff endMarker_ne_nil).mp hclosed
    dsimp only at hrest
    subst hrest
    exact ⟨inside, rfl, hstart, hend⟩
  · intro h
    obtain ⟨inside, rfl, hstart, hend⟩ := h
    refine ⟨(before, inside ++ (endMarker ++ behind)),
      (cut_eq_some_iff startMarker_ne_nil).mpr ⟨rfl, hstart⟩, ?_⟩
    rw [(cut_eq_some_iff endMarker_ne_nil).mpr ⟨rfl, hend⟩]
    rfl

/-- The notes do not end early. -/
theorem not_infix_notes (h : ¬ endMarker <:+: generated) :
    ¬ endMarker <:+: ('\n' :: generated ++ '\n' :: endMarker).dropLast := by
  have hline : '\n' ∉ endMarker := by decide
  have hlist : ('\n' :: generated ++ '\n' :: endMarker).dropLast =
      [] ++ '\n' :: (generated ++ '\n' :: endMarker.dropLast) := by
    rw [List.dropLast_append_of_ne_nil (List.cons_ne_nil _ _),
      List.dropLast_cons_of_ne_nil endMarker_ne_nil]
    rfl
  rw [hlist]
  intro hoccurs
  cases Substring.infix_of_separator hline hoccurs with
  | inl hnil => exact endMarker_ne_nil (List.infix_nil.mp hnil)
  | inr hlater =>
    cases Substring.infix_of_separator hline hlater with
    | inl hgenerated => exact h hgenerated
    | inr hend => exact Substring.not_infix_dropLast endMarker_ne_nil hend

theorem markerMatch_block (hgenerated : ¬ endMarker <:+: generated)
    (hbefore : ¬ startMarker <:+: (before ++ startMarker).dropLast) :
    markerMatch (before ++ generatedBlock generated ++ behind) = some (before, behind) := by
  apply markerMatch_eq_some_iff.mpr
  refine ⟨'\n' :: generated ++ ['\n'], ?_, hbefore, ?_⟩
  · simp only [generatedBlock, List.append_assoc, List.cons_append, List.nil_append]
  · rw [List.append_assoc]
    exact not_infix_notes hgenerated

/-- A body with a block of notes, or without a stray marker. -/
def Tidy (existing : Text) : Prop := (markerMatch existing).isSome = true ∨ ¬ startMarker <:+: existing

theorem tidy_nil : Tidy [] := Or.inr fun h => startMarker_ne_nil (List.infix_nil.mp h)

/-- Notes that are merged once more stay as they are. -/
theorem mergeBody_again (hgenerated : ¬ endMarker <:+: generated) (hexisting : Tidy existing)
    (h : mergeBody existing (generatedBlock generated) = .ok body) :
    mergeBody body (generatedBlock generated) = .ok body := by
  have hagain : ∀ before behind, ¬ startMarker <:+: (before ++ startMarker).dropLast →
      (markerMatch behind).isSome = false → body = before ++ generatedBlock generated ++ behind →
      mergeBody body (generatedBlock generated) = .ok body := by
    intro before behind hbefore hbehind hbody
    rw [mergeBody, hbody, markerMatch_block hgenerated hbefore]
    dsimp only
    rw [if_neg (Bool.eq_false_iff.mp hbehind)]
  rw [mergeBody] at h
  cases hmatch : markerMatch existing with
  | some found =>
    obtain ⟨before, behind⟩ := found
    rw [hmatch] at h
    dsimp only at h
    split at h
    · cases h
    · next hbehind =>
      obtain ⟨inside, -, hbefore, -⟩ := markerMatch_eq_some_iff.mp hmatch
      exact hagain before behind hbefore (Bool.eq_false_iff.mpr hbehind) (Except.ok.inj h).symm
  | none =>
    rw [hmatch] at h
    dsimp only at h
    split at h
    · refine hagain [] [] ?_ rfl ?_
      · exact Substring.not_infix_dropLast startMarker_ne_nil
      · rw [List.nil_append, List.append_nil]
        exact (Except.ok.inj h).symm
    · refine hagain (existing.rdropWhile isWhiteSpace ++ text "\n\n") [] ?_ rfl ?_
      · have hline : '\n' ∉ startMarker := by decide
        have hlist : (existing.rdropWhile isWhiteSpace ++ text "\n\n" ++ startMarker).dropLast =
            existing.rdropWhile isWhiteSpace ++ '\n' :: ([] ++ '\n' :: startMarker.dropLast) := by
          rw [List.dropLast_append_of_ne_nil startMarker_ne_nil, List.append_assoc]
          rfl
        rw [hlist]
        intro hoccurs
        cases Substring.infix_of_separator hline hoccurs with
        | inl hbefore =>
          cases hexisting with
          | inl hsome =>
            rw [hmatch] at hsome
            cases hsome
          | inr hnone => exact hnone (hbefore.trans (List.rdropWhile_prefix _ _).isInfix)
        | inr hlater =>
          cases Substring.infix_of_separator hline hlater with
          | inl hnil => exact startMarker_ne_nil (List.infix_nil.mp hnil)
          | inr hstart => exact Substring.not_infix_dropLast startMarker_ne_nil hstart
      · rw [List.append_nil]
        exact (Except.ok.inj h).symm

end Notes

section Replaying

variable {ps : PowerShell} {p : Parameters} {α : Type}

theorem replays_lift {result : Except Text α} : Replays (lift result) := by
  cases result with
  | ok a => exact Replays.pure
  | error error => exact Replays.fail

theorem replays_verifyAsset (asset : Item) (remote : Json) : Replays (verifyAsset ps asset remote) := by
  apply replays_lift.bind
  intro size
  cases hlong : ps.toLong size with
  | none => exact Replays.fail
  | some length =>
    apply Replays.ite Replays.fail
    apply Replays.bind
    · apply Replays.ask_bind
      intro answer
      cases answer with
      | none => exact Replays.fail
      | some hash => exact Replays.pure
    intro localHash
    cases hdigest : remoteDigest ps remote with
    | some digest => exact Replays.ite Replays.pure Replays.fail
    | none =>
      apply Replays.ask_bind
      intro exitCode
      apply Replays.ite Replays.fail
      apply Replays.ask_bind
      intro answer
      cases answer with
      | none => exact Replays.fail
      | some hash => exact Replays.ite Replays.pure Replays.fail

theorem replays_getMissingReleaseAssetPaths (release : ReleaseDocument) :
    Replays (getMissingReleaseAssetPaths ps p.assets release) := by
  apply Replays.ite Replays.fail
  apply replays_lift.bind
  intro named
  induction p.assets with
  | nil => exact Replays.pure
  | cons asset rest ih =>
    rw [missingLoop]
    cases hfind : named.find? fun remote => ps.ceq remote.1 asset.name with
    | none => exact ih.bind fun _ => Replays.pure
    | some remote => exact (replays_verifyAsset asset remote.2).bind fun _ => ih

end Replaying

section Again

variable {ps : PowerShell} {p : Parameters} {around : Surroundings Answer} {body : Text}

/-- The arguments of a run that expects nothing. -/
def Parameters.again (p : Parameters) : Parameters := { p with expectedReleaseId := none }

theorem check_again (h : p.check ps = .ok ()) : p.again.check ps = .ok () ∧
    isReleaseTag ps p.tag = true ∧ isRepository ps p.repository = true := by
  rw [Parameters.check] at h ⊢
  split at h
  · cases h
  · next htag =>
    split at h
    · cases h
    · next hrepository =>
      split at h
      · cases h
      · rw [Bool.not_eq_true', Bool.not_eq_false] at htag hrepository
        refine ⟨?_, htag, hrepository⟩
        have htagAgain : ¬(!isReleaseTag ps p.again.tag) = true := by
          rw [Bool.not_eq_true', Bool.not_eq_false]
          exact htag
        have hrepositoryAgain : ¬(!isRepository ps p.again.repository) = true := by
          rw [Bool.not_eq_true', Bool.not_eq_false]
          exact hrepository
        have hexpected : ¬p.again.expectedReleaseId.any (· < 0) = true := Bool.false_ne_true
        rw [if_neg htagAgain, if_neg hrepositoryAgain, if_neg hexpected]
        exact h

theorem readListing_unpinned {tag : Text} {expectedId : Int} {listing : Listing}
    {release : ReleaseDocument} (h : readListing ps tag expectedId listing = .ok (some release)) :
    readListing ps tag 0 listing = .ok (some release) := by
  obtain ⟨documents, hdocuments, h⟩ := ok_of_bind h
  obtain ⟨matching, hmatching, h⟩ := ok_of_bind h
  rw [readListing, hdocuments]
  change (matchingDocuments ps tag documents >>= _) = _
  rw [hmatching]
  cases matching with
  | nil =>
    dsimp only at h
    split at h <;> cases h
  | cons document rest =>
    cases rest with
    | cons other rest => cases h
    | nil =>
      obtain ⟨found, hfound, h⟩ := ok_of_bind h
      cases h
      obtain ⟨id, hid, hfound⟩ := ok_of_bind hfound
      obtain ⟨draft, hdraft, hfound⟩ := ok_of_bind hfound
      obtain ⟨prerelease, hprerelease, hfound⟩ := ok_of_bind hfound
      obtain ⟨immutable, himmutable, hfound⟩ := ok_of_bind hfound
      obtain ⟨assets, hassets, hfound⟩ := ok_of_bind hfound
      have hread : readRelease ps tag 0 document = .ok release := by
        rw [readRelease, hid]
        simp only [hdraft, hprerelease, himmutable, hassets, bind, Except.bind]
        split at hfound
        · cases hfound
        · next hmutable =>
          rw [if_neg hmutable]
          split at hfound
          · cases hfound
          · exact hfound
      change (readRelease ps tag 0 document >>= _) = _
      rw [hread]
      rfl

theorem lift_run {α : Type} {result : Except Text α} {a : α} {history : History}
    (h : result = .ok a) : lift result around history = (.ok a, history) := by
  rw [h]
  rfl

theorem getUniqueReleaseByTag_run {found : Option ReleaseDocument} {listing : Listing}
    {history : History} (htag : isReleaseTag ps p.tag = true)
    (hrepository : isRepository ps p.repository = true)
    (hanswer : around .listReleases history = listing)
    (hread : readListing ps p.tag 0 listing = .ok found) :
    getUniqueReleaseByTag ps p.repository p.tag 0 around history =
      (.ok found, history ++ [⟨.listReleases, listing⟩]) := by
  rw [getUniqueReleaseByTag, htag, hrepository, Bool.not_true, if_neg Bool.false_ne_true,
    if_neg Bool.false_ne_true, if_neg (lt_irrefl 0), Dialogue.ask_bind_run, hanswer]
  exact lift_run hread

theorem hasTexts_ok {release : ReleaseDocument} (h : hasTexts ps p body release = .ok true) :
    ∃ value, requireProperty (text "body") release.document = .ok value ∧
      ps.ceq (ps.toText value) body = true := by
  obtain ⟨name, -, h⟩ := ok_of_bind h
  split at h
  · cases h
  · obtain ⟨value, hvalue, h⟩ := ok_of_bind h
    exact ⟨value, hvalue, Except.ok.inj h⟩

/-- A run that finds the publication of an earlier one. -/
theorem publish_found {release : ReleaseDocument} {listing : Listing} {since : History}
    (hcheck : p.check ps = .ok ()) (hread : readListing ps p.tag 0 listing = .ok (some release))
    (hbody : releaseBody ps p (some release) = .ok body)
    (hpublished : IsPublished ps p body release since)
    (htranscript : Transcript (getMissingReleaseAssetPaths ps p.assets release) [] since)
    (hanswers : Answers around [] (⟨.listReleases, listing⟩ :: since)) :
    publishReleaseAssets ps p.again around [] = (.ok ⟨⟩, ⟨.listReleases, listing⟩ :: since) := by
  obtain ⟨hagain, htag, hrepository⟩ := check_again hcheck
  have hfind : findRelease ps p.again around [] = (.ok (some release), [⟨.listReleases, listing⟩]) :=
    getUniqueReleaseByTag_run htag hrepository hanswers.1 hread
  have hmissing : getMissingReleaseAssetPaths ps p.again.assets release around
      [⟨.listReleases, listing⟩] = (.ok [], ⟨.listReleases, listing⟩ :: since) :=
    (replays_getMissingReleaseAssetPaths release).transcript htranscript hanswers.2
  have hbodyAgain : releaseBody ps p.again (some release) = .ok body := hbody
  have hsame : hasTexts ps p.again body release = .ok true := hpublished.texts
  have hprerelease : release.prerelease = p.again.prerelease := hpublished.prerelease
  rw [publishReleaseAssets, Dialogue.bind_run_ok _ (lift_run hagain), Dialogue.bind_run_ok _ hfind,
    Dialogue.bind_run_ok _ (lift_run hbodyAgain)]
  dsimp only
  rw [hpublished.published, if_neg Bool.false_ne_true, confirmPublished, hpublished.immutable,
    Bool.not_true, if_neg Bool.false_ne_true, Dialogue.bind_run_ok _ hmissing,
    if_neg (fun h => h rfl), Dialogue.bind_run_ok _ (lift_run hsame), hprerelease]
  have hdone : ¬(!true || decide (p.again.prerelease ≠ p.again.prerelease)) = true := by simp
  rw [if_neg hdone]
  rfl

/-- The first list of releases shows a body that is tidy, or no release. -/
def StartsTidy (ps : PowerShell) (p : Parameters) (h : History) : Prop :=
  ∀ listing rest release existing, h = ⟨.listReleases, listing⟩ :: rest →
    readListing ps p.tag (p.expectedReleaseId.getD 0) listing = .ok (some release) →
    bodyOf ps (some release) = .ok existing → Tidy existing

/-- GitHub keeps the body that it was sent: where a list behind the request that publishes shows one
that PowerShell takes for it, it is that text. -/
def KeepsBody (ps : PowerShell) (p : Parameters) (h : History) : Prop :=
  ∀ front releaseId request checks listing since release shown,
    h = front ++ ⟨.finalize releaseId request, (0 : Int)⟩ :: (checks ++ ⟨.listReleases, listing⟩ :: since) →
    readListing ps p.tag releaseId listing = .ok (some release) →
    bodyOf ps (some release) = .ok shown → ps.ceq shown request.body = true → shown = request.body

def plainText : Json → Text
  | .string value => value
  | .number digits => digits
  | _ => []

def plainLong (digits : Text) : Option Int :=
  some (digits.foldl (fun value c => 10 * value + (c.toNat - 48)) 0)

def plainDocument (draft immutable : Bool) (body : Text) (assets : List Json) : Json :=
  .object [(text "id", .number (text "7")), (text "tag_name", .string (text "v1.0.0")),
    (text "name", .string (text "First")), (text "body", .string body), (text "draft", .bool draft),
    (text "prerelease", .bool false), (text "immutable", .bool immutable),
    (text "assets", .array assets)]

def plainAsset : Json :=
  .object [(text "name", .string (text "a.zip")), (text "size", .number (text "5")),
    (text "digest", .string (text "sha256:" ++ List.replicate 64 'a'))]

/-- The lists of releases as GitHub writes them, with what they say: no release, a draft, the draft with
its file, and the publication. -/
def plainPages : List (Text × List Json) :=
  let opening := text "[[\x7b\"id\":7,\"tag_name\":\"v1.0.0\",\"name\":\"First\",\"body\":\""
  let asset := text "\x7b\"name\":\"a.zip\",\"size\":5,\"digest\":\"sha256:" ++
    List.replicate 64 'a' ++ text "\"\x7d"
  let draft := text "\",\"draft\":true,\"prerelease\":false,\"immutable\":false,\"assets\":["
  let published := text "\",\"draft\":false,\"prerelease\":false,\"immutable\":true,\"assets\":["
  let closing := text "]\x7d]]"
  [(text "[[]]", []),
    (opening ++ draft ++ closing, [plainDocument true false [] []]),
    (opening ++ draft ++ asset ++ closing, [plainDocument true false [] [plainAsset]]),
    (opening ++ startMarker ++ text "\\nNotes\\n" ++ endMarker ++ published ++ asset ++ closing,
      [plainDocument false true (generatedBlock (text "Notes")) [plainAsset]])]

def plainPowerShell : PowerShell where
  convertFromJson json :=
    (plainPages.find? fun page => text "\x7b\"pages\":" ++ page.1 ++ text "\x7d" = json).map fun page =>
      .object [(text "pages", .array [.array page.2])]
  toText := plainText
  toLong value := plainLong (plainText value)
  tryParseLong := plainLong
  ceq a b := a = b
  sameGroup a b := a.map plainText = b.map plainText
  isLetter c := ('a' ≤ c && c ≤ 'z') || ('A' ≤ c && c ≤ 'Z')
  isDigit c := '0' ≤ c && c ≤ '9'
  sameGroup_refl _ := decide_eq_true rfl

theorem plainPowerShell_keepsBody (p : Parameters) (h : History) : KeepsBody plainPowerShell p h := by
  intro front releaseId request checks listing since release shown _ _ _ hsame
  exact of_decide_eq_true hsame

def plainGitHub : Surroundings Answer
  | .listReleases, history =>
    let state := if history.any fun e => e.1.finalizes then 3
      else if history.any fun e => e.1.fills 7 then 2
      else if history.any fun e => e.1.mutates then 1 else 0
    ⟨0, [(plainPages.getD state ([], [])).1]⟩
  | .getFileHash _, _ => some (List.replicate 64 'A')
  | .download _, _ => 1
  | .downloadedHash _, _ => none
  | .createDraft _ _ _, _ => 0
  | .readToken, _ => text "token"
  | .getItem _, _ => true
  | .upload _ _, _ => 0
  | .finalize _ _, _ => 0
  | .sleep, _ => ⟨⟩

def plainParameters : Parameters where
  assets := [⟨text "a.zip", 5, true, false⟩]
  tag := text "v1.0.0"
  repository := text "a/b"
  expectedAssetNames := [text "a.zip"]
  title := text "First"
  notesTemplate := text "Notes"

def firstListing : History → Option Listing
  | ⟨.listReleases, listing⟩ :: _ => some listing
  | _ => none

def showsNone : Except Text (Option ReleaseDocument) → Bool
  | .ok none => true
  | _ => false

theorem plainRun_facts :
    (publishReleaseAssets plainPowerShell plainParameters plainGitHub []).1 = .ok ⟨⟩ ∧
      firstListing (publishReleaseAssets plainPowerShell plainParameters plainGitHub []).2 =
        some ⟨0, [text "[[]]"]⟩ ∧
      showsNone (readListing plainPowerShell plainParameters.tag 0 ⟨0, [text "[[]]"]⟩) = true ∧
      Substring.find endMarker (generatedNotes plainParameters.notesTemplate plainParameters.tag
        plainParameters.channelNotice) = none := by
  decide +kernel

theorem plainRun_startsTidy : StartsTidy plainPowerShell plainParameters
    (publishReleaseAssets plainPowerShell plainParameters plainGitHub []).2 := by
  intro listing rest release existing hh hread _
  obtain ⟨-, hfirst, hnone, -⟩ := plainRun_facts
  rw [hh] at hfirst
  cases hfirst
  have hlisted : showsNone (readListing plainPowerShell plainParameters.tag 0 ⟨0, [text "[[]]"]⟩) = false :=
    congrArg showsNone hread
  rw [hlisted] at hnone
  cases hnone

/-- After a run that has ended with success there is nothing left to do: as long as GitHub and the
files are what they were, another run succeeds and changes nothing. -/
theorem publish_again
    (hgenerated : ¬ endMarker <:+: generatedNotes p.notesTemplate p.tag p.channelNotice) {h : History}
    (hdone : publishReleaseAssets ps p around [] = (.ok ⟨⟩, h)) (htidy : StartsTidy ps p h)
    (hkeeps : KeepsBody ps p h) :
    ∃ old listing since, h = old ++ ⟨.listReleases, listing⟩ :: since ∧ Only Checks since ∧
      ∀ around', Answers around' [] (⟨.listReleases, listing⟩ :: since) →
        publishReleaseAssets ps p.again around' [] = (.ok ⟨⟩, ⟨.listReleases, listing⟩ :: since) := by
  have hmeets := @ensures_publishReleaseAssets ps p around [] rfl
  rw [hdone] at hmeets
  obtain ⟨hallowed, old, listing, release, body, since, hh, hchecks, hpublished, htranscript, hcases⟩ :=
    hmeets
  have hcheck : p.check ps = .ok () := by
    cases hcheck : p.check ps with
    | ok done => rfl
    | error error =>
      rw [publishReleaseAssets, hcheck] at hdone
      cases hdone
  refine ⟨old, listing, since, hh, hchecks, fun around' hanswers => ?_⟩
  cases hcases with
  | inl hfound => exact publish_found hcheck hfound.2.1 hfound.2.2 hpublished htranscript hanswers
  | inr hfinalized =>
    obtain ⟨hread, hfinalized⟩ := hfinalized
    refine publish_found hcheck (readListing_unpinned hread) ?_ hpublished htranscript hanswers
    obtain ⟨front, rest, hold⟩ := List.append_of_mem hfinalized
    rw [hold, List.append_assoc] at hh
    obtain ⟨value, hvalue, hsame⟩ := hasTexts_ok hpublished.texts
    have hshown : bodyOf ps (some release) = .ok (ps.toText value) := by
      rw [bodyOf, hvalue]
      rfl
    have hkept : ps.toText value = body :=
      hkeeps front _ _ rest listing since release _ hh hread hshown hsame
    have hremote : bodyOf ps (some release) = .ok body := hshown.trans (congrArg Except.ok hkept)
    have hmerge : mergeBody body (generatedBlock
        (generatedNotes p.notesTemplate p.tag p.channelNotice)) = .ok body := by
      obtain ⟨body', opening, first, draft, between, listing', release', checks, hfront, hopening,
        hrequest, -⟩ := hallowed front _ _ hh
      rw [hfront] at hh
      have hbody : body = body' := congrArg FinalizeRequest.body hrequest
      subst hbody
      cases hopening with
      | created listing listing' release hread hexpected hbody hcreated hid =>
        obtain ⟨existing, hexisting, hmerged⟩ := ok_of_bind hbody
        cases hexisting
        exact mergeBody_again hgenerated tidy_nil hmerged
      | found listing release hread hexpected hid hdraft hbody =>
        obtain ⟨existing, hexisting, hmerged⟩ := ok_of_bind hbody
        exact mergeBody_again hgenerated (htidy listing _ release existing hh hread hexisting) hmerged
    rw [releaseBody, hremote]
    exact hmerge

theorem publish_again_plain : ∃ old listing since,
    (publishReleaseAssets plainPowerShell plainParameters plainGitHub []).2 =
      old ++ ⟨.listReleases, listing⟩ :: since ∧ Only Checks since ∧
      ∀ around', Answers around' [] (⟨.listReleases, listing⟩ :: since) →
        publishReleaseAssets plainPowerShell plainParameters.again around' [] =
          (.ok ⟨⟩, ⟨.listReleases, listing⟩ :: since) := by
  have hnotes := Substring.find_none plainRun_facts.2.2.2
  have hrun : ∀ {outcome : Except (Stop Text) PUnit × History}, outcome.1 = .ok ⟨⟩ →
      outcome = (.ok ⟨⟩, outcome.2) := by
    intro outcome h
    rw [← h]
  exact publish_again hnotes (hrun plainRun_facts.1) plainRun_startsTidy (plainPowerShell_keepsBody _ _)

end Again

end FfbInterceptor.Release.Publisher
