import FfbInterceptor.Launcher.RoundTrip
import FfbInterceptor.Manager.ManifestExact
import FfbInterceptor.Manager.Signatures

/-! The verdict on the signatures of a package: exact, and closed where the manifest is missing. -/
namespace FfbInterceptor.Manager
open FfbInterceptor.Launcher

section Case

variable {left right value : WString}

theorem isWideHex_wideLower (c : UInt16) : isWideHex (wideLower c) = isWideHex c := by
  rw [wideLower]
  split
  · next hupper =>
    simp only [Bool.and_eq_true, decide_eq_true_eq, UInt16.le_iff_toNat_le] at hupper
    have h41 : (0x41 : UInt16).toNat = 65 := rfl
    have h5A : (0x5A : UInt16).toNat = 90 := rfl
    have hsum : (c + 0x20).toNat = c.toNat + 32 := by
      rw [UInt16.toNat_add]
      have h20 : (0x20 : UInt16).toNat = 32 := rfl
      omega
    simp only [isWideHex, UInt16.le_iff_toNat_le, hsum]
    have h30 : (0x30 : UInt16).toNat = 48 := rfl
    have h39 : (0x39 : UInt16).toNat = 57 := rfl
    have h61 : (0x61 : UInt16).toNat = 97 := rfl
    have h66 : (0x66 : UInt16).toNat = 102 := rfl
    have h46 : (0x46 : UInt16).toNat = 70 := rfl
    rw [Bool.eq_iff_iff]
    simp only [Bool.or_eq_true, Bool.and_eq_true, decide_eq_true_eq]
    omega
  · rfl

theorem validSha256Text_of_lower (h : lowerCopy left = lowerCopy right) :
    validSha256Text left = validSha256Text right := by
  have hvalue : ∀ value, validSha256Text value =
      (decide ((lowerCopy value).length = 64) && (lowerCopy value).all isWideHex) := by
    intro value
    have hall : (isWideHex ∘ wideLower) = isWideHex := funext isWideHex_wideLower
    rw [validSha256Text, lowerCopy, List.length_map, List.all_map, hall]
  rw [hvalue left, hvalue right, h]

theorem nulFree_of_valid (h : validSha256Text value = true) : cString value = value := by
  simp only [validSha256Text, Bool.and_eq_true, List.all_eq_true] at h
  refine cString_of_nulFree fun c hc hzero => ?_
  have hhex := h.2 c hc
  rw [hzero] at hhex
  revert hhex
  decide

theorem equalIgnoringCase_iff (hleft : validSha256Text left = true)
    (hright : validSha256Text right = true) :
    equalIgnoringCase left right = true ↔ lowerCopy left = lowerCopy right := by
  rw [equalIgnoringCase, nulFree_of_valid hleft, nulFree_of_valid hright, decide_eq_true_eq]

theorem lowerCopy_ne_nil (h : validSha256Text value = true) : lowerCopy value ≠ [] := by
  simp only [validSha256Text, Bool.and_eq_true, decide_eq_true_eq] at h
  intro hnil
  rw [lowerCopy, List.map_eq_nil_iff] at hnil
  rw [hnil] at h
  exact absurd h.1 (by decide)

end Case

section Verdict

variable {policy : SignaturePolicy} {report : SignatureReport} {item : SignatureEvidence}
  {evidence : List SignatureEvidence}

def ItemAcceptable (policy : SignaturePolicy) (item : SignatureEvidence) : Prop :=
  (item.trusted = true ∧ validSha256Text item.signerSha256 = true) ∧
    (policy.expectedSignerSha256 ≠ [] →
      equalIgnoringCase item.signerSha256 policy.expectedSignerSha256 = true)

def SignersAgree (common : WString) (evidence : List SignatureEvidence) : Prop :=
  ∃ signer, (common = [] ∨ common = signer) ∧ ∀ item ∈ evidence, lowerCopy item.signerSha256 = signer

theorem evaluateItem_issues : (evaluateItem policy report item).issues = [] ↔
    report.issues = [] ∧ ItemAcceptable policy item ∧
      (report.commonSignerSha256 = [] ∨
        report.commonSignerSha256 = lowerCopy item.signerSha256) := by
  have happend : ∀ (issues : List IntegrityIssue) issue, ¬issues ++ [issue] = [] := by simp
  rw [evaluateItem]
  split
  · next hbad =>
    simp only [Bool.or_eq_true, Bool.not_eq_true'] at hbad
    refine iff_of_false (happend _ _) fun h => ?_
    obtain ⟨-, ⟨⟨htrusted, hvalid⟩, -⟩, -⟩ := h
    rw [htrusted, hvalid] at hbad
    cases hbad with
    | inl h => cases h
    | inr h => cases h
  · next hgood =>
    simp only [Bool.or_eq_true, Bool.not_eq_true', not_or, Bool.not_eq_false] at hgood
    have hpinned : ((!policy.expectedSignerSha256.isEmpty &&
        !equalIgnoringCase item.signerSha256 policy.expectedSignerSha256) = true) ↔
        ¬(policy.expectedSignerSha256 ≠ [] →
          equalIgnoringCase item.signerSha256 policy.expectedSignerSha256 = true) := by
      cases policy.expectedSignerSha256 with
      | nil => simp
      | cons first rest => simp
    have hacceptable : ItemAcceptable policy item ↔ (policy.expectedSignerSha256 ≠ [] →
        equalIgnoringCase item.signerSha256 policy.expectedSignerSha256 = true) :=
      and_iff_right hgood
    rw [hacceptable]
    dsimp only
    by_cases hpin : policy.expectedSignerSha256 ≠ [] →
        equalIgnoringCase item.signerSha256 policy.expectedSignerSha256 = true
    · rw [if_neg (fun h => hpinned.mp h hpin)]
      rw [eq_true hpin, true_and]
      by_cases hempty : report.commonSignerSha256 = []
      · simp [hempty]
      · by_cases hsame : report.commonSignerSha256 = lowerCopy item.signerSha256
        · simp [hempty, ← hsame]
        · simp [hempty, hsame]
    · rw [if_pos (hpinned.mpr hpin)]
      exact iff_of_false (happend _ _) fun h => hpin h.2.1

theorem evaluateItem_common (h : ItemAcceptable policy item) :
    (evaluateItem policy report item).commonSignerSha256 =
      if report.commonSignerSha256 = [] then lowerCopy item.signerSha256
      else report.commonSignerSha256 := by
  have hgood : ¬(!item.trusted || !validSha256Text item.signerSha256) = true := by
    rw [h.1.1, h.1.2]
    decide
  rw [evaluateItem, if_neg hgood]
  simp only [List.isEmpty_iff]
  split
  · split
    · rfl
    · split
      · rfl
      · rfl
  · split
    · rfl
    · split
      · rfl
      · rfl

theorem foldl_evaluateItem_issues :
    (evidence.foldl (evaluateItem policy) report).issues = [] ↔
      report.issues = [] ∧ (∀ item ∈ evidence, ItemAcceptable policy item) ∧
        SignersAgree report.commonSignerSha256 evidence := by
  induction evidence generalizing report with
  | nil =>
    have hagree : SignersAgree report.commonSignerSha256 [] := ⟨_, Or.inr rfl, nofun⟩
    simp [hagree]
  | cons item evidence ih =>
    rw [List.foldl_cons, ih, evaluateItem_issues, List.forall_mem_cons]
    by_cases hitem : ItemAcceptable policy item
    · rw [evaluateItem_common hitem]
      have hne := lowerCopy_ne_nil hitem.1.2
      have hagree : ((report.commonSignerSha256 = [] ∨
            report.commonSignerSha256 = lowerCopy item.signerSha256) ∧
          SignersAgree (if report.commonSignerSha256 = [] then lowerCopy item.signerSha256
            else report.commonSignerSha256) evidence) ↔
          SignersAgree report.commonSignerSha256 (item :: evidence) := by
        constructor
        · intro h
          obtain ⟨hcommon, signer, hsigner, hrest⟩ := h
          have hsame : lowerCopy item.signerSha256 = signer := by
            split at hsigner
            · exact hsigner.resolve_left hne
            · next hset =>
              have hfirst := hcommon.resolve_left hset
              exact hfirst.symm.trans (hsigner.resolve_left hset)
          exact ⟨signer, hcommon.imp_right fun h => h.trans hsame,
            List.forall_mem_cons.mpr ⟨hsame, hrest⟩⟩
        · intro h
          obtain ⟨signer, hsigner, hall⟩ := h
          obtain ⟨hfirst, hrest⟩ := List.forall_mem_cons.mp hall
          refine ⟨hsigner.imp_right fun h => h.trans hfirst.symm, signer, ?_, hrest⟩
          split
          · exact Or.inr hfirst
          · exact hsigner
      tauto
    · exact iff_of_false (fun h => hitem h.1.2.1) (fun h => hitem h.2.1.1)

/-- What a policy that requires signatures accepts. -/
structure Acceptable (policy : SignaturePolicy) (evidence : List SignatureEvidence) : Prop where
  nonempty : evidence ≠ []
  trusted : ∀ item ∈ evidence, item.trusted = true ∧ validSha256Text item.signerSha256 = true
  same : ∀ item ∈ evidence, ∀ other ∈ evidence,
    lowerCopy item.signerSha256 = lowerCopy other.signerSha256
  pinned : policy.expectedSignerSha256 ≠ [] → validSha256Text policy.expectedSignerSha256 = true ∧
    ∀ item ∈ evidence, lowerCopy item.signerSha256 = lowerCopy policy.expectedSignerSha256

theorem initialReport_issues : (initialReport policy evidence).issues = [] ↔ evidence ≠ [] ∧
    (policy.expectedSignerSha256 ≠ [] → validSha256Text policy.expectedSignerSha256 = true) := by
  have hempty : ∀ (test : Bool) (issue : IntegrityIssue),
      (if test = true then [issue] else []) = [] ↔ test = false := by
    intro test issue
    cases test <;> simp
  rw [initialReport, List.append_eq_nil_iff, hempty, hempty]
  cases evidence with
  | nil => simp
  | cons first rest =>
    cases policy.expectedSignerSha256 with
    | nil => simp
    | cons c expected => simp

theorem allowed_iff : (evaluateSignaturePolicy policy evidence).allowed = true ↔
    policy.required = false ∨ Acceptable policy evidence := by
  simp only [evaluateSignaturePolicy, Bool.or_eq_true, Bool.not_eq_true', List.isEmpty_iff]
  rw [foldl_evaluateItem_issues, initialReport_issues]
  refine or_congr_right ?_
  have hcommon : (initialReport policy evidence).commonSignerSha256 = [] := rfl
  rw [hcommon]
  constructor
  · intro h
    obtain ⟨⟨hnonempty, hexpected⟩, hitems, signer, -, hsigner⟩ := h
    refine ⟨hnonempty, fun item hitem => (hitems item hitem).1, ?_, ?_⟩
    · intro item hitem other hother
      exact (hsigner item hitem).trans (hsigner other hother).symm
    · intro hpinned
      refine ⟨hexpected hpinned, fun item hitem => ?_⟩
      obtain ⟨⟨-, hvalid⟩, hequal⟩ := hitems item hitem
      exact (equalIgnoringCase_iff hvalid (hexpected hpinned)).mp (hequal hpinned)
  · intro h
    obtain ⟨first, rest, hevidence⟩ := List.exists_cons_of_ne_nil h.nonempty
    have hfirst : first ∈ evidence := hevidence ▸ List.mem_cons_self
    refine ⟨⟨h.nonempty, fun hpinned => (h.pinned hpinned).1⟩, ?_, _, Or.inl rfl,
      fun item hitem => h.same item hitem first hfirst⟩
    intro item hitem
    obtain ⟨htrusted, hvalid⟩ := h.trusted item hitem
    refine ⟨⟨htrusted, hvalid⟩, fun hpinned => ?_⟩
    obtain ⟨hexpected, hequal⟩ := h.pinned hpinned
    exact (equalIgnoringCase_iff hvalid hexpected).mpr (hequal item hitem)

/-- Evidence that differs in the case of its signers only, as far as the verdict depends on it. -/
def SameButCase (item other : SignatureEvidence) : Prop :=
  item.trusted = other.trusted ∧ lowerCopy item.signerSha256 = lowerCopy other.signerSha256

/-- Evidence with the items of other evidence in any order, and policies alike, give one verdict. -/
theorem Acceptable.of_similar {policy' : SignaturePolicy} {evidence' : List SignatureEvidence}
    (h : Acceptable policy evidence)
    (hpolicy : lowerCopy policy.expectedSignerSha256 = lowerCopy policy'.expectedSignerSha256)
    (hforth : ∀ item ∈ evidence, ∃ other ∈ evidence', SameButCase item other)
    (hback : ∀ other ∈ evidence', ∃ item ∈ evidence, SameButCase item other) :
    Acceptable policy' evidence' := by
  refine ⟨?_, ?_, ?_, ?_⟩
  · intro hnil
    obtain ⟨first, rest, hevidence⟩ := List.exists_cons_of_ne_nil h.nonempty
    obtain ⟨other, hother, -⟩ := hforth first (hevidence ▸ List.mem_cons_self)
    exact List.not_mem_nil (hnil ▸ hother)
  · intro other hother
    obtain ⟨item, hitem, htrust, hsigner⟩ := hback other hother
    rw [← htrust, ← validSha256Text_of_lower hsigner]
    exact h.trusted item hitem
  · intro other hother other' hother'
    obtain ⟨item, hitem, -, hsigner⟩ := hback other hother
    obtain ⟨item', hitem', -, hsigner'⟩ := hback other' hother'
    rw [← hsigner, ← hsigner']
    exact h.same item hitem item' hitem'
  · intro hpinned
    have hne : policy.expectedSignerSha256 ≠ [] := by
      intro hnil
      rw [hnil] at hpolicy
      exact hpinned (List.map_eq_nil_iff.mp hpolicy.symm)
    obtain ⟨hvalid, hequal⟩ := h.pinned hne
    rw [← validSha256Text_of_lower hpolicy, ← hpolicy]
    refine ⟨hvalid, fun other hother => ?_⟩
    obtain ⟨item, hitem, -, hsigner⟩ := hback other hother
    rw [← hsigner]
    exact hequal item hitem

theorem allowed_eq_of_acceptable {policy' : SignaturePolicy} {evidence' : List SignatureEvidence}
    (hrequired : policy.required = policy'.required)
    (h : Acceptable policy evidence ↔ Acceptable policy' evidence') :
    (evaluateSignaturePolicy policy evidence).allowed =
      (evaluateSignaturePolicy policy' evidence').allowed := by
  rw [Bool.eq_iff_iff, allowed_iff, allowed_iff, hrequired, h]

theorem SameButCase.symm {item other : SignatureEvidence} (h : SameButCase item other) :
    SameButCase other item := ⟨h.1.symm, h.2.symm⟩

theorem allowed_of_perm {evidence' : List SignatureEvidence} (h : evidence.Perm evidence') :
    (evaluateSignaturePolicy policy evidence).allowed =
      (evaluateSignaturePolicy policy evidence').allowed := by
  have hsame : ∀ {xs ys : List SignatureEvidence}, xs.Perm ys →
      ∀ item ∈ xs, ∃ other ∈ ys, SameButCase item other :=
    fun hperm item hitem => ⟨item, hperm.mem_iff.mp hitem, rfl, rfl⟩
  have hflip : ∀ {xs ys : List SignatureEvidence}, xs.Perm ys →
      ∀ other ∈ ys, ∃ item ∈ xs, SameButCase item other :=
    fun hperm other hother => ⟨other, hperm.mem_iff.mpr hother, rfl, rfl⟩
  refine allowed_eq_of_acceptable rfl ⟨fun hall => ?_, fun hall => ?_⟩
  · exact hall.of_similar rfl (hsame h) (hflip h)
  · exact hall.of_similar rfl (hsame h.symm) (hflip h.symm)

theorem exists_similar {relation : SignatureEvidence → SignatureEvidence → Prop}
    {evidence' : List SignatureEvidence} (h : List.Forall₂ relation evidence evidence') :
    ∀ item ∈ evidence, ∃ other ∈ evidence', relation item other := by
  induction h with
  | nil => exact nofun
  | cons hfirst hrest ih =>
    refine List.forall_mem_cons.mpr ⟨⟨_, List.mem_cons_self, hfirst⟩, fun item hitem => ?_⟩
    obtain ⟨other, hother, hsame⟩ := ih item hitem
    exact ⟨other, List.mem_cons_of_mem _ hother, hsame⟩

theorem allowed_of_case {policy' : SignaturePolicy} {evidence' : List SignatureEvidence}
    (hrequired : policy.required = policy'.required)
    (hpolicy : lowerCopy policy.expectedSignerSha256 = lowerCopy policy'.expectedSignerSha256)
    (h : List.Forall₂ SameButCase evidence evidence') :
    (evaluateSignaturePolicy policy evidence).allowed =
      (evaluateSignaturePolicy policy' evidence').allowed := by
  have hforth := exists_similar h
  have hback := exists_similar (List.Forall₂.flip (R := flip SameButCase) h)
  refine allowed_eq_of_acceptable hrequired ⟨fun hall => ?_, fun hall => ?_⟩
  · exact hall.of_similar hpolicy hforth hback
  · refine hall.of_similar hpolicy.symm ?_ ?_
    · intro other hother
      obtain ⟨item, hitem, hsame⟩ := hback other hother
      exact ⟨item, hitem, hsame.symm⟩
    · intro item hitem
      obtain ⟨other, hother, hsame⟩ := hforth item hitem
      exact ⟨other, hother, hsame.symm⟩

end Verdict

section Package

variable {verifyTrustedSignature : WString → WString → Bool → SignatureEvidence}
  {policy : SignaturePolicy} {system : System} {world : World} {layout : PackageLayout}
  {runningManagerPath : WString} {entries : List ManifestEntry} {gathering : Gathering}

/-- A file that Windows runs or loads as code of the package. -/
def Signable (path : WString) : Prop :=
  ∃ stem extension, path = stem ++ extension ∧
    lowerCopy extension ∈ [wide ".exe", wide ".dll", wide ".ps1", wide ".psm1"]

theorem wideLower_eq_dot (c : UInt16) : wideLower c = wideDot ↔ c = wideDot := by
  rw [wideLower]
  split
  · next hupper =>
    simp only [Bool.and_eq_true, decide_eq_true_eq, UInt16.le_iff_toNat_le] at hupper
    have h41 : (0x41 : UInt16).toNat = 65 := rfl
    have h5A : (0x5A : UInt16).toNat = 90 := rfl
    have hdot : wideDot.toNat = 46 := rfl
    have hsum : (c + 0x20).toNat = c.toNat + 32 := by
      rw [UInt16.toNat_add]
      have h20 : (0x20 : UInt16).toNat = 32 := rfl
      omega
    rw [← UInt16.toNat_inj, ← UInt16.toNat_inj, hsum, hdot]
    omega
  · rfl

theorem extension?_append {extension : WString} (stem : WString) (h : wideDot ∉ extension) :
    extension? (stem ++ wideDot :: extension) = some (wideDot :: extension) := by
  have hcontains : (stem ++ wideDot :: extension).contains wideDot = true := by simp
  have htake : List.rtakeWhile (· ≠ wideDot) (stem ++ wideDot :: extension) = extension := by
    have hall : ∀ c ∈ extension.reverse, decide (c ≠ wideDot) = true := by
      intro c hc
      exact decide_eq_true (fun heq => h (heq ▸ List.mem_reverse.mp hc))
    rw [List.rtakeWhile, List.reverse_append, List.reverse_cons, List.append_assoc,
      List.takeWhile_append_of_pos hall]
    simp
  rw [extension?, if_pos hcontains, htake]

theorem extension?_eq_some {path extension : WString} (h : extension? path = some extension) :
    ∃ stem, path = stem ++ extension := by
  rw [extension?] at h
  split at h
  · next hcontains =>
    obtain rfl := Option.some.inj h
    have hmem : wideDot ∈ path.reverse := List.mem_reverse.mpr (List.contains_iff_mem.mp hcontains)
    obtain ⟨front, rest, hpath, hfree⟩ := List.eq_append_cons_of_mem hmem
    have hwhole : path = rest.reverse ++ wideDot :: front.reverse := by
      rw [← List.reverse_reverse path, hpath]
      simp
    have hlast := extension?_append rest.reverse (fun h => hfree (List.mem_reverse.mp h))
    rw [← hwhole, extension?, if_pos hcontains] at hlast
    exact ⟨rest.reverse, by rw [Option.some.inj hlast, ← hwhole]⟩
  · cases h

theorem manifestPathRequiresSignature_iff (path : WString) :
    manifestPathRequiresSignature path = true ↔ Signable path := by
  have hshape : ∀ extension,
      lowerCopy extension ∈ [wide ".exe", wide ".dll", wide ".ps1", wide ".psm1"] →
      ∃ rest, extension = wideDot :: rest ∧ wideDot ∉ rest := by
    have hfixed : ∀ text ∈ [wide ".exe", wide ".dll", wide ".ps1", wide ".psm1"],
        text.head? = some wideDot ∧ wideDot ∉ text.tail := by decide
    intro extension hmem
    obtain ⟨hhead, htail⟩ := hfixed _ hmem
    cases extension with
    | nil => cases hhead
    | cons c rest =>
      have hdot : wideLower c = wideDot := Option.some.inj hhead
      refine ⟨rest, congrArg (· :: rest) ((wideLower_eq_dot c).mp hdot), fun hin => htail ?_⟩
      exact List.mem_map.mpr ⟨wideDot, hin, (wideLower_eq_dot wideDot).mpr rfl⟩
  rw [manifestPathRequiresSignature]
  constructor
  · intro h
    cases hextension : extension? path with
    | none =>
      rw [hextension] at h
      cases h
    | some extension =>
      rw [hextension] at h
      obtain ⟨stem, hpath⟩ := extension?_eq_some hextension
      refine ⟨stem, extension, hpath, ?_⟩
      simpa [or_assoc] using h
  · intro h
    obtain ⟨stem, extension, rfl, hmem⟩ := h
    obtain ⟨rest, rfl, hfree⟩ := hshape extension hmem
    rw [extension?_append stem hfree]
    simpa [or_assoc] using hmem

structure Submitted (verifyTrustedSignature : WString → WString → Bool → SignatureEvidence)
    (policy : SignaturePolicy) (layout : PackageLayout) (runningManagerPath : WString)
    (entries : List ManifestEntry) (evidence : List SignatureEvidence)
    (submissions : List (WString × WString)) : Prop where
  evidence_eq : evidence =
    submissions.map fun file => verifyTrustedSignature file.1 file.2 policy.required
  running : submissions.head? = some (runningManagerLabel, runningManagerPath)
  listed : ∀ file ∈ submissions.tail, ∃ entry ∈ entries, Signable entry.relativePath ∧
    file = (entry.relativePath, joinPath layout.root entry.relativePath)
  complete : ∀ entry ∈ entries, Signable entry.relativePath →
    lowerCopy (joinPath layout.root entry.relativePath) ∈ submissions.map fun file => lowerCopy file.2
  once : (submissions.map fun file => lowerCopy file.2).Nodup

def Gathered (verifyTrustedSignature : WString → WString → Bool → SignatureEvidence)
    (policy : SignaturePolicy) (layout : PackageLayout) (runningManagerPath : WString)
    (entries : List ManifestEntry) (gathering : Gathering) : Prop :=
  ∃ submissions, Submitted verifyTrustedSignature policy layout runningManagerPath entries
      gathering.evidence submissions ∧
    gathering.seenPaths = submissions.map fun file => lowerCopy file.2

theorem gathered_running : Gathered verifyTrustedSignature policy layout runningManagerPath []
    (Gathering.add verifyTrustedSignature policy ⟨[], []⟩ runningManagerLabel runningManagerPath) :=
  ⟨[(runningManagerLabel, runningManagerPath)],
    ⟨rfl, rfl, nofun, nofun, List.nodup_singleton _⟩, rfl⟩

theorem Gathered.snoc (h : Gathered verifyTrustedSignature policy layout runningManagerPath entries
    gathering) (entry : ManifestEntry) :
    Gathered verifyTrustedSignature policy layout runningManagerPath (entries ++ [entry])
      (gatherEntry verifyTrustedSignature policy layout gathering entry) := by
  obtain ⟨submissions, hsubmitted, hseen⟩ := h
  have hlisted : ∀ file ∈ submissions.tail, ∃ other ∈ entries ++ [entry],
      Signable other.relativePath ∧
        file = (other.relativePath, joinPath layout.root other.relativePath) := by
    intro file hfile
    obtain ⟨other, hother, hrest⟩ := hsubmitted.listed file hfile
    exact ⟨other, List.mem_append_left _ hother, hrest⟩
  by_cases hsign : manifestPathRequiresSignature entry.relativePath = true
  · rw [gatherEntry, if_pos hsign, Gathering.add]
    have hsignable := (manifestPathRequiresSignature_iff _).mp hsign
    split
    · next hold =>
      rw [hseen, List.contains_iff_mem] at hold
      refine ⟨submissions, ⟨hsubmitted.evidence_eq, hsubmitted.running, hlisted, ?_,
        hsubmitted.once⟩, hseen⟩
      intro other hother hneeds
      cases List.mem_append.mp hother with
      | inl hin => exact hsubmitted.complete other hin hneeds
      | inr hlast => exact List.mem_singleton.mp hlast ▸ hold
    · next hnew =>
      rw [hseen, List.contains_iff_mem] at hnew
      obtain ⟨first, rest, rfl⟩ := List.exists_cons_of_ne_nil
        (show submissions ≠ [] from fun hnil => by simpa [hnil] using hsubmitted.running)
      refine ⟨first :: rest ++ [(entry.relativePath, joinPath layout.root entry.relativePath)],
        ⟨?_, hsubmitted.running, ?_, ?_, ?_⟩, ?_⟩
      · rw [List.map_append, ← hsubmitted.evidence_eq]
        rfl
      · intro file hfile
        rw [List.cons_append, List.tail_cons] at hfile
        cases List.mem_append.mp hfile with
        | inl hin => exact hlisted file hin
        | inr hlast =>
          exact ⟨entry, List.mem_append_right _ (List.mem_singleton_self _), hsignable,
            List.mem_singleton.mp hlast⟩
      · intro other hother hneeds
        rw [List.map_append]
        cases List.mem_append.mp hother with
        | inl hin => exact List.mem_append_left _ (hsubmitted.complete other hin hneeds)
        | inr hlast =>
          rw [List.mem_singleton.mp hlast]
          exact List.mem_append_right _ (List.mem_singleton_self _)
      · rw [List.map_append]
        refine List.nodup_append.mpr ⟨hsubmitted.once, List.nodup_singleton _, ?_⟩
        intro key hkey other hother heq
        have hlast : other = lowerCopy (joinPath layout.root entry.relativePath) :=
          List.mem_singleton.mp hother
        exact hnew (hlast ▸ heq ▸ hkey)
      · rw [List.map_append, ← hseen]
        rfl
  · rw [gatherEntry, if_neg hsign]
    refine ⟨submissions, ⟨hsubmitted.evidence_eq, hsubmitted.running, hlisted, ?_,
      hsubmitted.once⟩, hseen⟩
    intro other hother hneeds
    cases List.mem_append.mp hother with
    | inl hin => exact hsubmitted.complete other hin hneeds
    | inr hlast =>
      rw [List.mem_singleton.mp hlast] at hneeds
      exact absurd ((manifestPathRequiresSignature_iff _).mpr hneeds) hsign

theorem Gathered.foldl (h : Gathered verifyTrustedSignature policy layout runningManagerPath entries
    gathering) (more : List ManifestEntry) :
    Gathered verifyTrustedSignature policy layout runningManagerPath (entries ++ more)
      (more.foldl (gatherEntry verifyTrustedSignature policy layout) gathering) := by
  induction more generalizing entries gathering with
  | nil =>
    rw [List.append_nil]
    exact h
  | cons entry more ih =>
    have hnext := ih (h.snoc entry)
    rwa [List.append_assoc, List.singleton_append] at hnext

theorem readManifest_iff : readManifest system world layout = .ok entries ↔
    HasManifest system world layout entries := by
  rw [readManifest, HasManifest]
  cases hread : (readFileLimited system world layout.manifestPath kMaximumManifestBytes).1 with
  | error error =>
    refine iff_of_false nofun fun h => ?_
    obtain ⟨contents, hcontents, -⟩ := h
    cases hcontents
  | ok contents =>
    dsimp only
    constructor
    · intro h
      split at h
      · next hsucceeded =>
        obtain rfl := Except.ok.inj h
        exact ⟨contents, rfl, eq_of_succeeded hsucceeded⟩
      · cases h
    · intro h
      obtain ⟨_, hcontents, hparsed⟩ := h
      obtain rfl := Except.ok.inj hcontents
      rw [hparsed]
      rfl

theorem packageEvidence_of_manifest (h : HasManifest system world layout entries) :
    ∃ submissions, Submitted verifyTrustedSignature policy layout runningManagerPath entries
      (packageEvidence verifyTrustedSignature policy system world layout runningManagerPath)
      submissions := by
  have hrunning : Gathered verifyTrustedSignature policy layout runningManagerPath [] _ :=
    gathered_running
  obtain ⟨submissions, hsubmitted, -⟩ := hrunning.foldl entries
  refine ⟨submissions, ?_⟩
  rw [packageEvidence, readManifest_iff.mpr h]
  exact hsubmitted

theorem packageEvidence_without_manifest (h : ¬∃ entries, HasManifest system world layout entries) :
    ∃ detail, packageEvidence verifyTrustedSignature policy system world layout runningManagerPath =
      [verifyTrustedSignature runningManagerLabel runningManagerPath policy.required,
        ⟨kManifestName, false, [], detail⟩] := by
  rw [packageEvidence]
  cases hmanifest : readManifest system world layout with
  | error error => exact ⟨manifestErrorText error, rfl⟩
  | ok entries => exact absurd ⟨entries, readManifest_iff.mp hmanifest⟩ h

end Package

section Signatures

/-- The verdict of a policy on evidence is exact and independent of order and case, and the evidence of
a package covers the running manager and every file of the manifest that may run, or else holds an
untrusted item, with which a policy that requires signatures allows nothing. -/
theorem signature_policy_exact
    (verifyTrustedSignature : WString → WString → Bool → SignatureEvidence)
    (policy : SignaturePolicy) (evidence : List SignatureEvidence) :
    ((evaluateSignaturePolicy policy evidence).allowed = true ↔
      policy.required = false ∨ Acceptable policy evidence) ∧
    (∀ evidence' : List SignatureEvidence, evidence.Perm evidence' →
      (evaluateSignaturePolicy policy evidence).allowed =
        (evaluateSignaturePolicy policy evidence').allowed) ∧
    (∀ (policy' : SignaturePolicy) (evidence' : List SignatureEvidence),
      policy.required = policy'.required →
      lowerCopy policy.expectedSignerSha256 = lowerCopy policy'.expectedSignerSha256 →
      List.Forall₂ SameButCase evidence evidence' →
      (evaluateSignaturePolicy policy evidence).allowed =
        (evaluateSignaturePolicy policy' evidence').allowed) ∧
    ∀ (system : System) (world : World) (layout : PackageLayout) (runningManagerPath : WString),
      let submitted := packageEvidence verifyTrustedSignature policy system world layout
        runningManagerPath
      verifyPackageSignatures verifyTrustedSignature policy system world layout runningManagerPath =
          evaluateSignaturePolicy policy submitted ∧
      (∀ entries, HasManifest system world layout entries → ∃ submissions,
        Submitted verifyTrustedSignature policy layout runningManagerPath entries submitted
          submissions) ∧
      ((¬∃ entries, HasManifest system world layout entries) →
        (∃ detail, submitted = [verifyTrustedSignature runningManagerLabel runningManagerPath
          policy.required, ⟨kManifestName, false, [], detail⟩]) ∧
        (policy.required = true →
          (verifyPackageSignatures verifyTrustedSignature policy system world layout
            runningManagerPath).allowed = false)) := by
  refine ⟨allowed_iff, fun _ => allowed_of_perm, fun _ _ => allowed_of_case, ?_⟩
  intro system world layout runningManagerPath submitted
  refine ⟨rfl, fun entries => packageEvidence_of_manifest, ?_⟩
  intro hmissing
  have hsubmitted : ∃ detail, submitted = _ := packageEvidence_without_manifest hmissing
  refine ⟨hsubmitted, ?_⟩
  intro hrequired
  obtain ⟨detail, hlist⟩ := hsubmitted
  refine Bool.eq_false_iff.mpr fun hallowed => ?_
  cases allowed_iff.mp hallowed with
  | inl hoptional =>
    rw [hrequired] at hoptional
    cases hoptional
  | inr hacceptable =>
    have hlast := hacceptable.trusted ⟨kManifestName, false, [], detail⟩
      (show _ ∈ submitted from hlist ▸ List.mem_cons_of_mem _ (List.mem_singleton_self _))
    cases hlast.1

def emptySystem : System where
  createFile _ _ := false
  fileInformation _ := none
  finalPathLength _ := 0
  finalPathName _ := []
  fileSize _ := none
  readFile _ _ _ := none
  getDriveType _ := .fixed

/-- A policy that does not require signatures allows a package without a manifest. -/
theorem experimental_allows_missing :
    (¬∃ entries, HasManifest emptySystem .initial (makePackageLayout (wide "C:\\FFB")) entries) ∧
    (verifyPackageSignatures (fun label _ _ => ⟨label, false, [], []⟩) ⟨false, []⟩ emptySystem
      .initial (makePackageLayout (wide "C:\\FFB"))
      (wide "C:\\FFB\\FFBInterceptor.Manager.exe")).allowed = true := by
  refine ⟨?_, allowed_iff.mpr (Or.inl rfl)⟩
  intro h
  obtain ⟨entries, contents, hcontents, -⟩ := h
  cases hcontents

end Signatures

end FfbInterceptor.Manager
