import FfbInterceptor.Manager.Files

/-! The signatures of a package and the policy they are held against (`manager_model.cpp`). -/
namespace FfbInterceptor.Manager
open FfbInterceptor.Launcher

structure IntegrityIssue where
  relativePath : WString
  detail : WString
  deriving DecidableEq, Repr

structure SignatureEvidence where
  relativePath : WString
  trusted : Bool
  signerSha256 : WString
  detail : WString
  deriving DecidableEq, Repr

structure SignaturePolicy where
  required : Bool
  expectedSignerSha256 : WString
  deriving DecidableEq, Repr

structure SignatureReport where
  allowed : Bool := false
  allTrusted : Bool := false
  commonSignerSha256 : WString := []
  issues : List IntegrityIssue := []
  deriving DecidableEq, Repr

section Policy

def isWideHex (c : UInt16) : Bool :=
  (0x30 ≤ c && c ≤ 0x39) || (0x61 ≤ c && c ≤ 0x66) || (0x41 ≤ c && c ≤ 0x46)

def validSha256Text (value : WString) : Bool := value.length = 64 && value.all isWideHex

def evaluateItem (policy : SignaturePolicy) (report : SignatureReport) (item : SignatureEvidence) :
    SignatureReport :=
  if !item.trusted || !validSha256Text item.signerSha256 then
    { report with
      allTrusted := false
      issues := report.issues ++ [⟨item.relativePath,
        if item.detail.isEmpty then wide "缺少受信任簽章。" else item.detail⟩] }
  else
    let signer := lowerCopy item.signerSha256
    let report :=
      if report.commonSignerSha256.isEmpty then { report with commonSignerSha256 := signer }
      else if report.commonSignerSha256 ≠ signer then
        { report with issues := report.issues ++
            [⟨item.relativePath, wide "簽署者與套件內其他必要檔案不同。"⟩] }
      else report
    if !policy.expectedSignerSha256.isEmpty &&
        !equalIgnoringCase item.signerSha256 policy.expectedSignerSha256 then
      { report with issues := report.issues ++
          [⟨item.relativePath, wide "簽署者不是穩定版指定的憑證。"⟩] }
    else report

def initialReport (policy : SignaturePolicy) (evidence : List SignatureEvidence) : SignatureReport :=
  { allTrusted := !evidence.isEmpty
    issues :=
      (if evidence.isEmpty then [⟨wide "簽章政策", wide "沒有任何簽章證據可供驗證。"⟩] else []) ++
      (if !policy.expectedSignerSha256.isEmpty && !validSha256Text policy.expectedSignerSha256 then
        [⟨wide "簽章政策", wide "編譯時指定的簽署者 SHA-256 格式無效。"⟩] else []) }

def evaluateSignaturePolicy (policy : SignaturePolicy) (evidence : List SignatureEvidence) :
    SignatureReport :=
  let report := evidence.foldl (evaluateItem policy) (initialReport policy evidence)
  { report with allowed := !policy.required || report.issues.isEmpty }

end Policy

section Package

def wideDot : UInt16 := 0x2E

/-- `path.substr(path.find_last_of(L'.'))`, if there is a dot. -/
def extension? (path : WString) : Option WString :=
  if path.contains wideDot then some (wideDot :: path.rtakeWhile (· ≠ wideDot)) else none

def manifestPathRequiresSignature (path : WString) : Bool :=
  match extension? path with
  | none => false
  | some extension =>
    let extension := lowerCopy extension
    extension = wide ".exe" || extension = wide ".dll" || extension = wide ".ps1" ||
      extension = wide ".psm1"

structure Gathering where
  seenPaths : List WString
  evidence : List SignatureEvidence

variable (verifyTrustedSignature : WString → WString → Bool → SignatureEvidence)
  (policy : SignaturePolicy)

def Gathering.add (gathering : Gathering) (label path : WString) : Gathering :=
  if gathering.seenPaths.contains (lowerCopy path) then gathering
  else ⟨gathering.seenPaths ++ [lowerCopy path],
    gathering.evidence ++ [verifyTrustedSignature label path policy.required]⟩

def gatherEntry (layout : PackageLayout) (gathering : Gathering) (entry : ManifestEntry) : Gathering :=
  if manifestPathRequiresSignature entry.relativePath then
    gathering.add verifyTrustedSignature policy entry.relativePath
      (joinPath layout.root entry.relativePath)
  else gathering

def runningManagerLabel : WString := wide "FFBInterceptor.Manager.exe（執行中）"

def manifestErrorText (text : WString) : WString :=
  if text.isEmpty then wide "無法取得簽章驗證所需的 manifest。" else text

def readManifest (system : System) (world : World) (layout : PackageLayout) :
    Except WString (List ManifestEntry) :=
  match (readFileLimited system world layout.manifestPath kMaximumManifestBytes).1 with
  | .error error => .error (wide error.text)
  | .ok contents =>
    let parsed := parseManifestText contents
    if parsed.succeeded then .ok parsed.entries
    else .error ((parsed.error.map fun error => wide error.text).getD [])

/-- The evidence `verify_package_signatures` submits. -/
def packageEvidence (system : System) (world : World) (layout : PackageLayout)
    (runningManagerPath : WString) : List SignatureEvidence :=
  let gathering := Gathering.add verifyTrustedSignature policy ⟨[], []⟩ runningManagerLabel
    runningManagerPath
  match readManifest system world layout with
  | .error error => gathering.evidence ++ [⟨kManifestName, false, [], manifestErrorText error⟩]
  | .ok entries =>
    (entries.foldl (gatherEntry verifyTrustedSignature policy layout) gathering).evidence

def verifyPackageSignatures (system : System) (world : World) (layout : PackageLayout)
    (runningManagerPath : WString) : SignatureReport :=
  evaluateSignaturePolicy policy
    (packageEvidence verifyTrustedSignature policy system world layout runningManagerPath)

end Package

end FfbInterceptor.Manager
