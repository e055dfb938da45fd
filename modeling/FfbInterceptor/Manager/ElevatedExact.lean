import FfbInterceptor.Manager.Elevated

/-! The helper reads exactly the requests of its grammar, and reads what the manager writes. -/
namespace FfbInterceptor.Manager
open FfbInterceptor.Launcher
open FfbInterceptor.Library

section Grammar

variable {getDriveType : WString → DriveType} {arguments : List WString}
  {before request : ElevatedPluginRequest}

theorem managerInvocationEventNameIsValid_iff (name : WString) :
    managerInvocationEventNameIsValid name = true ↔ EventName name := by
  simp only [managerInvocationEventNameIsValid]
  constructor
  · intro h
    split at h
    · cases h
    · next hshape =>
      simp only [Bool.or_eq_true, decide_eq_true_eq, not_or, not_not] at hshape
      refine ⟨name.drop kManagerInvocationEventStart.length, ?_, List.all_eq_true.mp h, ?_⟩
      · rw [List.length_drop, hshape.1, Nat.add_sub_cancel_left]
      · calc
          name = name.take kManagerInvocationEventStart.length ++
              name.drop kManagerInvocationEventStart.length := (List.take_append_drop _ _).symm
          _ = _ := by rw [hshape.2]
  · intro h
    obtain ⟨digits, hlength, hdigits, rfl⟩ := h
    rw [if_neg, List.drop_left]
    · exact List.all_eq_true.mpr hdigits
    · simp only [Bool.or_eq_true, decide_eq_true_eq, not_or, not_not, List.take_left, and_true]
      rw [List.length_append, hlength]

theorem parse_of_requests (h : Requests getDriveType arguments request) :
    parseElevatedPluginRequest getDriveType arguments before = ⟨.valid, request, none⟩ := by
  have hother : ¬wide "uninstall" = wide "install" := by decide
  cases h with
  | install hevent =>
    have hname := (managerInvocationEventNameIsValid_iff _).mpr hevent
    simp [parseElevatedPluginRequest, hname]
  | installAt hevent hpath =>
    have hname := (managerInvocationEventNameIsValid_iff _).mpr hevent
    simp [parseElevatedPluginRequest, hname, hpath]
  | uninstall hevent =>
    have hname := (managerInvocationEventNameIsValid_iff _).mpr hevent
    simp [parseElevatedPluginRequest, hname, hother]

/-- Whatever is parsed as valid is in the grammar. -/
theorem requests_of_valid
    (h : (parseElevatedPluginRequest getDriveType arguments before).result = .valid) :
    Requests getDriveType arguments
      (parseElevatedPluginRequest getDriveType arguments before).request := by
  revert h
  rw [parseElevatedPluginRequest]
  split
  · exact nofun
  · next hswitch =>
    simp only [Bool.or_eq_true, decide_eq_true_eq, not_or, not_not] at hswitch
    split
    · exact nofun
    · next hbase =>
      simp only [Bool.not_eq_true', Bool.not_eq_false, Bool.and_eq_true, Bool.or_eq_true,
        decide_eq_true_eq] at hbase
      obtain ⟨⟨hlength, hevent⟩, hname⟩ := hbase
      have hname' := (managerInvocationEventNameIsValid_iff _).mp hname
      split
      · next hinstall =>
        split
        · next hsix =>
          split
          · exact nofun
          · next hpath =>
            simp only [Bool.or_eq_true, decide_eq_true_eq, not_or, not_not, Bool.not_eq_true',
              Bool.not_eq_false] at hpath
            intro _
            obtain ⟨a, b, c, d, e, f, rfl⟩ : ∃ a b c d e f, arguments = [a, b, c, d, e, f] := by
              match arguments, hsix with
              | [a, b, c, d, e, f], _ => exact ⟨a, b, c, d, e, f, rfl⟩
            obtain rfl : a = _ := hswitch.2
            obtain rfl : b = _ := hinstall
            obtain rfl : c = _ := hevent
            obtain rfl : e = _ := hpath.1
            exact .installAt hname' hpath.2
        · next hsix =>
          intro _
          have hfour := hlength.resolve_right hsix
          obtain ⟨a, b, c, d, rfl⟩ : ∃ a b c d, arguments = [a, b, c, d] := by
            match arguments, hfour with
            | [a, b, c, d], _ => exact ⟨a, b, c, d, rfl⟩
          obtain rfl : a = _ := hswitch.2
          obtain rfl : b = _ := hinstall
          obtain rfl : c = _ := hevent
          exact .install hname'
      · split
        · next huninstall =>
          simp only [Bool.and_eq_true, decide_eq_true_eq] at huninstall
          intro _
          obtain ⟨a, b, c, d, rfl⟩ : ∃ a b c d, arguments = [a, b, c, d] := by
            match arguments, huninstall.2 with
            | [a, b, c, d], _ => exact ⟨a, b, c, d, rfl⟩
          obtain rfl : a = _ := hswitch.2
          obtain rfl : b = _ := huninstall.1
          obtain rfl : c = _ := hevent
          exact .uninstall hname'
        · exact nofun

theorem parse_valid_iff :
    ((parseElevatedPluginRequest getDriveType arguments before).result = .valid ∧
      (parseElevatedPluginRequest getDriveType arguments before).request = request) ↔
    Requests getDriveType arguments request := by
  constructor
  · intro h
    obtain ⟨hvalid, rfl⟩ := h
    exact requests_of_valid hvalid
  · intro h
    rw [parse_of_requests h]
    exact ⟨rfl, rfl⟩

theorem parse_notRequested_iff :
    (parseElevatedPluginRequest getDriveType arguments before).result = .notRequested ↔
      arguments = [] ∨ arguments.head? ≠ some kElevatedPluginOperationSwitch := by
  cases arguments with
  | nil => simp [parseElevatedPluginRequest]
  | cons first arguments =>
    rw [parseElevatedPluginRequest]
    by_cases hswitch : first = kElevatedPluginOperationSwitch
    · have hno : ¬((first :: arguments).isEmpty ||
          (first :: arguments).getD 0 [] ≠ kElevatedPluginOperationSwitch) = true := by
        simp [hswitch]
      rw [if_neg hno]
      have hright : ¬(first :: arguments = [] ∨
          (first :: arguments).head? ≠ some kElevatedPluginOperationSwitch) := by
        simp [hswitch]
      refine iff_of_false ?_ hright
      split
      · exact nofun
      · split
        · split
          · split
            · exact nofun
            · exact nofun
          · exact nofun
        · split
          · exact nofun
          · exact nofun
    · simp [hswitch]

theorem parse_invalid_iff :
    (parseElevatedPluginRequest getDriveType arguments before).result = .invalid ↔
      arguments.head? = some kElevatedPluginOperationSwitch ∧
        ¬∃ request, Requests getDriveType arguments request := by
  have hvalid : (parseElevatedPluginRequest getDriveType arguments before).result = .valid ↔
      ∃ request, Requests getDriveType arguments request := by
    constructor
    · intro h
      exact ⟨_, requests_of_valid h⟩
    · intro h
      obtain ⟨request, hrequest⟩ := h
      rw [parse_of_requests hrequest]
  have hnone : (parseElevatedPluginRequest getDriveType arguments before).result = .notRequested ↔
      ¬arguments.head? = some kElevatedPluginOperationSwitch := by
    rw [parse_notRequested_iff]
    cases arguments with
    | nil => simp
    | cons first arguments => simp
  rw [← hvalid]
  cases hresult : (parseElevatedPluginRequest getDriveType arguments before).result with
  | notRequested => simpa using fun h => absurd h (hnone.mp hresult)
  | valid => simp
  | invalid =>
    have hsome := mt hnone.mpr (hresult ▸ nofun)
    simpa using hsome

end Grammar

section Parameters

/-- The arguments of a process in its parameters. -/
def parameterText : List WString → WString
  | [] => []
  | argument :: arguments => quote argument ++ quotedArguments arguments

theorem quote_ne_nil (argument : WString) : quote argument ≠ [] := by
  cases quote_cases argument with
  | inl hplain =>
    rw [hplain.1]
    exact hplain.2.1
  | inr hquoted =>
    rw [hquoted]
    exact List.cons_ne_nil _ _

theorem parameterLoop_eq (parameters : WString) (arguments : List WString) (hne : parameters ≠ [])
    (hroom : parameters.length < 32767) :
    parameterLoop parameters arguments =
      if 32767 ≤ (parameters ++ quotedArguments arguments).length then .error .commandLineTooLong
      else .ok (parameters ++ quotedArguments arguments) := by
  induction arguments generalizing parameters with
  | nil =>
    have hshort : ¬32767 ≤ (parameters ++ quotedArguments []).length := by
      rw [quotedArguments, List.flatMap_nil, List.append_nil]
      omega
    rw [if_neg hshort, parameterLoop, quotedArguments, List.flatMap_nil, List.append_nil]
  | cons argument arguments ih =>
    have hempty : ¬parameters.isEmpty = true := fun h => hne (List.isEmpty_iff.mp h)
    have happend : parameters ++ quotedArguments (argument :: arguments) =
        (parameters ++ [space] ++ quote argument) ++ quotedArguments arguments := by
      simp [quotedArguments]
    rw [parameterLoop, if_neg hempty, quoteCommandArgument, happend]
    by_cases hlong : 32767 ≤ (parameters ++ [space] ++ quote argument).length
    · have hall : 32767 ≤ ((parameters ++ [space] ++ quote argument) ++
          quotedArguments arguments).length := by
        rw [List.length_append]
        exact hlong.trans (Nat.le_add_right _ _)
      rw [if_pos hlong, if_pos hall]
    · rw [if_neg hlong]
      refine ih _ ?_ (Nat.not_le.mp hlong)
      exact List.append_ne_nil_of_right_ne_nil _ (quote_ne_nil argument)

theorem buildParameterText_eq (arguments : List WString) : buildParameterText arguments =
    if 32767 ≤ (parameterText arguments).length then .error .commandLineTooLong
    else .ok (parameterText arguments) := by
  cases arguments with
  | nil => rfl
  | cons argument arguments =>
    rw [buildParameterText, parameterLoop, quoteCommandArgument, parameterText]
    simp only [List.isEmpty_nil, ↓reduceIte, List.nil_append]
    by_cases hlong : 32767 ≤ (quote argument).length
    · have hall : 32767 ≤ (quote argument ++ quotedArguments arguments).length := by
        rw [List.length_append]
        exact hlong.trans (Nat.le_add_right _ _)
      rw [if_pos hlong, if_pos hall]
    · rw [if_neg hlong]
      exact parameterLoop_eq _ _ (quote_ne_nil argument) (Nat.not_le.mp hlong)

theorem helperArguments_parameterText (doubled : DoubledQuote) (executable : FilePath)
    {arguments : List WString} (hne : arguments ≠ []) (h : ∀ a ∈ arguments, ∀ c ∈ a, c ≠ 0) :
    helperArguments doubled (shellCommandLine executable (parameterText arguments)) = arguments := by
  obtain ⟨first, rest, rfl⟩ := List.exists_cons_of_ne_nil hne
  have hline : shellCommandLine executable (parameterText (first :: rest)) =
      windows.quote :: (executable.value ++ windows.quote :: quotedArguments (first :: rest)) := by
    simp [shellCommandLine, parameterText, quotedArguments, windows]
  have hnul : ∀ c ∈ shellCommandLine executable (parameterText (first :: rest)), c ≠ 0 := by
    intro c hc
    rw [hline, List.mem_cons, List.mem_append, List.mem_cons] at hc
    have hquote : windows.quote ≠ 0 := by decide
    obtain rfl | hc | rfl | hc := hc
    · exact hquote
    · exact fun hzero => executable.nulFree (hzero ▸ hc)
    · exact hquote
    · exact nulFree_quotedArguments h c hc
  rw [helperArguments, argumentVector, cString_of_nulFree hnul, CommandLine.split, hline,
    CommandLine.splitProgram_quoted executable.quoteFree, splitFrom_quotedArguments]
  rfl

end Parameters

section RoundTrip

variable {getDriveType : WString → DriveType} {event path : WString}

theorem nulFree_event (h : EventName event) : ∀ c ∈ event, c ≠ 0 := by
  obtain ⟨digits, -, hdigits, rfl⟩ := h
  intro c hc
  cases List.mem_append.mp hc with
  | inl hstart =>
    have hfree : (0 : UInt16) ∉ kManagerInvocationEventStart := by decide
    exact fun hzero => hfree (hzero ▸ hstart)
  | inr hdigit =>
    have hhex := hdigits c hdigit
    intro hzero
    rw [hzero] at hhex
    revert hhex
    decide

def scriptRequest (isInstaller : Bool) (event path : WString) : ElevatedPluginRequest :=
  ⟨if isInstaller then .install else .uninstall, event, if isInstaller then path else []⟩

theorem requests_runScriptArguments (isInstaller : Bool) (hevent : EventName event)
    (hpath : path = [] ∨ pathIsAbsoluteLocal getDriveType path = true) :
    Requests getDriveType (runScriptArguments isInstaller event path)
      (scriptRequest isInstaller event path) := by
  cases isInstaller with
  | false =>
    rw [runScriptArguments, Bool.and_false]
    exact .uninstall hevent
  | true =>
    rw [runScriptArguments, Bool.and_true]
    cases path with
    | nil => exact .install hevent
    | cons c path => exact .installAt hevent (hpath.resolve_left (List.cons_ne_nil _ _))

theorem nulFree_runScriptArguments (isInstaller : Bool) (hevent : EventName event)
    (hpath : 0 ∉ path) : ∀ a ∈ runScriptArguments isInstaller event path, ∀ c ∈ a, c ≠ 0 := by
  have hswitches : ∀ a ∈ [kElevatedPluginOperationSwitch, kManagerInvocationEventSwitch,
      kSimHubInstallPathSwitch, wide "install", wide "uninstall"], (0 : UInt16) ∉ a := by decide
  have hfixed : ∀ a ∈ [kElevatedPluginOperationSwitch, kManagerInvocationEventSwitch,
      kSimHubInstallPathSwitch, wide "install", wide "uninstall"], ∀ c ∈ a, c ≠ 0 :=
    fun a ha c hc hzero => hswitches a ha (hzero ▸ hc)
  intro a ha
  cases List.mem_append.mp ha with
  | inl hbase =>
    simp only [List.mem_cons, List.not_mem_nil, or_false] at hbase
    obtain rfl | rfl | rfl | rfl := hbase
    · exact hfixed _ (by simp)
    · exact hfixed _ (by cases isInstaller <;> simp)
    · exact hfixed _ (by simp)
    · exact nulFree_event hevent
  | inr hmore =>
    split at hmore
    · simp only [List.mem_cons, List.not_mem_nil, or_false] at hmore
      obtain rfl | rfl := hmore
      · exact hfixed _ (by simp)
      · exact fun c hc hzero => hpath (hzero ▸ hc)
    · exact absurd hmore List.not_mem_nil

/-- A request that has been written as the parameters of the helper is read as it was meant. -/
theorem script_request_arrives (doubled : DoubledQuote) (executable : FilePath) (isInstaller : Bool)
    (hevent : EventName event) (hpath : path = [] ∨ pathIsAbsoluteLocal getDriveType path = true)
    (hnul : 0 ∉ path) (before : ElevatedPluginRequest) :
    let arguments := runScriptArguments isInstaller event path
    parseElevatedPluginRequest getDriveType
        (helperArguments doubled (shellCommandLine executable (parameterText arguments))) before =
      ⟨.valid, scriptRequest isInstaller event path, none⟩ := by
  intro arguments
  have hne : arguments ≠ [] := List.cons_ne_nil _ _
  rw [helperArguments_parameterText doubled executable hne
    (nulFree_runScriptArguments isInstaller hevent hnul)]
  exact parse_of_requests (requests_runScriptArguments isInstaller hevent hpath)

/-- The helper's parser is exact, and what the manager writes for a script within the limit of a command
line is read as the operation, the event and, for an installation, the folder it was written from. -/
theorem elevated_request_exact (getDriveType : WString → DriveType) (before : ElevatedPluginRequest) :
    (∀ arguments request,
      let parse := parseElevatedPluginRequest getDriveType arguments before
      (parse.result = .valid ∧ parse.request = request ↔ Requests getDriveType arguments request) ∧
      (parse.result = .notRequested ↔
        arguments = [] ∨ arguments.head? ≠ some kElevatedPluginOperationSwitch) ∧
      (parse.result = .invalid ↔ arguments.head? = some kElevatedPluginOperationSwitch ∧
        ¬∃ request, Requests getDriveType arguments request)) ∧
    ∀ (doubled : DoubledQuote) (executable : FilePath) (isInstaller : Bool) (event path : WString),
      EventName event → (path = [] ∨ pathIsAbsoluteLocal getDriveType path = true) → 0 ∉ path →
      let arguments := runScriptArguments isInstaller event path
      ((parameterText arguments).length < 32767 ↔
        buildParameterText arguments = .ok (parameterText arguments)) ∧
      ∀ text, buildParameterText arguments = .ok text →
        parseElevatedPluginRequest getDriveType
            (helperArguments doubled (shellCommandLine executable text)) before =
          ⟨.valid, scriptRequest isInstaller event path, none⟩ := by
  refine ⟨fun arguments request => ⟨parse_valid_iff, parse_notRequested_iff, parse_invalid_iff⟩, ?_⟩
  intro doubled executable isInstaller event path hevent hpath hnul arguments
  rw [buildParameterText_eq]
  by_cases hlong : 32767 ≤ (parameterText arguments).length
  · rw [if_pos hlong]
    exact ⟨iff_of_false (Nat.not_lt.mpr hlong) nofun, nofun⟩
  · rw [if_neg hlong]
    refine ⟨iff_of_true (Nat.not_le.mp hlong) rfl, ?_⟩
    intro text htext
    obtain rfl := Except.ok.inj htext
    exact script_request_arrives doubled executable isInstaller hevent hpath hnul before

end RoundTrip

section Uninstallation

def sampleEvent : WString := kManagerInvocationEventStart ++ List.replicate 64 0x30

def sampleExecutable : FilePath := ⟨wide "C:\\FFB\\FFBInterceptor.Manager.exe", by decide, by decide⟩

def sampleArguments : List WString := runScriptArguments false sampleEvent (wide "C:\\SimHub")

theorem sampleEvent_name : EventName sampleEvent := by
  refine ⟨List.replicate 64 0x30, List.length_replicate, fun c hc => ?_, rfl⟩
  exact List.eq_of_mem_replicate hc ▸ by decide

/-- An installation into a folder with a blank arrives as it was asked for. -/
theorem installation_arrives : ∃ text,
    buildParameterText (runScriptArguments true sampleEvent (wide "C:\\Sim Hub")) = .ok text ∧
    parseElevatedPluginRequest (fun _ => .fixed)
        (helperArguments .ordinary (shellCommandLine sampleExecutable text)) {} =
      ⟨.valid, scriptRequest true sampleEvent (wide "C:\\Sim Hub"), none⟩ := by
  have hfolder : pathIsAbsoluteLocal (fun _ => .fixed) (wide "C:\\Sim Hub") = true := by decide
  obtain ⟨hlength, harrives⟩ := (elevated_request_exact (fun _ => .fixed) {}).2 .ordinary
    sampleExecutable true sampleEvent (wide "C:\\Sim Hub") sampleEvent_name (Or.inr hfolder) (by decide)
  have htext := hlength.mp (by decide +kernel)
  exact ⟨_, htext, harrives _ htext⟩

def sampleParse : ElevatedPluginParse :=
  parseElevatedPluginRequest (fun _ => .fixed) (helperArguments .ordinary
    (shellCommandLine sampleExecutable (parameterText sampleArguments))) {}

/-- The folder of the profile is not passed to the uninstaller. -/
theorem uninstall_without_folder : EventName sampleEvent ∧
    pathIsAbsoluteLocal (fun _ => .fixed) (wide "C:\\SimHub") = true ∧
    buildParameterText sampleArguments = .ok (parameterText sampleArguments) ∧
    sampleParse.request.simhubInstallPath ≠ wide "C:\\SimHub" := by
  have hfolder : pathIsAbsoluteLocal (fun _ => .fixed) (wide "C:\\SimHub") = true := by decide
  have hparse : sampleParse = ⟨.valid, scriptRequest false sampleEvent (wide "C:\\SimHub"), none⟩ :=
    script_request_arrives .ordinary sampleExecutable false sampleEvent_name (Or.inr hfolder) (by decide) {}
  refine ⟨sampleEvent_name, hfolder, ?_, ?_⟩
  · rw [buildParameterText_eq, if_neg (by decide +kernel)]
  · rw [hparse]
    decide

end Uninstallation

end FfbInterceptor.Manager
