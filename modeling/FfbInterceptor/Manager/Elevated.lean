import FfbInterceptor.Launcher.RoundTrip
import FfbInterceptor.Manager.Paths

/-! The request to the elevated helper: how the manager writes it as the parameters of a process, and
how the helper reads its arguments. -/
namespace FfbInterceptor.Manager
open FfbInterceptor.Launcher
open FfbInterceptor.Library

def kElevatedPluginOperationSwitch : WString := wide "--elevated-plugin-op"
def kManagerInvocationEventSwitch : WString := wide "--manager-invocation-event"
def kSimHubInstallPathSwitch : WString := wide "--simhub-install-path"

def kManagerInvocationEventStart : WString := wide "Local\\FFBInterceptor.ManagerElevation.v1."

inductive ElevatedPluginOperation where
  | install
  | uninstall
  deriving DecidableEq, Repr

structure ElevatedPluginRequest where
  operation : ElevatedPluginOperation := .install
  managerInvocationEvent : WString := []
  simhubInstallPath : WString := []
  deriving DecidableEq, Repr

inductive ElevatedPluginParseResult where
  | notRequested
  | valid
  | invalid
  deriving DecidableEq, Repr

inductive ElevatedError where
  | malformed
  | invalidSimHubPath
  | unknownOperation
  deriving DecidableEq, Repr

def ElevatedError.text : ElevatedError → String
  | .malformed => "受控提權 helper 的參數格式無效。"
  | .invalidSimHubPath => "受控安裝的 SimHub 路徑無效。"
  | .unknownOperation => "受控提權 helper 只接受固定的安裝或解除安裝操作。"

section Helper

def isUpperHex (c : UInt16) : Bool := (0x30 ≤ c && c ≤ 0x39) || (0x41 ≤ c && c ≤ 0x46)

def managerInvocationEventNameIsValid (name : WString) : Bool :=
  let start := kManagerInvocationEventStart
  if name.length ≠ start.length + 64 || name.take start.length ≠ start then false
  else (name.drop start.length).all isUpperHex

/-- What a parse returns, the request it leaves, and the error it reports. -/
structure ElevatedPluginParse where
  result : ElevatedPluginParseResult
  request : ElevatedPluginRequest
  error : Option ElevatedError
  deriving DecidableEq, Repr

variable (getDriveType : WString → DriveType)

def parseElevatedPluginRequest (arguments : List WString) (request : ElevatedPluginRequest) :
    ElevatedPluginParse :=
  if arguments.isEmpty || arguments.getD 0 [] ≠ kElevatedPluginOperationSwitch then
    ⟨.notRequested, request, none⟩
  else if !((arguments.length = 4 || arguments.length = 6) &&
      arguments.getD 2 [] = kManagerInvocationEventSwitch &&
      managerInvocationEventNameIsValid (arguments.getD 3 [])) then ⟨.invalid, {}, some .malformed⟩
  else if arguments.getD 1 [] = wide "install" then
    if arguments.length = 6 then
      if arguments.getD 4 [] ≠ kSimHubInstallPathSwitch ||
          !pathIsAbsoluteLocal getDriveType (arguments.getD 5 []) then
        ⟨.invalid, { operation := .install }, some .invalidSimHubPath⟩
      else ⟨.valid, ⟨.install, arguments.getD 3 [], arguments.getD 5 []⟩, none⟩
    else ⟨.valid, ⟨.install, arguments.getD 3 [], []⟩, none⟩
  else if arguments.getD 1 [] = wide "uninstall" && arguments.length = 4 then
    ⟨.valid, ⟨.uninstall, arguments.getD 3 [], []⟩, none⟩
  else ⟨.invalid, {}, some .unknownOperation⟩

end Helper

section Manager

def parameterLoop (parameters : WString) : List WString → Except ManagerError WString
  | [] => .ok parameters
  | argument :: rest =>
    let parameters := (if parameters.isEmpty then parameters else parameters ++ [space]) ++
      quoteCommandArgument argument
    if 32767 ≤ parameters.length then .error .commandLineTooLong else parameterLoop parameters rest

def buildParameterText (arguments : List WString) : Except ManagerError WString :=
  parameterLoop [] arguments

/-- The arguments `run_script` passes to the helper, for the installer or the uninstaller. -/
def runScriptArguments (isInstaller : Bool) (invocationEventName simhubPath : WString) :
    List WString :=
  [kElevatedPluginOperationSwitch, if isInstaller then wide "install" else wide "uninstall",
    kManagerInvocationEventSwitch, invocationEventName] ++
    if !simhubPath.isEmpty && isInstaller then [kSimHubInstallPathSwitch, simhubPath] else []

/-- The command line `ShellExecuteExW` starts an executable with. -/
def shellCommandLine (executable : FilePath) (parameters : WString) : WString :=
  [quotationMark] ++ executable.value ++ [quotationMark] ++ [space] ++ parameters

/-- The arguments `wWinMain` parses of its command line. -/
def helperArguments (doubled : DoubledQuote) (commandLine : WString) : List WString :=
  (argumentVector doubled commandLine).drop 1

end Manager

section Grammar

def EventName (name : WString) : Prop :=
  ∃ digits : WString, digits.length = 64 ∧ (∀ c ∈ digits, isUpperHex c = true) ∧
    name = kManagerInvocationEventStart ++ digits

/-- The argument lists that make a request. -/
inductive Requests (getDriveType : WString → DriveType) :
    List WString → ElevatedPluginRequest → Prop
  | install {event : WString} : EventName event → Requests getDriveType
      [kElevatedPluginOperationSwitch, wide "install", kManagerInvocationEventSwitch, event]
      ⟨.install, event, []⟩
  | installAt {event path : WString} : EventName event →
      pathIsAbsoluteLocal getDriveType path = true → Requests getDriveType
      [kElevatedPluginOperationSwitch, wide "install", kManagerInvocationEventSwitch, event,
        kSimHubInstallPathSwitch, path]
      ⟨.install, event, path⟩
  | uninstall {event : WString} : EventName event → Requests getDriveType
      [kElevatedPluginOperationSwitch, wide "uninstall", kManagerInvocationEventSwitch, event]
      ⟨.uninstall, event, []⟩

end Grammar

end FfbInterceptor.Manager
