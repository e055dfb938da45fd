import FfbInterceptor.Engine.Settings
import FfbInterceptor.Library.CommandLine

/-! The arguments of a game on their way from the manager through the launcher: quoted, split, taken
apart by `wmain`, quoted and split again. -/
namespace FfbInterceptor.Launcher
open FfbInterceptor.Library

/-- `std::wstring`: UTF-16 code units. -/
abbrev WString := List UInt16

def wide (text : String) : WString := Engine.utf16Units text

def backslash : UInt16 := 0x5C
def quotationMark : UInt16 := 0x22
def space : UInt16 := 0x20
def tab : UInt16 := 0x09

/-- The documented rules of Windows and its C runtime. -/
def windows : CommandLine UInt16 where
  blank := fun c => c = space || c = tab
  quote := quotationMark
  backslash := backslash
  quote_ne_backslash := by decide
  blank_quote := by decide
  blank_backslash := by decide

/-- What is passed on of a string as `c_str()`. -/
def cString (value : WString) : WString := value.takeWhile (· ≠ 0)

def argumentVector (doubled : DoubledQuote) (commandLine : WString) : List WString :=
  windows.split doubled (cString commandLine)

/-- A path of Windows, which allows neither quotes nor NUL in one. -/
structure FilePath where
  value : WString
  quoteFree : quotationMark ∉ value
  nulFree : 0 ∉ value

section Quoting

def quoteLoop (backslashes : Nat) (quoted : WString) : WString → WString
  | [] => quoted ++ List.replicate (backslashes * 2) backslash ++ [quotationMark]
  | character :: rest =>
    if character = backslash then quoteLoop (backslashes + 1) quoted rest
    else if character = quotationMark then
      quoteLoop 0 (quoted ++ List.replicate (backslashes * 2 + 1) backslash ++ [quotationMark]) rest
    else quoteLoop 0 (quoted ++ List.replicate backslashes backslash ++ [character]) rest

/-- The body the manager and the launcher have in common. -/
def quote (argument : WString) : WString :=
  if argument.isEmpty then [quotationMark, quotationMark]
  else if !argument.any fun c => c = space || c = tab || c = quotationMark then argument
  else quoteLoop 0 [quotationMark] argument

def quoteCommandArgument (argument : WString) : WString := quote argument

def quoteArgument (argument : WString) : WString := quote argument

end Quoting

section Manager

inductive ManagerError where
  | gameArgumentsTooLong
  | cannotParseGameArguments
  | commandLineTooLong
  deriving DecidableEq, Repr

def ManagerError.text : ManagerError → String
  | .gameArgumentsTooLong => "遊戲參數超過 Windows 命令列長度上限。"
  | .cannotParseGameArguments => "無法解析遊戲參數。"
  | .commandLineTooLong => "命令列超過 Windows 長度上限。"

/-- `CommandLineToArgvW`, which returns nothing when it finds no memory. -/
def commandLineToArgv (doubled : DoubledQuote) (memory : Bool) (commandLine : WString) :
    Option (List WString) :=
  if memory then some (argumentVector doubled commandLine) else none

def splitGameArguments (doubled : DoubledQuote) (memory : Bool) (text : WString) :
    Except ManagerError (List WString) :=
  if text.isEmpty then .ok []
  else if 32768 < text.length then .error .gameArgumentsTooLong
  else match commandLineToArgv doubled memory (wide "ffb-placeholder.exe " ++ text) with
    | none | some [] => .error .cannotParseGameArguments
    | some (_ :: arguments) => .ok arguments

/-- The command line `run_process` starts a program with. -/
def processCommandLine (executable : WString) (arguments : List WString) :
    Except ManagerError WString :=
  let command := arguments.foldl (fun command argument =>
    command ++ [space] ++ quoteCommandArgument argument) (quoteCommandArgument executable)
  if 32767 ≤ command.length then .error .commandLineTooLong else .ok command

/-- The arguments `launch_game` starts the launcher with. -/
def launcherArguments (gamePath : WString) (gameArguments : List WString) : List WString :=
  [wide "--offline-only", wide "--game", gamePath, wide "--"] ++ gameArguments

end Manager

section Launcher

structure LaunchRequest where
  gamePath : WString := []
  gameArguments : List WString := []
  deriving DecidableEq, Repr

inductive Refusal where
  | usage (exitCode : Nat)
  | error (message : WString)
  deriving DecidableEq, Repr

def optionLoop (offlineOnly : Bool) (request : LaunchRequest) :
    List WString → Except Refusal (Bool × LaunchRequest)
  | [] => .ok (offlineOnly, request)
  | argument :: rest =>
    if argument = wide "--help" ∨ argument = wide "-h" then .error (.usage 0)
    else if argument = wide "--offline-only" then optionLoop true request rest
    else if argument = wide "--game" then
      match rest with
      | [] => .error (.error (wide "錯誤：--game 後面缺少遊戲路徑。\n"))
      | gamePath :: rest => optionLoop offlineOnly { request with gamePath := gamePath } rest
    else if argument = wide "--" then
      .ok (offlineOnly, { request with gameArguments := request.gameArguments ++ rest })
    else .error (.error (wide "錯誤：不支援的參數：" ++ argument ++ wide "\n"))

def wmain (argv : List WString) : Except Refusal LaunchRequest :=
  match optionLoop false {} (argv.drop 1) with
  | .error refusal => .error refusal
  | .ok (offlineOnly, request) =>
    if !offlineOnly then
      .error (.error (wide "錯誤：這個啟動器只供離線／單機使用，必須加上 --offline-only。\n"))
    else if request.gamePath.isEmpty then .error (.usage 2)
    else .ok request

def buildCommandLine (request : LaunchRequest) : WString :=
  request.gameArguments.foldl (fun command argument => command ++ [space] ++ quoteArgument argument)
    (quoteArgument request.gamePath)

end Launcher

end FfbInterceptor.Launcher
