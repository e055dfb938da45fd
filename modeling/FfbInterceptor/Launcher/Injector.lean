import FfbInterceptor.Library.Dialogue
import FfbInterceptor.Launcher.Architecture
import FfbInterceptor.Manager.PackageLock
import FfbInterceptor.Manager.Signatures

/-! The start of a game with the hook in it (`injector.cpp`), as a dialogue with Windows. Handles that
are closed and memory that is freed on the way out are left out. -/
namespace FfbInterceptor.Launcher.Injector
open Library Manager
open Dialogue (ask fail loop onFailure reword)

section Windows

def exceptionBreakpoint : UInt32 := 0x80000003

/-- What a debug event tells. The file of a module stands for the final path of its handle. -/
inductive DebugEventKind where
  | createProcess (baseOfImage : Nat) (file : Option WString)
  | loadDll (baseOfDll : Nat) (file : Option WString)
  | unloadDll (baseOfDll : Nat)
  | exception (code : UInt32) (address : Nat)
  | exitThread (exitCode : UInt32)
  | exitProcess
  | other (code : UInt32)
  deriving DecidableEq, Repr

structure DebugEvent where
  processId : UInt32
  threadId : UInt32
  kind : DebugEventKind
  deriving DecidableEq, Repr

def DebugEventKind.code : DebugEventKind → UInt32
  | exception _ _ => 1
  | createProcess _ _ => 3
  | exitThread _ => 4
  | exitProcess => 5
  | loadDll _ _ => 6
  | unloadDll _ => 7
  | other code => code

inductive ContinueStatus where
  | dbgContinue | dbgExceptionNotHandled
  deriving DecidableEq, Repr

/-- The control registers of a thread: the instruction pointer and the others. -/
structure ThreadContext where
  instruction : Nat
  others : List Nat
  deriving DecidableEq, Repr

inductive WaitResult where
  | object | timeout | failed
  deriving DecidableEq, Repr

/-- What is read of a file that was opened for its attributes. -/
structure ExistingFile where
  directory : Bool
  finalPath : Option WString
  deriving DecidableEq, Repr

structure ProcessInformation where
  processId : UInt32
  threadId : UInt32
  deriving DecidableEq, Repr

/-- The calls of Windows. All but those on the launcher itself and on files are on the new process or
its main thread. -/
inductive Call where
  | openProcessToken
  | getTokenElevation
  | openExisting (path : WString)
  | getWindowsDirectory
  | getModuleFileName
  | readPeArchitecture (path : WString)
  | createProcess (application commandLine directory : WString)
  | getTickCount64
  | waitForDebugEvent (milliseconds : Nat)
  | continueDebugEvent (processId threadId : UInt32) (status : ContinueStatus)
  | readProcessMemory (address size : Nat)
  | writeProcessMemory (address : Nat) (bytes : List UInt8)
  | virtualProtectEx (address : Nat) (protection : UInt32)
  | flushInstructionCache (address : Nat)
  | virtualAllocEx (size : Nat)
  | getThreadContext
  | setThreadContext (context : ThreadContext)
  | suspendThread
  | resumeThread
  | createRemoteThread (start parameter : Nat)
  | waitForThread (threadId : UInt32)
  | getExitCodeThread (threadId : UInt32)
  | getLoadLibrary
  | getOwnerModule (function : Nat)
  | getOwnerPath (module : Nat)
  | loadHook (path : WString)
  | getHookExport (module : Nat) (name : String)
  | debugSetProcessKillOnExit (kill : Bool)
  | terminateProcess
  | waitForProcess (milliseconds : Nat)
  deriving DecidableEq, Repr

/-- What Windows answers; `none` and `false` are failures. -/
@[reducible] def Answer : Call → Type
  | .openProcessToken => Bool
  | .getTokenElevation => Option Bool
  | .openExisting _ => Option ExistingFile
  | .getWindowsDirectory => Option WString
  | .getModuleFileName => Option WString
  | .readPeArchitecture _ => Except String PeArchitecture
  | .createProcess _ _ _ => Option ProcessInformation
  | .getTickCount64 => Nat
  | .waitForDebugEvent _ => Option DebugEvent
  | .continueDebugEvent _ _ _ => Bool
  | .readProcessMemory _ _ => Option (List UInt8)
  | .writeProcessMemory _ _ => Option Nat
  | .virtualProtectEx _ _ => Option UInt32
  | .flushInstructionCache _ => Bool
  | .virtualAllocEx _ => Option Nat
  | .getThreadContext => Option ThreadContext
  | .setThreadContext _ => Bool
  | .suspendThread => Option Nat
  | .resumeThread => Option Nat
  | .createRemoteThread _ _ => Option UInt32
  | .waitForThread _ => WaitResult
  | .getExitCodeThread _ => Option UInt32
  | .getLoadLibrary => Option Nat
  | .getOwnerModule _ => Option Nat
  | .getOwnerPath _ => Option WString
  | .loadHook _ => Option Nat
  | .getHookExport _ _ => Option Nat
  | .debugSetProcessKillOnExit _ => Bool
  | .terminateProcess => Bool
  | .waitForProcess _ => WaitResult

end Windows

section Errors

inductive LaunchError where
  | refused (text : String)
  | windows (context : String)
  | waiting (context : String) (observedEvents : WString)
  | module (expectedName observedModules : WString)
  | architecture (game : PeArchitecture) (launcher : PeArchitecture)
  | initialization (result : UInt32)
  deriving DecidableEq, Repr

def architectureName : PeArchitecture → WString
  | .x86 => wide "x86"
  | .x64 => wide "x64"
  | .unknown => wide "unknown"

/-- The error shown. `message` is what Windows tells about its last error. -/
def LaunchError.text (message : WString) : LaunchError → WString
  | refused text => wide text
  | windows context => wide context ++ message
  | waiting context observedEvents => wide context ++ message ++
      if observedEvents.isEmpty then []
      else wide "（已處理事件：" ++ observedEvents ++ wide "）"
  | module expectedName observedModules =>
      wide "在新程序中找不到預期的模組：" ++ expectedName ++
      if observedModules.isEmpty then []
      else wide "（目前可見：" ++ observedModules ++ wide "）"
  | architecture game launcher =>
      wide "架構不相容：遊戲是 " ++ architectureName game ++ wide "，目前啟動器是 " ++
        architectureName launcher ++ wide "。"
  | initialization result =>
      wide "Hook DLL 初始化失敗（狀態 " ++ wide (toString result) ++ wide "），遊戲尚未啟動。"

end Errors

abbrev Launch (α : Type) := Dialogue Answer LaunchError α

section Paths

/-- `path.find_last_of(L"\\/")` and what follows it; all of the path without a separator. -/
def fileName (path : WString) : WString := path.rtakeWhile fun c => !isWideSeparator c

def parentDirectory (path : WString) : WString :=
  if path.any isWideSeparator then (path.rdropWhile fun c => !isWideSeparator c).dropLast else []

def isUncPath (path : WString) : Bool := (wide "\\\\").isPrefixOf path

/-- A dot in front of the last separator starts no extension. -/
def hasExeExtension (path : WString) : Bool :=
  (fileName path).contains wideDot &&
    equalIgnoringCase (wideDot :: (fileName path).rtakeWhile (· ≠ wideDot)) (wide ".exe")

def pathIsWithin (path directory : WString) : Bool :=
  let start := directory.rdropWhile isWideSeparator
  decide (start.length < path.length) && equalIgnoringCaseUpTo start.length path start &&
    (path.drop start.length).head?.any isWideSeparator

def kHookFileName : WString := wide "FFBInterceptor.Hook.dll"

def resolveExistingFile (input : WString) : Launch WString := do
  match ← ask (Call.openExisting input) with
  | none => fail (.windows "找不到或無法開啟指定檔案")
  | some file =>
    if file.directory then fail (.refused "指定路徑不是一般檔案。")
    else
      match file.finalPath with
      | none => fail (.windows "無法解析檔案的最終路徑")
      | some finalPath =>
        let resolved := stripExtendedStart finalPath
        if 260 ≤ resolved.length then fail (.refused "目前版本不支援超過 MAX_PATH 的檔案路徑。")
        else pure resolved

end Paths

section Session

structure DebugModule where
  name : WString
  path : WString
  base : Nat
  deriving DecidableEq, Repr

/-- What the debug events have told so far. -/
structure DebugSession where
  modules : List DebugModule := []
  imageBase : Nat := 0
  deriving DecidableEq, Repr

def renameModule (base : Nat) (path : WString) : List DebugModule → List DebugModule
  | [] => []
  | module :: rest =>
    if module.base = base then ⟨fileName path, path, module.base⟩ :: rest
    else module :: renameModule base path rest

def DebugSession.record (session : DebugSession) (base : Nat) (file : Option WString) :
    DebugSession :=
  match file with
  | none => session
  | some finalPath =>
    let path := stripExtendedStart finalPath
    if base = 0 ∨ path = [] then session
    else if session.modules.any fun module => decide (module.base = base) then
      { session with modules := renameModule base path session.modules }
    else if 4096 ≤ session.modules.length then session
    else { session with modules := session.modules ++ [⟨fileName path, path, base⟩] }

def DebugSession.observe (session : DebugSession) (event : DebugEvent) : DebugSession :=
  match event.kind with
  | .createProcess base file => { session with imageBase := base }.record base file
  | .loadDll base file => session.record base file
  | .unloadDll base =>
    { session with modules := session.modules.filter fun module => decide (module.base ≠ base) }
  | _ => session

/-- The names that an error lists. -/
def noteName (observed name : WString) : WString :=
  if observed.length < 240 then
    (if observed.isEmpty then observed else observed ++ wide ", ") ++ name
  else observed

def findLoop (expectedName : WString) (expectedPath : Option WString) :
    (conflicting : Bool) → (observed : WString) → List DebugModule → Except LaunchError Nat
  | true, _, [] => .error (.refused "同名 Hook DLL 已從另一個路徑載入，已中止以避免誤用。")
  | false, observed, [] => .error (.module expectedName observed)
  | conflicting, observed, module :: rest =>
    let observed := noteName observed module.name
    if !equalIgnoringCase module.name expectedName then
      findLoop expectedName expectedPath conflicting observed rest
    else if expectedPath.all fun path => equalIgnoringCase module.path path then .ok module.base
    else findLoop expectedName expectedPath true observed rest

def DebugSession.findDebugModule (session : DebugSession) (expectedName : WString)
    (expectedPath : Option WString) : Except LaunchError Nat :=
  findLoop expectedName expectedPath false [] session.modules

end Session

/-- What may fail without a call. -/
def lift {α : Type} : Except LaunchError α → Launch α
  | .ok a => pure a
  | .error error => fail error

section Entry

/-- The sizes that differ between the two builds of the launcher. -/
structure Build where
  architecture : PeArchitecture
  highest : Nat
  ntHeadersSize : Nat
  optionalMagic : Nat

def Build.x64 : Build := ⟨.x64, 2 ^ 64 - 1, 264, 0x20B⟩
def Build.x86 : Build := ⟨.x86, 2 ^ 32 - 1, 248, 0x10B⟩

variable (build : Build)

def Build.wrap (address : Nat) : Nat := address % (build.highest + 1)

structure EntryBreakpoint where
  originalByte : UInt8 := 0
  armed : Bool := false
  deriving DecidableEq, Repr

def memoryOf (bytes : List UInt8) : Memory := fun i => (bytes.getD i 0).toBitVec

def readRemoteEntryPoint (session : DebugSession) : Launch Nat := do
  if session.imageBase = 0 then fail (.refused "初始事件缺少遊戲映像基底。")
  else
    let dos ← ask (Call.readProcessMemory session.imageBase 64)
    let header := memoryOf (dos.getD [])
    let e_lfanew := long (header.number 60 4)
    if dos.map List.length ≠ some 64 ∨ header.number 0 2 ≠ IMAGE_DOS_SIGNATURE ∨ e_lfanew ≤ 0 ∨
        1024 * 1024 < e_lfanew then
      fail (.windows "無法讀取遊戲 PE 標頭")
    else if build.highest - e_lfanew.toNat < session.imageBase then
      fail (.refused "遊戲 PE 標頭位址溢位。")
    else
      let nt ← ask (Call.readProcessMemory (session.imageBase + e_lfanew.toNat) build.ntHeadersSize)
      let header := memoryOf (nt.getD [])
      let entryRva := header.number 40 4
      if nt.map List.length ≠ some build.ntHeadersSize ∨ header.number 0 4 ≠ IMAGE_NT_SIGNATURE ∨
          header.number 24 2 ≠ build.optionalMagic ∨ entryRva = 0 ∨ header.number 80 4 ≤ entryRva then
        fail (.refused "遊戲 PE 入口點無效。")
      else if build.highest - entryRva < session.imageBase then
        fail (.refused "遊戲 PE 入口點位址溢位。")
      else pure (session.imageBase + entryRva)

def pageExecuteReadWrite : UInt32 := 0x40

def writeRemoteCodeByte (address : Nat) (value : UInt8) : Launch PUnit := do
  match ← ask (Call.virtualProtectEx address pageExecuteReadWrite) with
  | none => fail (.windows "無法開啟遊戲入口同步點")
  | some oldProtection =>
    let written ← ask (Call.writeProcessMemory address [value])
    let flushOk ← ask (Call.flushInstructionCache address)
    let ignored ← ask (Call.virtualProtectEx address oldProtection)
    if written ≠ some 1 ∨ flushOk = false ∨ ignored = none then
      fail (.windows "無法寫入遊戲入口同步點")
    else pure ⟨⟩

def armEntryBreakpoint (entryPoint : Nat) : Launch EntryBreakpoint := do
  match ← ask (Call.readProcessMemory entryPoint 1) with
  | some [originalByte] => do
    writeRemoteCodeByte entryPoint 0xCC
    pure ⟨originalByte, true⟩
  | _ => fail (.windows "無法讀取遊戲入口同步點")

def restoreEntryBreakpoint (entryPoint : Nat) (breakpoint : EntryBreakpoint) : Launch PUnit :=
  if breakpoint.armed then writeRemoteCodeByte entryPoint breakpoint.originalByte else pure ⟨⟩

def rewindThreadToEntry (entryPoint : Nat) : Launch PUnit := do
  match ← ask Call.getThreadContext with
  | none => fail (.windows "無法讀取遊戲入口執行位置")
  | some context =>
    if ← ask (Call.setThreadContext { context with instruction := entryPoint }) then pure ⟨⟩
    else fail (.windows "無法還原遊戲入口執行位置")

end Entry

section Pausing

variable (build : Build) (process : ProcessInformation)

def kStartupTimeoutMs : Nat := 15000

structure Pausing where
  session : DebugSession := {}
  initialBreakpointSeen : Bool := false
  entryPoint : Nat := 0
  entryBreakpoint : EntryBreakpoint := {}
  deriving DecidableEq, Repr

def continueEvent (event : DebugEvent) (status : ContinueStatus) : Launch Bool :=
  ask (Call.continueDebugEvent event.processId event.threadId status)

/-- A failure that still lets the event go. -/
def orContinue {α : Type} (event : DebugEvent) (m : Launch α) : Launch α :=
  onFailure m (continueEvent event .dbgContinue >>= fun _ => pure ⟨⟩)

/-- Breakpoints and other exceptions are the game's own, unless the launcher set them. -/
def continueStatus (event : DebugEvent) : ContinueStatus :=
  match event.kind with
  | .exception _ _ => .dbgExceptionNotHandled
  | _ => .dbgContinue

def DebugEvent.isBreakpoint (event : DebugEvent) : Bool :=
  match event.kind with
  | .exception code _ => code = exceptionBreakpoint
  | _ => false

def DebugEvent.isBreakpointAt (event : DebugEvent) (address : Nat) : Bool :=
  event.kind = .exception exceptionBreakpoint address

def armPass (event : DebugEvent) (state : Pausing) : Launch (Pausing ⊕ DebugSession) := do
  let entryPoint ← orContinue event (readRemoteEntryPoint build state.session)
  let entryBreakpoint ← orContinue event (armEntryBreakpoint entryPoint)
  if ← continueEvent event .dbgContinue then
    pure (.inl ⟨state.session, true, entryPoint, entryBreakpoint⟩)
  else fail (.windows "無法開始遊戲入口同步")

def suspendMain : Launch PUnit := do
  match ← ask Call.suspendThread with
  | none => fail (.windows "無法暫停遊戲主執行緒")
  | some _ => pure ⟨⟩

def haltPass (event : DebugEvent) (state : Pausing) : Launch (Pausing ⊕ DebugSession) := do
  orContinue event (restoreEntryBreakpoint state.entryPoint state.entryBreakpoint)
  orContinue event (rewindThreadToEntry state.entryPoint)
  orContinue event suspendMain
  if ← continueEvent event .dbgContinue then pure (.inr state.session)
  else fail (.windows "無法完成遊戲入口同步")

def pausePass (deadline : Nat) (state : Pausing) : Launch (Pausing ⊕ DebugSession) := do
  let now ← ask Call.getTickCount64
  if deadline ≤ now then fail (.refused "等待遊戲完成 Windows 載入器初始化時逾時。")
  else
    match ← ask (Call.waitForDebugEvent (deadline - now)) with
    | none => fail (.windows "無法等待遊戲的初始載入事件")
    | some event =>
      let state := { state with session := state.session.observe event }
      if event.kind = .exitProcess then
        orContinue event (fail (.refused "遊戲在 Windows 載入器初始化期間結束。"))
      else if event.isBreakpoint ∧ state.initialBreakpointSeen = false then armPass build event state
      else if event.isBreakpointAt state.entryPoint ∧ state.initialBreakpointSeen = true ∧
          event.threadId = process.threadId then
        haltPass event state
      else if ← continueEvent event (continueStatus event) then pure (.inl state)
      else fail (.windows "無法繼續遊戲的初始載入事件")

def pauseAfterLoaderInitialization (fuel : Nat) : Launch DebugSession := do
  let now ← ask Call.getTickCount64
  loop (pausePass build process (now + kStartupTimeoutMs)) fuel {}

end Pausing

section RemoteThread

def kRemoteCallTimeoutMs : Nat := 15000

structure Calling where
  session : DebugSession
  observedEvents : WString := []
  deriving DecidableEq, Repr

def noteEvent (observed : WString) (event : DebugEvent) : WString :=
  if observed.length < 512 then
    (if observed.isEmpty then observed else observed ++ wide ", ") ++ wide (toString event.kind.code) ++
      match event.kind with
      | .exception code _ => wide "/" ++ wide (toString code)
      | _ => []
  else observed

/-- The thread may end between two events, and its end is an event as well. -/
def callPass (threadId : UInt32) (deadline : Nat) (state : Calling) :
    Launch (Calling ⊕ DebugSession × UInt32) := do
  match ← ask (Call.waitForThread threadId) with
  | .failed => fail (.windows "無法檢查 Hook 初始化執行緒")
  | .object =>
    match ← ask (Call.getExitCodeThread threadId) with
    | none => fail (.windows "無法取得 Hook 初始化結果")
    | some result => pure (.inr (state.session, result))
  | .timeout =>
    let now ← ask Call.getTickCount64
    if deadline ≤ now then fail (.refused "Hook 初始化逾時，遊戲尚未啟動。")
    else
      match ← ask (Call.waitForDebugEvent (deadline - now)) with
      | none => fail (.waiting "無法等待 Hook 初始化事件" state.observedEvents)
      | some event =>
        let state := ⟨state.session.observe event, noteEvent state.observedEvents event⟩
        if ← continueEvent event (continueStatus event) then
          match event.kind with
          | .exitProcess => fail (.refused "遊戲在 Hook 初始化期間結束。")
          | .exitThread exitCode =>
            if event.threadId = threadId then pure (.inr (state.session, exitCode))
            else pure (.inl state)
          | _ => pure (.inl state)
        else fail (.windows "無法繼續 Hook 初始化事件")

def runRemoteThread (fuel : Nat) (session : DebugSession) (startAddress parameter : Nat) :
    Launch (DebugSession × UInt32) := do
  match ← ask (Call.createRemoteThread startAddress parameter) with
  | none => fail (.windows "無法在剛建立的程序中初始化 Hook")
  | some threadId =>
    let now ← ask Call.getTickCount64
    loop (callPass threadId (now + kRemoteCallTimeoutMs)) fuel ⟨session, []⟩

end RemoteThread

section Hook

variable (build : Build)

def remoteFunctionAddress (session : DebugSession) (localFunction : Nat) : Launch Nat := do
  match ← ask (Call.getOwnerModule localFunction) with
  | none => fail (.windows "無法定位 Windows 載入函式所屬模組")
  | some owner =>
    match ← ask (Call.getOwnerPath owner) with
    | none => fail (.windows "無法讀取 Windows 系統模組路徑")
    | some modulePath =>
      if localFunction < owner then fail (.refused "Windows 載入函式位址無效。")
      else
        let remoteBase ← lift (session.findDebugModule (fileName modulePath) none)
        pure (build.wrap (remoteBase + (localFunction - owner)))

/-- The path with its terminator, as it lies in memory. -/
def wideBytes (path : WString) : List UInt8 :=
  (path ++ [0]).flatMap fun c : UInt16 => [c.toUInt8, (c >>> 8).toUInt8]

/-- The hook's file is passed to the game and loaded there. -/
def loadRemoteHook (fuel : Nat) (session : DebugSession) (hookPath : WString) :
    Launch (DebugSession × Nat) := do
  match ← ask (Call.virtualAllocEx (wideBytes hookPath).length) with
  | none => fail (.windows "無法配置 Hook 初始化記憶體")
  | some remotePath =>
    let written ← ask (Call.writeProcessMemory remotePath (wideBytes hookPath))
    if written ≠ some (wideBytes hookPath).length then fail (.windows "無法傳遞固定 Hook DLL 路徑")
    else
      match ← ask Call.getLoadLibrary with
      | none => fail (.refused "無法解析 Windows 的 LoadLibraryW。")
      | some loadLibrary =>
        let remoteLoadLibrary ← remoteFunctionAddress build session loadLibrary
        let called ← runRemoteThread fuel session remoteLoadLibrary remotePath
        let remoteHookBase ← lift (called.1.findDebugModule kHookFileName (some hookPath))
        pure (called.1, remoteHookBase)

/-- The undecorated name, and the decorated one of the 32-bit build. -/
def findHookInitializer (localHook : Nat) : Launch (Option Nat) := do
  match ← ask (Call.getHookExport localHook "FFBHookInitialize") with
  | some initializer => pure (some initializer)
  | none =>
    if build.architecture = .x64 then pure none
    else ask (Call.getHookExport localHook "_FFBHookInitialize@4")

def initializerRva (hookPath : WString) : Launch Nat := do
  match ← ask (Call.loadHook hookPath) with
  | none => fail (.windows "無法驗證 Hook DLL 匯出函式")
  | some localHook =>
    match ← findHookInitializer build localHook with
    | none => fail (.refused "Hook DLL 缺少 FFBHookInitialize 匯出函式。")
    | some initializer =>
      if initializer < localHook then fail (.refused "Hook DLL 缺少 FFBHookInitialize 匯出函式。")
      else pure (initializer - localHook)

end Hook

section Launching

variable (build : Build)

def initializeGame (fuel : Nat) (hookPath : WString) (process : ProcessInformation) : Launch PUnit := do
  let session ← pauseAfterLoaderInitialization build process fuel
  let hook ← loadRemoteHook build fuel session hookPath
  let rva ← initializerRva build hookPath
  let called ← runRemoteThread fuel hook.1 (build.wrap (hook.2 + rva)) 0
  if called.2 ≠ 1 then fail (.initialization called.2)
  else if ← ask (Call.debugSetProcessKillOnExit false) then
    match ← ask Call.resumeThread with
    | none => fail (.windows "無法恢復遊戲主執行緒")
    | some _ => pure ⟨⟩
  else fail (.windows "無法設定安全的除錯解除行為")

def terminateChild : Launch PUnit := do
  let _ ← ask Call.terminateProcess
  let _ ← ask (Call.waitForProcess 5000)
  pure ⟨⟩

def requireUnelevated : Launch PUnit := do
  if ← ask Call.openProcessToken then
    match ← ask Call.getTokenElevation with
    | none => fail (.windows "無法讀取啟動器權限")
    | some true => fail (.refused "安全限制：請用一般使用者權限執行離線啟動器。")
    | some false => pure ⟨⟩
  else fail (.windows "無法確認啟動器權限")

def resolveGame (request : LaunchRequest) : Launch WString := do
  let gamePath ← resolveExistingFile request.gamePath
  if isUncPath gamePath then fail (.refused "安全限制：不能從網路分享路徑啟動遊戲。")
  else if hasExeExtension gamePath then
    match ← ask Call.getWindowsDirectory with
    | none => fail (.windows "無法確認 Windows 系統目錄")
    | some windowsDirectory =>
      if pathIsWithin gamePath windowsDirectory then
        fail (.refused "安全限制：不能以 Windows 系統目錄內的程式作為目標。")
      else pure gamePath
  else fail (.refused "請選擇副檔名為 .exe 的遊戲執行檔。")

/-- The hook lies beside the launcher. -/
def resolveHook : Launch WString := do
  match ← ask Call.getModuleFileName with
  | none => fail (.windows "無法定位啟動器本身")
  | some ownPath =>
    let hookPath ← reword (fun _ => .refused "啟動器旁缺少固定的 FFBInterceptor.Hook.dll。")
      (resolveExistingFile (parentDirectory ownPath ++ [backslash] ++ kHookFileName))
    if isUncPath hookPath then fail (.refused "安全限制：啟動器與 Hook DLL 必須位於本機磁碟。")
    else pure hookPath

def foundArchitecture : Except String PeArchitecture → PeArchitecture
  | .ok architecture => architecture
  | .error _ => .unknown

/-- The error of the second file hides that of the first. -/
def architectureError : (game hook : Except String PeArchitecture) → String
  | _, .error text => text
  | .error text, .ok _ => text
  | .ok _, .ok _ => ""

def requireArchitecture (gamePath hookPath : WString) : Launch PUnit := do
  let game ← ask (Call.readPeArchitecture gamePath)
  let hook ← ask (Call.readPeArchitecture hookPath)
  if foundArchitecture game = .unknown ∨ foundArchitecture hook = .unknown then
    fail (.refused (architectureError game hook))
  else if foundArchitecture game ≠ build.architecture ∨ foundArchitecture hook ≠ build.architecture then
    fail (.architecture (foundArchitecture game) build.architecture)
  else pure ⟨⟩

def launchOfflineGame (fuel : Nat) (request : LaunchRequest) : Launch UInt32 := do
  requireUnelevated
  let gamePath ← resolveGame request
  let hookPath ← resolveHook
  requireArchitecture build gamePath hookPath
  match ← ask (Call.createProcess gamePath (buildCommandLine { request with gamePath := gamePath })
      (parentDirectory gamePath)) with
  | none => fail (.windows "無法建立遊戲程序")
  | some process =>
    onFailure (initializeGame build fuel hookPath process) terminateChild
    pure process.processId

end Launching

end FfbInterceptor.Launcher.Injector
