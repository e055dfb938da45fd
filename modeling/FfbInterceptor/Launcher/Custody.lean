import FfbInterceptor.Launcher.Injector

/-! A game that is launched has its hook before its own code runs, and one that is not launched is
terminated. -/
namespace FfbInterceptor.Launcher.Injector
open Library Manager
open Dialogue (ask fail loop onFailure reword Records Yields Within Brief Until Settles Only Passes
  only_nil only_cons only_append)

abbrev History := List (Exchange Answer)

section Calls

/-- Calls that neither change the game's code nor move its threads. -/
def Call.looks : Call → Bool
  | .getTickCount64 | .waitForDebugEvent _ | .continueDebugEvent _ _ _ | .readProcessMemory _ _ => true
  | _ => false

def Call.reads : Call → Bool
  | .readProcessMemory _ _ => true
  | _ => false

/-- Calls for the hook, which leave the main thread alone. -/
def Call.hooks : Call → Bool
  | .virtualAllocEx _ | .writeProcessMemory _ _ | .getLoadLibrary | .getOwnerModule _ | .getOwnerPath _
  | .createRemoteThread _ _ | .waitForThread _ | .getExitCodeThread _ | .getTickCount64
  | .waitForDebugEvent _ | .continueDebugEvent _ _ _ | .loadHook _ | .getHookExport _ _ => true
  | _ => false

/-- Calls with the game in the launcher's hands. -/
def Call.holds : Call → Bool
  | .createProcess _ _ _ | .debugSetProcessKillOnExit _ | .resumeThread | .terminateProcess
  | .waitForProcess _ => false
  | _ => true

def Reads (e : Exchange Answer) : Prop := e.1.reads = true
def Looks (e : Exchange Answer) : Prop := e.1.looks = true
def Hooks (e : Exchange Answer) : Prop := e.1.hooks = true
def Holds (e : Exchange Answer) : Prop := e.1.holds = true

theorem Reads.looks {e : Exchange Answer} (h : Reads e) : Looks e := by
  obtain ⟨call, answer⟩ := e
  cases call <;> first | rfl | cases h

theorem Looks.holds {e : Exchange Answer} (h : Looks e) : Holds e := by
  obtain ⟨call, answer⟩ := e
  cases call <;> first | rfl | cases h

theorem Hooks.holds {e : Exchange Answer} (h : Hooks e) : Holds e := by
  obtain ⟨call, answer⟩ := e
  cases call <;> first | rfl | cases h

variable {build : Build} {process : ProcessInformation} {event : DebugEvent} {α : Type}

theorem brief_lift {P : Exchange Answer → Prop} {result : Except LaunchError α} :
    Brief P (lift result) := by
  cases result with
  | ok a => exact Brief.pure
  | error error => exact Brief.fail

theorem brief_resolveExistingFile (input : WString) : Brief Holds (resolveExistingFile input) := by
  apply Brief.ask_bind fun _ => rfl
  intro answer
  cases answer with
  | none => exact Brief.fail
  | some file =>
    apply Brief.ite Brief.fail
    cases hpath : file.finalPath with
    | none => exact Brief.fail
    | some finalPath => exact Brief.ite Brief.fail Brief.pure

theorem brief_readRemoteEntryPoint (session : DebugSession) :
    Brief Reads (readRemoteEntryPoint build session) := by
  apply Brief.ite Brief.fail
  apply Brief.ask_bind fun _ => rfl
  intro dos
  apply Brief.ite Brief.fail
  apply Brief.ite Brief.fail
  apply Brief.ask_bind fun _ => rfl
  intro nt
  exact Brief.ite Brief.fail (Brief.ite Brief.fail Brief.pure)

theorem brief_writeRemoteCodeByte (address : Nat) (value : UInt8) :
    Brief Holds (writeRemoteCodeByte address value) := by
  apply Brief.ask_bind fun _ => rfl
  intro answer
  cases answer with
  | none => exact Brief.fail
  | some oldProtection =>
    apply Brief.ask_bind fun _ => rfl
    intro written
    apply Brief.ask_bind fun _ => rfl
    intro flushOk
    apply Brief.ask_bind fun _ => rfl
    intro ignored
    exact Brief.ite Brief.fail Brief.pure

theorem brief_armEntryBreakpoint (entryPoint : Nat) : Brief Holds (armEntryBreakpoint entryPoint) := by
  apply Brief.ask_bind fun _ => rfl
  intro answer
  cases answer with
  | none => exact Brief.fail
  | some bytes =>
    cases bytes with
    | nil => exact Brief.fail
    | cons originalByte more =>
      cases more with
      | nil => exact (brief_writeRemoteCodeByte entryPoint 0xCC).bind fun _ => Brief.pure
      | cons next more => exact Brief.fail

theorem brief_restoreEntryBreakpoint (entryPoint : Nat) (breakpoint : EntryBreakpoint) :
    Brief Holds (restoreEntryBreakpoint entryPoint breakpoint) :=
  Brief.ite (brief_writeRemoteCodeByte _ _) Brief.pure

theorem brief_rewindThreadToEntry (entryPoint : Nat) :
    Brief Holds (rewindThreadToEntry entryPoint) := by
  apply Brief.ask_bind fun _ => rfl
  intro answer
  cases answer with
  | none => exact Brief.fail
  | some context =>
    apply Brief.ask_bind fun _ => rfl
    intro done
    exact Brief.ite Brief.pure Brief.fail

theorem brief_suspendMain : Brief Holds suspendMain := by
  apply Brief.ask_bind fun _ => rfl
  intro answer
  cases answer with
  | none => exact Brief.fail
  | some count => exact Brief.pure

theorem brief_continueEvent (status : ContinueStatus) : Brief Hooks (continueEvent event status) :=
  Brief.ask fun _ => rfl

theorem brief_orContinue {m : Launch α} (hm : Brief Holds m) : Brief Holds (orContinue event m) := by
  apply Brief.onFailure hm
  exact ((brief_continueEvent .dbgContinue).weaken fun _ => Hooks.holds).bind fun _ => Brief.pure

theorem brief_armPass (state : Pausing) : Brief Holds (armPass build event state) := by
  apply (brief_orContinue ((brief_readRemoteEntryPoint state.session).weaken
    fun _ h => h.looks.holds)).bind
  intro entryPoint
  apply (brief_orContinue (brief_armEntryBreakpoint entryPoint)).bind
  intro entryBreakpoint
  apply ((brief_continueEvent .dbgContinue).weaken fun _ => Hooks.holds).bind
  intro done
  exact Brief.ite Brief.pure Brief.fail

theorem brief_haltPass (state : Pausing) : Brief Holds (haltPass event state) := by
  apply (brief_orContinue (brief_restoreEntryBreakpoint _ _)).bind
  intro restored
  apply (brief_orContinue (brief_rewindThreadToEntry _)).bind
  intro rewound
  apply (brief_orContinue brief_suspendMain).bind
  intro suspended
  apply ((brief_continueEvent .dbgContinue).weaken fun _ => Hooks.holds).bind
  intro done
  exact Brief.ite Brief.pure Brief.fail

theorem brief_pausePass (deadline : Nat) (state : Pausing) :
    Brief Holds (pausePass build process deadline state) ∧ ∀ around history,
      history.length < (pausePass build process deadline state around history).2.length := by
  apply Brief.ask_bind_stirs fun _ => rfl
  intro now
  apply Brief.ite Brief.fail
  apply Brief.ask_bind fun _ => rfl
  intro answer
  cases answer with
  | none => exact Brief.fail
  | some event =>
    apply Brief.ite (brief_orContinue Brief.fail)
    apply Brief.ite (brief_armPass _)
    apply Brief.ite (brief_haltPass _)
    apply ((brief_continueEvent _).weaken fun _ => Hooks.holds).bind
    intro done
    exact Brief.ite Brief.pure Brief.fail

theorem within_pauseAfterLoaderInitialization (fuel : Nat) :
    Within Holds (pauseAfterLoaderInitialization build process fuel) := by
  apply Within.ask_bind fun _ => rfl
  intro now
  exact Within.loop fun state => (brief_pausePass _ state).1.within

theorem brief_callPass (threadId : UInt32) (deadline : Nat) (state : Calling) :
    Brief Hooks (callPass threadId deadline state) ∧ ∀ around history,
      history.length < (callPass threadId deadline state around history).2.length := by
  apply Brief.ask_bind_stirs fun _ => rfl
  intro answer
  cases answer with
  | failed => exact Brief.fail
  | object =>
    apply Brief.ask_bind fun _ => rfl
    intro answer
    cases answer with
    | none => exact Brief.fail
    | some result => exact Brief.pure
  | timeout =>
    apply Brief.ask_bind fun _ => rfl
    intro now
    apply Brief.ite Brief.fail
    apply Brief.ask_bind fun _ => rfl
    intro answer
    cases answer with
    | none => exact Brief.fail
    | some event =>
      apply (brief_continueEvent _).bind
      intro done
      refine Brief.ite ?_ Brief.fail
      cases hkind : event.kind with
      | exitProcess => exact Brief.fail
      | exitThread exitCode => exact Brief.ite Brief.pure Brief.pure
      | createProcess base file => exact Brief.pure
      | loadDll base file => exact Brief.pure
      | unloadDll base => exact Brief.pure
      | exception code address => exact Brief.pure
      | other code => exact Brief.pure

theorem within_runRemoteThread (fuel : Nat) (session : DebugSession) (startAddress parameter : Nat) :
    Within Hooks (runRemoteThread fuel session startAddress parameter) := by
  apply Within.ask_bind fun _ => rfl
  intro answer
  cases answer with
  | none => exact Within.fail
  | some threadId =>
    apply Within.ask_bind fun _ => rfl
    intro now
    exact Within.loop fun state => (brief_callPass _ _ state).1.within

theorem brief_remoteFunctionAddress (session : DebugSession) (localFunction : Nat) :
    Brief Hooks (remoteFunctionAddress build session localFunction) := by
  apply Brief.ask_bind fun _ => rfl
  intro answer
  cases answer with
  | none => exact Brief.fail
  | some owner =>
    apply Brief.ask_bind fun _ => rfl
    intro answer
    cases answer with
    | none => exact Brief.fail
    | some modulePath => exact Brief.ite Brief.fail (brief_lift.bind fun _ => Brief.pure)

theorem within_loadRemoteHook (fuel : Nat) (session : DebugSession) (hookPath : WString) :
    Within Hooks (loadRemoteHook build fuel session hookPath) := by
  apply Within.ask_bind fun _ => rfl
  intro answer
  cases answer with
  | none => exact Within.fail
  | some remotePath =>
    apply Within.ask_bind fun _ => rfl
    intro written
    apply Within.ite Within.fail
    apply Within.ask_bind fun _ => rfl
    intro answer
    cases answer with
    | none => exact Within.fail
    | some loadLibrary =>
      apply (brief_remoteFunctionAddress session loadLibrary).within.bind
      intro remoteLoadLibrary
      apply (within_runRemoteThread fuel session remoteLoadLibrary remotePath).bind
      intro called
      exact (brief_lift.bind fun _ => Brief.pure).within

theorem brief_findHookInitializer (localHook : Nat) :
    Brief Hooks (findHookInitializer build localHook) := by
  apply Brief.ask_bind fun _ => rfl
  intro answer
  cases answer with
  | none => exact Brief.ite Brief.pure (Brief.ask fun _ => rfl)
  | some initializer => exact Brief.pure

theorem brief_initializerRva (hookPath : WString) : Brief Hooks (initializerRva build hookPath) := by
  apply Brief.ask_bind fun _ => rfl
  intro answer
  cases answer with
  | none => exact Brief.fail
  | some localHook =>
    apply (brief_findHookInitializer localHook).bind
    intro found
    cases found with
    | none => exact Brief.fail
    | some initializer => exact Brief.ite Brief.fail Brief.pure

end Calls

section Halting

/-- The debug event that a call has brought. -/
def reported : Exchange Answer → Option DebugEvent
  | ⟨.waitForDebugEvent _, answer⟩ => answer
  | _ => none

def observedFrom (session : DebugSession) (h : History) : DebugSession :=
  (h.filterMap reported).foldl DebugSession.observe session

theorem observedFrom_append (session : DebugSession) (h more : History) :
    observedFrom session (h ++ more) = observedFrom (observedFrom session h) more := by
  rw [observedFrom, observedFrom, observedFrom, List.filterMap_append, List.foldl_append]

theorem observedFrom_silent {session : DebugSession} {h : History}
    (hsilent : h.filterMap reported = []) : observedFrom session h = session := by
  rw [observedFrom, hsilent, List.foldl_nil]

def codeWrite (address : Nat) (value : UInt8) (oldProtection ignored : UInt32) : History :=
  [⟨.virtualProtectEx address pageExecuteReadWrite, some oldProtection⟩,
    ⟨.writeProcessMemory address [value], some 1⟩, ⟨.flushInstructionCache address, true⟩,
    ⟨.virtualProtectEx address oldProtection, some ignored⟩]

/-- The breakpoint is set, and the byte that was there is known. -/
def Arms (entryPoint : Nat) (originalByte : UInt8) (h : History) : Prop :=
  ∃ oldProtection ignored, h = ⟨.readProcessMemory entryPoint 1, some [originalByte]⟩ ::
    codeWrite entryPoint 0xCC oldProtection ignored

/-- The main thread has met the breakpoint. -/
def MeetsEntry (process : ProcessInformation) (entryPoint : Nat) (event : DebugEvent) : Prop :=
  event.isBreakpointAt entryPoint = true ∧ event.threadId = process.threadId

/-- The main thread is set back to the entry, where its own byte is again, and is suspended before its
event goes on. -/
def Halts (process : ProcessInformation) (entryPoint : Nat) (originalByte : UInt8) (h : History) :
    Prop :=
  ∃ milliseconds event oldProtection ignored context count, MeetsEntry process entryPoint event ∧
    h = ⟨.waitForDebugEvent milliseconds, some event⟩ ::
      (codeWrite entryPoint originalByte oldProtection ignored ++
        [⟨.getThreadContext, some context⟩,
          ⟨.setThreadContext { context with instruction := entryPoint }, true⟩,
          ⟨.suspendThread, some count⟩,
          ⟨.continueDebugEvent event.processId event.threadId .dbgContinue, true⟩])

variable {build : Build} {process : ProcessInformation} {event : DebugEvent} {α : Type}

theorem yields_writeRemoteCodeByte (address : Nat) (value : UInt8) :
    Yields (writeRemoteCodeByte address value) fun _ h =>
      ∃ oldProtection ignored, h = codeWrite address value oldProtection ignored := by
  apply Yields.ask_bind
  intro answer
  cases answer with
  | none => exact Yields.fail
  | some oldProtection =>
    apply Yields.ask_bind
    intro written
    apply Yields.ask_bind
    intro flushOk
    apply Yields.ask_bind
    intro answer
    apply Yields.ite fun _ => Yields.fail
    intro hdone
    simp only [not_or, ne_eq, not_not, Bool.not_eq_false] at hdone
    obtain ⟨hwritten, hflush, hprotection⟩ := hdone
    obtain ⟨ignored, hignored⟩ := Option.ne_none_iff_exists'.mp hprotection
    apply Yields.pure
    refine ⟨oldProtection, ignored, ?_⟩
    rw [hwritten, hflush, hignored]
    rfl

theorem yields_armEntryBreakpoint (entryPoint : Nat) :
    Yields (armEntryBreakpoint entryPoint) fun breakpoint h =>
      breakpoint.armed = true ∧ Arms entryPoint breakpoint.originalByte h := by
  apply Yields.ask_bind
  intro answer
  cases answer with
  | none => exact Yields.fail
  | some bytes =>
    cases bytes with
    | nil => exact Yields.fail
    | cons originalByte more =>
      cases more with
      | cons next more => exact Yields.fail
      | nil =>
        apply (yields_writeRemoteCodeByte entryPoint 0xCC).bind
        intro done h hwrite
        obtain ⟨oldProtection, ignored, hwrite⟩ := hwrite
        subst hwrite
        apply Yields.pure
        exact ⟨rfl, oldProtection, ignored, by rw [List.append_nil]⟩

theorem yields_orContinue {m : Launch α} {Q : α → History → Prop} (hm : Yields m Q) :
    Yields (orContinue event m) Q := by
  apply hm.onFailure
  apply Yields.ask_bind
  intro answer
  exact Yields.pure trivial

theorem yields_rewindThreadToEntry (entryPoint : Nat) :
    Yields (rewindThreadToEntry entryPoint) fun _ h => ∃ context,
      h = [⟨.getThreadContext, some context⟩,
        ⟨.setThreadContext { context with instruction := entryPoint }, true⟩] := by
  apply Yields.ask_bind
  intro answer
  cases answer with
  | none => exact Yields.fail
  | some context =>
    apply Yields.ask_bind
    intro done
    cases done with
    | true => exact Yields.pure ⟨context, rfl⟩
    | false => exact Yields.fail

theorem yields_suspendMain :
    Yields suspendMain fun _ h => ∃ count, h = [⟨.suspendThread, some count⟩] := by
  apply Yields.ask_bind
  intro answer
  cases answer with
  | none => exact Yields.fail
  | some count => exact Yields.pure ⟨count, rfl⟩

theorem yields_armPass (state : Pausing) : Yields (armPass build event state) fun next h =>
    ∃ entryPoint breakpoint reading arming,
      next = .inl ⟨state.session, true, entryPoint, breakpoint⟩ ∧ breakpoint.armed = true ∧
      Only Reads reading ∧ Arms entryPoint breakpoint.originalByte arming ∧
      h = reading ++ (arming ++
        [⟨.continueDebugEvent event.processId event.threadId .dbgContinue, true⟩]) := by
  apply (yields_orContinue (brief_readRemoteEntryPoint state.session).within.yields).bind
  intro entryPoint reading hreading
  apply (yields_orContinue (yields_armEntryBreakpoint entryPoint)).bind
  intro breakpoint arming harming
  apply Yields.ask_bind
  intro done
  cases done with
  | false => exact Yields.fail
  | true =>
    apply Yields.pure
    exact ⟨entryPoint, breakpoint, reading, arming, rfl, harming.1, hreading, harming.2, rfl⟩

theorem yields_haltPass (state : Pausing) (harmed : state.entryBreakpoint.armed = true) :
    Yields (haltPass event state) fun next h => ∃ oldProtection ignored context count,
      next = .inr state.session ∧
      h = codeWrite state.entryPoint state.entryBreakpoint.originalByte oldProtection ignored ++
        [⟨.getThreadContext, some context⟩,
          ⟨.setThreadContext { context with instruction := state.entryPoint }, true⟩,
          ⟨.suspendThread, some count⟩,
          ⟨.continueDebugEvent event.processId event.threadId .dbgContinue, true⟩] := by
  rw [haltPass, restoreEntryBreakpoint, if_pos harmed]
  apply (yields_orContinue (yields_writeRemoteCodeByte _ _)).bind
  intro restored writing hwriting
  obtain ⟨oldProtection, ignored, hwriting⟩ := hwriting
  subst hwriting
  apply (yields_orContinue (yields_rewindThreadToEntry _)).bind
  intro rewound rewinding hrewinding
  obtain ⟨context, hrewinding⟩ := hrewinding
  subst hrewinding
  apply (yields_orContinue yields_suspendMain).bind
  intro suspended suspending hsuspending
  obtain ⟨count, hsuspending⟩ := hsuspending
  subst hsuspending
  apply Yields.ask_bind
  intro done
  cases done with
  | false => exact Yields.fail
  | true => exact Yields.pure ⟨oldProtection, ignored, context, count, rfl, rfl⟩

def Unmet (process : ProcessInformation) (entryPoint : Nat) (e : Exchange Answer) : Prop :=
  Looks e ∧ ∀ event, reported e = some event → ¬MeetsEntry process entryPoint event

/-- What the loop has done before a pass. -/
inductive Pauses (process : ProcessInformation) (state : Pausing) (so : History) : Prop where
  | watching (hseen : state.initialBreakpointSeen = false) (hlooks : Only Looks so)
  | armed (hseen : state.initialBreakpointSeen = true) (harmed : state.entryBreakpoint.armed = true)
      (before arming between : History) (hso : so = before ++ (arming ++ between))
      (hbefore : Only Looks before)
      (harms : Arms state.entryPoint state.entryBreakpoint.originalByte arming)
      (hbetween : Only (Unmet process state.entryPoint) between)

/-- The main thread stands suspended at the entry, which has its own byte again. -/
structure Paused (process : ProcessInformation) (entryPoint : Nat) (originalByte : UInt8)
    (before arming between halting : History) : Prop where
  looks : Only Looks before
  arms : Arms entryPoint originalByte arming
  unmet : Only (Unmet process entryPoint) between
  halts : Halts process entryPoint originalByte halting

theorem filterMap_reported_eq_nil {h : History} (hreads : Only Reads h) :
    h.filterMap reported = [] := by
  rw [List.filterMap_eq_nil_iff]
  intro e he
  have hread := hreads e he
  obtain ⟨call, answer⟩ := e
  cases call <;> first | rfl | cases hread

theorem Arms.filterMap_reported {entryPoint : Nat} {originalByte : UInt8} {h : History}
    (harms : Arms entryPoint originalByte h) : h.filterMap reported = [] := by
  obtain ⟨oldProtection, ignored, harms⟩ := harms
  subst harms
  rfl

theorem yields_pausePass {deadline : Nat} {state : Pausing} {so : History}
    (hso : Pauses process state so) (hsession : state.session = observedFrom {} so) :
    Yields (pausePass build process deadline state) fun next more =>
      Passes (fun state h => Pauses process state h ∧ state.session = observedFrom {} h)
        (fun session h => session = observedFrom {} h ∧
          ∃ entryPoint originalByte before arming between halting,
            Paused process entryPoint originalByte before arming between halting ∧
              h = before ++ (arming ++ (between ++ halting)))
        next (so ++ more) := by
  apply Yields.ask_bind
  intro now
  apply Yields.ite fun _ => Yields.fail
  intro _
  apply Yields.ask_bind
  intro answer
  cases answer with
  | none => exact Yields.fail
  | some event =>
    apply Yields.ite
    · intro _
      exact yields_orContinue Yields.fail
    intro _
    apply Yields.ite
    · intro hfirst
      apply (yields_armPass _).weaken
      intro next more hmore
      obtain ⟨entryPoint, breakpoint, reading, arming, hnext, harmed, hreading, harms, hmore⟩ := hmore
      subst hnext hmore
      cases hso with
      | armed hseen => exact absurd hfirst.2 (by simp [hseen])
      | watching hseen hlooks =>
        constructor
        · apply Pauses.armed rfl harmed
            (so ++ (⟨.getTickCount64, now⟩ :: ⟨.waitForDebugEvent (deadline - now), some event⟩ ::
              reading)) arming
            [⟨.continueDebugEvent event.processId event.threadId .dbgContinue, true⟩]
          · simp
          · simp only [only_append, only_cons]
            exact ⟨hlooks, rfl, rfl, hreading.weaken fun _ h => h.looks⟩
          · exact harms
          · simp only [only_cons, only_nil, and_true]
            exact ⟨rfl, fun event h => by cases h⟩
        · rw [observedFrom_append, ← hsession]
          apply Eq.symm
          apply @observedFrom_silent (state.session.observe event)
          rw [List.filterMap_append, List.filterMap_append, filterMap_reported_eq_nil hreading,
            harms.filterMap_reported]
          rfl
    intro hfirst
    apply Yields.ite
    · intro hmeets
      cases hso with
      | watching hseen => exact absurd (hseen.symm.trans hmeets.2.1) Bool.false_ne_true
      | armed hseen harmed before arming between hso hbefore harms hbetween =>
        apply (yields_haltPass { state with session := state.session.observe event } harmed).weaken
        intro next more hmore
        obtain ⟨oldProtection, ignored, context, count, hnext, hmore⟩ := hmore
        subst hnext hmore
        constructor
        · rw [observedFrom_append, ← hsession]
          rfl
        · refine ⟨state.entryPoint, state.entryBreakpoint.originalByte, before, arming,
            between ++ [⟨.getTickCount64, now⟩], _, ⟨hbefore, harms, ?_, deadline - now, event,
              oldProtection, ignored, context, count, ⟨hmeets.1, hmeets.2.2⟩, rfl⟩, ?_⟩
          · simp only [only_append, only_cons, only_nil, and_true]
            exact ⟨hbetween, rfl, fun event h => by cases h⟩
          · rw [hso]
            simp
    intro hunmet
    apply Yields.ask_bind
    intro done
    cases done with
    | false => exact Yields.fail
    | true =>
      apply Yields.pure
      constructor
      · cases hso with
        | watching hseen hlooks =>
          refine Pauses.watching hseen ?_
          simp only [only_append, only_cons, only_nil, and_true]
          exact ⟨hlooks, rfl, rfl, rfl⟩
        | armed hseen harmed before arming between hso hbefore harms hbetween =>
          refine Pauses.armed hseen harmed before arming (between ++ [⟨.getTickCount64, now⟩,
            ⟨.waitForDebugEvent (deadline - now), some event⟩,
            ⟨.continueDebugEvent event.processId event.threadId (continueStatus event), true⟩])
            ?_ hbefore harms ?_
          · rw [hso]
            simp
          · simp only [only_append, only_cons, only_nil, and_true]
            refine ⟨hbetween, ⟨rfl, fun event h => by cases h⟩, ⟨rfl, ?_⟩, rfl,
              fun event h => by cases h⟩
            intro seen hreported hmeets
            cases Option.some.inj hreported
            exact hunmet ⟨hmeets.1, hseen, hmeets.2⟩
      · rw [observedFrom_append, ← hsession]
        rfl

theorem yields_pauseAfterLoaderInitialization (fuel : Nat) :
    Yields (pauseAfterLoaderInitialization build process fuel) fun session h =>
      session = observedFrom {} h ∧ ∃ entryPoint originalByte before arming between halting,
        Paused process entryPoint originalByte before arming between halting ∧
          h = before ++ (arming ++ (between ++ halting)) := by
  apply Yields.ask_bind
  intro now
  have hloop := @Yields.loop _ _ _ _ _ _ (pausePass build process (now + kStartupTimeoutMs))
    (fun state h => Pauses process state h ∧ state.session = observedFrom {} h) fuel {}
    (fun state so hso => yields_pausePass hso.1 hso.2) ⟨Pauses.watching rfl only_nil, rfl⟩
  apply hloop.weaken
  intro session h hh
  obtain ⟨hsession, entryPoint, originalByte, before, arming, between, halting, hpaused, hh⟩ := hh
  subst hh
  refine ⟨hsession, entryPoint, originalByte, ⟨.getTickCount64, now⟩ :: before, arming, between, halting,
    ⟨?_, hpaused.arms, hpaused.unmet, hpaused.halts⟩, rfl⟩
  exact only_cons.mpr ⟨rfl, hpaused.looks⟩

end Halting

section Initializing

/-- The thread is seen to end, or its end is reported. -/
inductive EndsWith (threadId exitCode : UInt32) : History → Prop where
  | waited (front : History) : EndsWith threadId exitCode (front ++
      [⟨.waitForThread threadId, .object⟩, ⟨.getExitCodeThread threadId, some exitCode⟩])
  | reported (front : History) (milliseconds : Nat) (event : DebugEvent)
      (hkind : event.kind = .exitThread exitCode) (hthread : event.threadId = threadId) :
      EndsWith threadId exitCode (front ++ [⟨.waitForDebugEvent milliseconds, some event⟩,
        ⟨.continueDebugEvent event.processId event.threadId .dbgContinue, true⟩])

/-- A function of the game has been called and has returned. -/
def Called (startAddress parameter : Nat) (exitCode : UInt32) (h : History) : Prop :=
  ∃ threadId rest, h = ⟨.createRemoteThread startAddress parameter, some threadId⟩ :: rest ∧
    EndsWith threadId exitCode rest

variable {build : Build} {process : ProcessInformation}

theorem yields_callPass {threadId : UInt32} {deadline : Nat} {session : DebugSession} {state : Calling}
    {so : History} (hsession : state.session = observedFrom session so) :
    Yields (callPass threadId deadline state) fun next more =>
      Passes (fun state h => state.session = observedFrom session h)
        (fun result h => result.1 = observedFrom session h ∧ EndsWith threadId result.2 h)
        next (so ++ more) := by
  apply Yields.ask_bind
  intro answer
  cases answer with
  | failed => exact Yields.fail
  | object =>
    apply Yields.ask_bind
    intro answer
    cases answer with
    | none => exact Yields.fail
    | some result =>
      apply Yields.pure
      constructor
      · rw [observedFrom_append, ← hsession]
        rfl
      · exact EndsWith.waited so
  | timeout =>
    apply Yields.ask_bind
    intro now
    apply Yields.ite fun _ => Yields.fail
    intro _
    apply Yields.ask_bind
    intro answer
    cases answer with
    | none => exact Yields.fail
    | some event =>
      apply Yields.ask_bind
      intro done
      refine Yields.ite ?_ fun _ => Yields.fail
      intro hdone
      subst hdone
      have hobserve : state.session.observe event = observedFrom session (so ++
          [⟨.waitForThread threadId, .timeout⟩, ⟨.getTickCount64, now⟩,
            ⟨.waitForDebugEvent (deadline - now), some event⟩,
            ⟨.continueDebugEvent event.processId event.threadId (continueStatus event), true⟩]) := by
        rw [observedFrom_append, ← hsession]
        rfl
      cases hkind : event.kind with
      | exitProcess => exact Yields.fail
      | exitThread exitCode =>
        apply Yields.ite
        · intro hthread
          apply Yields.pure
          refine ⟨hobserve, ?_⟩
          have hend := EndsWith.reported (so ++ [⟨.waitForThread threadId, .timeout⟩,
            ⟨.getTickCount64, now⟩]) (deadline - now) event hkind hthread
          have hstatus : continueStatus event = .dbgContinue := by rw [continueStatus, hkind]
          rw [hstatus]
          rw [List.append_assoc] at hend
          exact hend
        · intro _
          exact Yields.pure hobserve
      | createProcess base file => exact Yields.pure hobserve
      | loadDll base file => exact Yields.pure hobserve
      | unloadDll base => exact Yields.pure hobserve
      | exception code address => exact Yields.pure hobserve
      | other code => exact Yields.pure hobserve

theorem yields_runRemoteThread (fuel : Nat) (session : DebugSession) (startAddress parameter : Nat) :
    Yields (runRemoteThread fuel session startAddress parameter) fun result h =>
      result.1 = observedFrom session h ∧ Called startAddress parameter result.2 h := by
  apply Yields.ask_bind
  intro answer
  cases answer with
  | none => exact Yields.fail
  | some threadId =>
    apply Yields.ask_bind
    intro now
    have hloop := @Yields.loop _ _ _ _ _ (fun result h => result.1 = observedFrom session h ∧
        EndsWith threadId result.2 h) (callPass threadId (now + kRemoteCallTimeoutMs))
      (fun state h => state.session = observedFrom session h) fuel ⟨session, []⟩
      (fun state so hso => yields_callPass hso) rfl
    apply hloop.weaken
    intro result h hh
    refine ⟨hh.1, threadId, ⟨.getTickCount64, now⟩ :: h, rfl, ?_⟩
    cases hh.2 with
    | waited front => exact EndsWith.waited (⟨.getTickCount64, now⟩ :: front)
    | reported front milliseconds event hkind hthread =>
      exact EndsWith.reported (⟨.getTickCount64, now⟩ :: front) milliseconds event hkind hthread

theorem findLoop_ok {expectedName : WString} {expectedPath : Option WString} {conflicting : Bool}
    {observed : WString} {modules : List DebugModule} {base : Nat}
    (h : findLoop expectedName expectedPath conflicting observed modules = .ok base) :
    ∃ module ∈ modules, module.base = base ∧ equalIgnoringCase module.name expectedName = true ∧
      (expectedPath.all fun path => equalIgnoringCase module.path path) = true := by
  induction modules generalizing conflicting observed with
  | nil =>
    cases conflicting with
    | true => cases h
    | false => cases h
  | cons module rest ih =>
    rw [findLoop] at h
    by_cases hname : equalIgnoringCase module.name expectedName = true
    · rw [hname, Bool.not_true, if_neg Bool.false_ne_true] at h
      by_cases hpath : (expectedPath.all fun path => equalIgnoringCase module.path path) = true
      · rw [if_pos hpath] at h
        exact ⟨module, List.mem_cons_self, Except.ok.inj h, hname, hpath⟩
      · rw [if_neg hpath] at h
        obtain ⟨found, hmem, hfound⟩ := ih h
        exact ⟨found, List.mem_cons_of_mem _ hmem, hfound⟩
    · rw [Bool.not_eq_true] at hname
      rw [hname, Bool.not_false, if_pos rfl] at h
      obtain ⟨found, hmem, hfound⟩ := ih h
      exact ⟨found, List.mem_cons_of_mem _ hmem, hfound⟩

def IsHook (hookPath : WString) (session : DebugSession) (base : Nat) : Prop :=
  ∃ module ∈ session.modules, module.base = base ∧ equalIgnoringCase module.name kHookFileName = true ∧
    equalIgnoringCase module.path hookPath = true

def Loads (hookPath : WString) (h : History) : Prop :=
  ∃ remotePath loadLibrary exitCode resolving loading,
    h = ⟨.virtualAllocEx (wideBytes hookPath).length, some remotePath⟩ ::
      ⟨.writeProcessMemory remotePath (wideBytes hookPath), some (wideBytes hookPath).length⟩ ::
      (resolving ++ loading) ∧ Called loadLibrary remotePath exitCode loading

theorem yields_lift {α : Type} {result : Except LaunchError α} :
    Yields (lift result) fun a h => h = [] ∧ result = .ok a := by
  cases result with
  | ok a => exact Yields.pure ⟨rfl, rfl⟩
  | error error => exact Yields.fail

theorem yields_remoteFunctionAddress (session : DebugSession) (localFunction : Nat) :
    Yields (remoteFunctionAddress build session localFunction) fun _ h =>
      h.filterMap reported = [] := by
  apply Yields.ask_bind
  intro answer
  cases answer with
  | none => exact Yields.fail
  | some owner =>
    apply Yields.ask_bind
    intro answer
    cases answer with
    | none => exact Yields.fail
    | some modulePath =>
      apply Yields.ite fun _ => Yields.fail
      intro _
      apply yields_lift.bind
      intro remoteBase h hh
      rw [hh.1]
      exact Yields.pure rfl

theorem yields_loadRemoteHook (fuel : Nat) (session : DebugSession) (hookPath : WString) :
    Yields (loadRemoteHook build fuel session hookPath) fun result h =>
      result.1 = observedFrom session h ∧ IsHook hookPath result.1 result.2 ∧ Loads hookPath h := by
  apply Yields.ask_bind
  intro answer
  cases answer with
  | none => exact Yields.fail
  | some remotePath =>
    apply Yields.ask_bind
    intro written
    refine Yields.ite (fun _ => Yields.fail) ?_
    intro hwritten
    rw [not_not] at hwritten
    subst hwritten
    apply Yields.ask_bind
    intro answer
    cases answer with
    | none => exact Yields.fail
    | some loadLibrary =>
      apply (yields_remoteFunctionAddress session loadLibrary).bind
      intro remoteLoadLibrary resolving hresolving
      apply (yields_runRemoteThread fuel session remoteLoadLibrary remotePath).bind
      intro called loading hloading
      apply yields_lift.bind
      intro remoteHookBase nothing hfound
      obtain ⟨hnothing, hfound⟩ := hfound
      subst hnothing
      obtain ⟨module, hmem, hbase, hname, hpath⟩ := findLoop_ok hfound
      apply Yields.pure
      simp only [List.append_nil]
      refine ⟨?_, ⟨module, hmem, hbase, hname, hpath⟩, remotePath, remoteLoadLibrary, called.2,
        ⟨.getLoadLibrary, some loadLibrary⟩ :: resolving, loading, rfl, hloading.2⟩
      have hsilent : observedFrom session (resolving ++ loading) = called.1 := by
        rw [observedFrom_append, observedFrom_silent hresolving, hloading.1]
      exact hsilent.symm

/-- The initializer lies this far into the hook's file. -/
def Exports (hookPath : WString) (rva : Nat) (h : History) : Prop :=
  ∃ localHook, ∃ name ∈ ["FFBHookInitialize", "_FFBHookInitialize@4"],
    ⟨.loadHook hookPath, some localHook⟩ ∈ h ∧
      ⟨.getHookExport localHook name, some (localHook + rva)⟩ ∈ h

theorem yields_findHookInitializer (localHook : Nat) :
    Yields (findHookInitializer build localHook) fun found h => ∀ initializer, found = some initializer →
      ∃ name ∈ ["FFBHookInitialize", "_FFBHookInitialize@4"],
        ⟨.getHookExport localHook name, some initializer⟩ ∈ h := by
  apply Yields.ask_bind
  intro answer
  cases answer with
  | some initializer =>
    apply Yields.pure
    intro found hfound
    rw [Option.some.inj hfound]
    exact ⟨_, List.mem_cons_self, List.mem_cons_self⟩
  | none =>
    apply Yields.ite
    · intro _
      apply Yields.pure
      intro found hfound
      cases hfound
    · intro _
      apply Records.ask
      intro answer initializer hanswer
      rw [hanswer]
      exact ⟨_, List.mem_cons_of_mem _ List.mem_cons_self, List.mem_cons_of_mem _ List.mem_cons_self⟩

theorem yields_initializerRva (hookPath : WString) :
    Yields (initializerRva build hookPath) fun rva h => Exports hookPath rva h := by
  apply Yields.ask_bind
  intro answer
  cases answer with
  | none => exact Yields.fail
  | some localHook =>
    apply (yields_findHookInitializer localHook).bind
    intro found finding hfound
    cases found with
    | none => exact Yields.fail
    | some initializer =>
      apply Yields.ite fun _ => Yields.fail
      intro hbelow
      obtain ⟨name, hname, hmem⟩ := hfound initializer rfl
      apply Yields.pure
      rw [List.append_nil]
      refine ⟨localHook, name, hname, List.mem_cons_self, List.mem_cons_of_mem _ ?_⟩
      rw [Nat.add_sub_cancel' (Nat.not_lt.mp hbelow)]
      exact hmem

end Initializing

section Launching

variable {build : Build} {process : ProcessInformation}

/-- The game that goes on was stopped at its entry, loaded the hook, ran the initializer of the hook at
its place in the game with success, and was let go after that. -/
def Initialized (build : Build) (hookPath : WString) (process : ProcessInformation) (h : History) :
    Prop :=
  ∃ entryPoint originalByte before arming between halting loading finding calling base rva count,
    h = before ++ (arming ++ (between ++ halting)) ++ (loading ++ (finding ++ (calling ++
      [⟨.debugSetProcessKillOnExit false, true⟩, ⟨.resumeThread, some count⟩]))) ∧
    Paused process entryPoint originalByte before arming between halting ∧
    Only Hooks (loading ++ (finding ++ calling)) ∧ Loads hookPath loading ∧
    IsHook hookPath (observedFrom {} (before ++ (arming ++ (between ++ halting)) ++ loading)) base ∧
    Exports hookPath rva finding ∧ Called (build.wrap (base + rva)) 0 1 calling

theorem yields_initializeGame (fuel : Nat) (hookPath : WString) :
    Yields (initializeGame build fuel hookPath process) fun _ h =>
      Initialized build hookPath process h := by
  apply (yields_pauseAfterLoaderInitialization fuel).bind
  intro session pausing hpausing
  obtain ⟨hsession, entryPoint, originalByte, before, arming, between, halting, hpaused, hpausing⟩ :=
    hpausing
  subst hpausing
  apply ((yields_loadRemoteHook fuel session hookPath).within
    (within_loadRemoteHook fuel session hookPath)).bind
  intro hook loading hloading
  obtain ⟨⟨hloaded, hhook, hloads⟩, hloading⟩ := hloading
  apply ((yields_initializerRva hookPath).within (brief_initializerRva hookPath).within).bind
  intro rva finding hfinding
  obtain ⟨hexports, hfinding⟩ := hfinding
  apply ((yields_runRemoteThread fuel hook.1 (build.wrap (hook.2 + rva)) 0).within
    (within_runRemoteThread fuel _ _ _)).bind
  intro called calling hcalling
  obtain ⟨⟨-, hcalled⟩, hcalling⟩ := hcalling
  refine Yields.ite (fun _ => Yields.fail) ?_
  intro hresult
  rw [not_not] at hresult
  rw [hresult] at hcalled
  apply Yields.ask_bind
  intro done
  refine Yields.ite ?_ fun _ => Yields.fail
  intro hdone
  subst hdone
  apply Yields.ask_bind
  intro answer
  cases answer with
  | none => exact Yields.fail
  | some count =>
    apply Yields.pure
    rw [hloaded, hsession, ← observedFrom_append] at hhook
    refine ⟨entryPoint, originalByte, before, arming, between, halting, loading, finding, calling,
      hook.2, rva, count, rfl, hpaused, ?_, hloads, hhook, hexports, hcalled⟩
    simp only [only_append]
    exact ⟨hloading, hfinding, hcalling⟩

def Keeps : Exchange Answer → Prop
  | ⟨.resumeThread, answer⟩ => answer = none
  | ⟨.debugSetProcessKillOnExit _, _⟩ => True
  | e => Holds e

theorem Holds.keeps {e : Exchange Answer} (h : Holds e) : Keeps e := by
  obtain ⟨call, answer⟩ := e
  cases call <;> first | exact h | cases h

theorem until_initializeGame (fuel : Nat) (hookPath : WString) :
    Until Keeps (initializeGame build fuel hookPath process) := by
  apply Until.bind ((within_pauseAfterLoaderInitialization fuel).weaken fun _ h => h.keeps)
  intro session
  apply Until.bind ((within_loadRemoteHook fuel session hookPath).weaken fun _ h => h.holds.keeps)
  intro hook
  apply Until.bind ((brief_initializerRva hookPath).weaken fun _ h => h.holds.keeps).within
  intro rva
  apply Until.bind ((within_runRemoteThread fuel _ _ _).weaken fun _ h => h.holds.keeps)
  intro called
  apply Records.ite
  · intro _
    exact Within.fail.until
  intro _
  apply Until.bind (Within.ask fun _ => trivial)
  intro done
  refine Records.ite ?_ fun _ => Within.fail.until
  intro _
  apply Records.ask_bind
  intro answer
  cases answer with
  | none =>
    apply Records.fail
    exact only_cons.mpr ⟨rfl, only_nil⟩
  | some count => exact Records.pure trivial

/-- The path is that of an existing file, resolved. -/
def Resolves (input resolved : WString) (h : History) : Prop :=
  ∃ finalPath, ⟨.openExisting input, some ⟨false, some finalPath⟩⟩ ∈ h ∧
    resolved = stripExtendedStart finalPath ∧ resolved.length < 260

/-- What a launch needs to know before it creates the process. -/
structure Checked (build : Build) (request : LaunchRequest) (gamePath hookPath : WString)
    (h : History) : Prop where
  unelevated : ⟨.getTokenElevation, some false⟩ ∈ h
  game : Resolves request.gamePath gamePath h
  gameLocal : isUncPath gamePath = false
  gameExe : hasExeExtension gamePath = true
  gameOutside : ∃ windowsDirectory, ⟨.getWindowsDirectory, some windowsDirectory⟩ ∈ h ∧
    pathIsWithin gamePath windowsDirectory = false
  hook : ∃ ownPath, ⟨.getModuleFileName, some ownPath⟩ ∈ h ∧
    Resolves (parentDirectory ownPath ++ [backslash] ++ kHookFileName) hookPath h
  hookLocal : isUncPath hookPath = false
  gameArchitecture : ⟨.readPeArchitecture gamePath, .ok build.architecture⟩ ∈ h
  hookArchitecture : ⟨.readPeArchitecture hookPath, .ok build.architecture⟩ ∈ h

def Launched (build : Build) (request : LaunchRequest) (processId : UInt32) (h : History) : Prop :=
  ∃ checking gamePath hookPath process initializing,
    h = checking ++ ⟨.createProcess gamePath (buildCommandLine { request with gamePath := gamePath })
      (parentDirectory gamePath), some process⟩ :: initializing ∧
    processId = process.processId ∧ Only Holds checking ∧
    Checked build request gamePath hookPath checking ∧ Initialized build hookPath process initializing

def Uncreated : Exchange Answer → Prop
  | ⟨.createProcess _ _ _, answer⟩ => answer = none
  | e => Holds e

/-- A launch that has failed: the process that it had created was terminated and never went on. -/
def Abandoned (h : History) : Prop :=
  Only Uncreated h ∨ ∃ checking gamePath commandLine directory process keeping terminated waited,
    h = checking ++ ⟨.createProcess gamePath commandLine directory, some process⟩ ::
      (keeping ++ [⟨.terminateProcess, terminated⟩, ⟨.waitForProcess 5000, waited⟩]) ∧
    Only Holds checking ∧ Only Keeps keeping

def Pending (h : History) : Prop :=
  Only Uncreated h ∨ ∃ checking gamePath commandLine directory process keeping,
    h = checking ++ ⟨.createProcess gamePath commandLine directory, some process⟩ :: keeping ∧
    Only Holds checking ∧ Only Keeps keeping

theorem Holds.uncreated {e : Exchange Answer} (h : Holds e) : Uncreated e := by
  obtain ⟨call, answer⟩ := e
  cases call <;> first | exact h | cases h

theorem brief_requireUnelevated : Brief Holds requireUnelevated := by
  apply Brief.ask_bind fun _ => rfl
  intro opened
  refine Brief.ite ?_ Brief.fail
  apply Brief.ask_bind fun _ => rfl
  intro answer
  cases answer with
  | none => exact Brief.fail
  | some elevated =>
    cases elevated with
    | true => exact Brief.fail
    | false => exact Brief.pure

theorem yields_requireUnelevated :
    Yields requireUnelevated fun _ h => ⟨.getTokenElevation, some false⟩ ∈ h := by
  apply Yields.ask_bind
  intro opened
  refine Yields.ite ?_ fun _ => Yields.fail
  intro _
  apply Yields.ask_bind
  intro answer
  cases answer with
  | none => exact Yields.fail
  | some elevated =>
    cases elevated with
    | true => exact Yields.fail
    | false => exact Yields.pure (List.mem_cons_of_mem _ List.mem_cons_self)

theorem yields_resolveExistingFile (input : WString) :
    Yields (resolveExistingFile input) fun resolved h => Resolves input resolved h := by
  apply Yields.ask_bind
  intro answer
  cases answer with
  | none => exact Yields.fail
  | some file =>
    apply Yields.ite fun _ => Yields.fail
    intro hdirectory
    cases hpath : file.finalPath with
    | none => exact Yields.fail
    | some finalPath =>
      apply Yields.ite fun _ => Yields.fail
      intro hlength
      apply Yields.pure
      refine ⟨finalPath, List.mem_singleton.mpr ?_, rfl, Nat.not_le.mp hlength⟩
      rw [Bool.not_eq_true] at hdirectory
      rw [← hdirectory, ← hpath]

theorem brief_resolveGame (request : LaunchRequest) : Brief Holds (resolveGame request) := by
  apply (brief_resolveExistingFile _).bind
  intro gamePath
  refine Brief.ite Brief.fail (Brief.ite ?_ Brief.fail)
  apply Brief.ask_bind fun _ => rfl
  intro answer
  cases answer with
  | none => exact Brief.fail
  | some windowsDirectory => exact Brief.ite Brief.fail Brief.pure

theorem yields_resolveGame (request : LaunchRequest) : Yields (resolveGame request) fun gamePath h =>
    Resolves request.gamePath gamePath h ∧ isUncPath gamePath = false ∧ hasExeExtension gamePath = true ∧
      ∃ windowsDirectory, ⟨.getWindowsDirectory, some windowsDirectory⟩ ∈ h ∧
        pathIsWithin gamePath windowsDirectory = false := by
  apply (yields_resolveExistingFile _).bind
  intro gamePath resolving hresolves
  apply Yields.ite fun _ => Yields.fail
  intro hlocal
  refine Yields.ite ?_ fun _ => Yields.fail
  intro hexe
  apply Yields.ask_bind
  intro answer
  cases answer with
  | none => exact Yields.fail
  | some windowsDirectory =>
    apply Yields.ite fun _ => Yields.fail
    intro houtside
    rw [Bool.not_eq_true] at hlocal houtside
    obtain ⟨finalPath, hmem, hresolved⟩ := hresolves
    apply Yields.pure
    exact ⟨⟨finalPath, List.mem_append_left _ hmem, hresolved⟩, hlocal, hexe, windowsDirectory,
      List.mem_append_right _ List.mem_cons_self, houtside⟩

theorem brief_resolveHook : Brief Holds resolveHook := by
  apply Brief.ask_bind fun _ => rfl
  intro answer
  cases answer with
  | none => exact Brief.fail
  | some ownPath =>
    apply (brief_resolveExistingFile _).reword.bind
    intro hookPath
    exact Brief.ite Brief.fail Brief.pure

theorem yields_resolveHook : Yields resolveHook fun hookPath h => isUncPath hookPath = false ∧
    ∃ ownPath, ⟨.getModuleFileName, some ownPath⟩ ∈ h ∧
      Resolves (parentDirectory ownPath ++ [backslash] ++ kHookFileName) hookPath h := by
  apply Yields.ask_bind
  intro answer
  cases answer with
  | none => exact Yields.fail
  | some ownPath =>
    apply (yields_resolveExistingFile _).reword.bind
    intro hookPath resolving hresolves
    apply Yields.ite fun _ => Yields.fail
    intro hlocal
    rw [Bool.not_eq_true] at hlocal
    obtain ⟨finalPath, hmem, hresolved⟩ := hresolves
    apply Yields.pure
    rw [List.append_nil]
    exact ⟨hlocal, ownPath, List.mem_cons_self, finalPath, List.mem_cons_of_mem _ hmem, hresolved⟩

theorem brief_requireArchitecture (gamePath hookPath : WString) :
    Brief Holds (requireArchitecture build gamePath hookPath) := by
  apply Brief.ask_bind fun _ => rfl
  intro game
  apply Brief.ask_bind fun _ => rfl
  intro hook
  exact Brief.ite Brief.fail (Brief.ite Brief.fail Brief.pure)

theorem foundArchitecture_eq {found : Except String PeArchitecture} {architecture : PeArchitecture}
    (hknown : foundArchitecture found ≠ .unknown) (h : foundArchitecture found = architecture) :
    found = .ok architecture := by
  cases found with
  | ok architecture => exact congrArg Except.ok h
  | error text => exact absurd rfl hknown

theorem yields_requireArchitecture (gamePath hookPath : WString) :
    Yields (requireArchitecture build gamePath hookPath) fun _ h =>
      ⟨.readPeArchitecture gamePath, .ok build.architecture⟩ ∈ h ∧
        ⟨.readPeArchitecture hookPath, .ok build.architecture⟩ ∈ h := by
  apply Yields.ask_bind
  intro game
  apply Yields.ask_bind
  intro hook
  apply Yields.ite fun _ => Yields.fail
  intro hknown
  apply Yields.ite fun _ => Yields.fail
  intro hsame
  simp only [not_or, ne_eq, not_not] at hknown hsame
  have hgame := foundArchitecture_eq hknown.1 hsame.1
  have hhook := foundArchitecture_eq hknown.2 hsame.2
  subst hgame hhook
  apply Yields.pure
  exact ⟨List.mem_cons_self, List.mem_cons_of_mem _ List.mem_cons_self⟩

theorem yields_launchOfflineGame (fuel : Nat) (request : LaunchRequest) :
    Yields (launchOfflineGame build fuel request) fun processId h =>
      Launched build request processId h := by
  apply (yields_requireUnelevated.within brief_requireUnelevated.within).bind
  intro _ asking hasking
  apply ((yields_resolveGame request).within (brief_resolveGame request).within).bind
  intro gamePath resolving hresolving
  apply (yields_resolveHook.within brief_resolveHook.within).bind
  intro hookPath finding hfinding
  apply ((yields_requireArchitecture gamePath hookPath).within
    (brief_requireArchitecture gamePath hookPath).within).bind
  intro _ reading hreading
  apply Yields.ask_bind
  intro answer
  cases answer with
  | none => exact Yields.fail
  | some process =>
    have hcleanup : Yields terminateChild fun _ _ => True := by
      apply Yields.ask_bind
      intro terminated
      apply Yields.ask_bind
      intro waited
      exact Yields.pure trivial
    apply ((yields_initializeGame fuel hookPath).onFailure hcleanup).bind
    intro _ initializing hinitializing
    obtain ⟨hunelevated, hasking⟩ := hasking
    obtain ⟨⟨⟨gameFinal, hgame, hgameResolved⟩, hlocal, hexe, directory, hdirectory, houtside⟩,
      hresolving⟩ := hresolving
    obtain ⟨⟨hhookLocal, ownPath, hown, hookFinal, hhook, hhookResolved⟩, hfinding⟩ := hfinding
    obtain ⟨⟨hgameArchitecture, hhookArchitecture⟩, hreading⟩ := hreading
    have hmiddle : ∀ e ∈ finding, e ∈ asking ++ (resolving ++ (finding ++ reading)) := fun e he =>
      List.mem_append_right _ (List.mem_append_right _ (List.mem_append_left _ he))
    have hlast : ∀ e ∈ reading, e ∈ asking ++ (resolving ++ (finding ++ reading)) := fun e he =>
      List.mem_append_right _ (List.mem_append_right _ (List.mem_append_right _ he))
    have hsecond : ∀ e ∈ resolving, e ∈ asking ++ (resolving ++ (finding ++ reading)) := fun e he =>
      List.mem_append_right _ (List.mem_append_left _ he)
    apply Yields.pure
    refine ⟨asking ++ (resolving ++ (finding ++ reading)), gamePath, hookPath, process, initializing,
      ?_, rfl, ?_, ?_, hinitializing⟩
    · simp only [List.append_assoc, List.append_nil]
    · simp only [only_append]
      exact ⟨hasking, hresolving, hfinding, hreading⟩
    · exact
        { unelevated := List.mem_append_left _ hunelevated
          game := ⟨gameFinal, hsecond _ hgame, hgameResolved⟩
          gameLocal := hlocal
          gameExe := hexe
          gameOutside := ⟨directory, hsecond _ hdirectory, houtside⟩
          hook := ⟨ownPath, hmiddle _ hown, hookFinal, hmiddle _ hhook, hhookResolved⟩
          hookLocal := hhookLocal
          gameArchitecture := hlast _ hgameArchitecture
          hookArchitecture := hlast _ hhookArchitecture }

theorem abandons_after {α β : Type} {m : Launch α} {f : α → Launch β} (hm : Brief Holds m)
    (hf : ∀ a, Records (f a) (fun _ _ => True) Abandoned Pending) :
    Records (m >>= f) (fun _ _ => True) Abandoned Pending := by
  have hstart : Records m (fun _ => Only Holds) Abandoned Pending :=
    Records.weaken hm.within (fun _ _ h => h) (fun _ h => Or.inl (h.weaken fun _ he => he.uncreated))
      fun _ h => Or.inl (h.weaken fun _ he => he.uncreated)
  apply Records.bind (R := fun _ _ => True) hstart
  intro a more hmore
  apply (hf a).weaken
  · intro _ _ _
    trivial
  · intro later hlater
    cases hlater with
    | inl hlater => exact Or.inl (only_append.mpr ⟨hmore.weaken fun _ he => he.uncreated, hlater⟩)
    | inr hlater =>
      obtain ⟨checking, gamePath, commandLine, directory, process, keeping, terminated, waited, hlater,
        hchecking, hkeeping⟩ := hlater
      refine Or.inr ⟨more ++ checking, gamePath, commandLine, directory, process, keeping, terminated,
        waited, ?_, only_append.mpr ⟨hmore, hchecking⟩, hkeeping⟩
      rw [hlater, List.append_assoc]
  · intro later hlater
    cases hlater with
    | inl hlater => exact Or.inl (only_append.mpr ⟨hmore.weaken fun _ he => he.uncreated, hlater⟩)
    | inr hlater =>
      obtain ⟨checking, gamePath, commandLine, directory, process, keeping, hlater, hchecking,
        hkeeping⟩ := hlater
      refine Or.inr ⟨more ++ checking, gamePath, commandLine, directory, process, keeping, ?_,
        only_append.mpr ⟨hmore, hchecking⟩, hkeeping⟩
      rw [hlater, List.append_assoc]

theorem records_launchOfflineGame (fuel : Nat) (request : LaunchRequest) :
    Records (launchOfflineGame build fuel request) (fun _ _ => True) Abandoned Pending := by
  apply abandons_after brief_requireUnelevated
  intro _
  apply abandons_after (brief_resolveGame request)
  intro gamePath
  apply abandons_after brief_resolveHook
  intro hookPath
  apply abandons_after (brief_requireArchitecture gamePath hookPath)
  intro _
  apply Records.ask_bind
  intro answer
  cases answer with
  | none =>
    apply Records.fail
    exact Or.inl (only_cons.mpr ⟨rfl, only_nil⟩)
  | some process =>
    have hkeeps : Records (onFailure (initializeGame build fuel hookPath process) terminateChild)
        (fun _ _ => True) (fun h => ∃ keeping terminated waited,
          h = keeping ++ [⟨.terminateProcess, terminated⟩, ⟨.waitForProcess 5000, waited⟩] ∧
            Only Keeps keeping) (Only Keeps) := by
      apply (until_initializeGame fuel hookPath).onFailure
      intro keeping hkeeping
      apply Records.ask_bind
      intro terminated
      apply Records.ask_bind
      intro waited
      apply Records.pure
      exact ⟨keeping, terminated, waited, rfl, hkeeping⟩
    have hends : Records (onFailure (initializeGame build fuel hookPath process) terminateChild)
        (fun _ _ => True)
        (fun h => Abandoned (⟨.createProcess gamePath
          (buildCommandLine { request with gamePath := gamePath }) (parentDirectory gamePath),
            some process⟩ :: h))
        (fun h => Pending (⟨.createProcess gamePath
          (buildCommandLine { request with gamePath := gamePath }) (parentDirectory gamePath),
            some process⟩ :: h)) := by
      apply hkeeps.weaken
      · intro _ _ _
        trivial
      · intro h hh
        obtain ⟨keeping, terminated, waited, hh, hkeeping⟩ := hh
        subst hh
        exact Or.inr ⟨[], _, _, _, process, keeping, terminated, waited, rfl, only_nil, hkeeping⟩
      · intro h hh
        exact Or.inr ⟨[], _, _, _, process, h, rfl, only_nil, hh⟩
    apply Records.bind (R := fun _ _ => True) hends
    intro _ _ _
    exact Records.pure trivial

/-- However a launch ends: with a process whose main thread was suspended at its entry, that loaded the
hook of the launcher's folder, ran its initializer with success and was let go after that; or without a
process, or with one that was terminated without having been let go. -/
theorem launch_keeps_custody (build : Build) (fuel : Nat) (request : LaunchRequest)
    (around : Surroundings Answer) :
    Dialogue.Meets (Launched build request) Abandoned Pending
      (launchOfflineGame build fuel request around []) := by
  have hboth := Records.both (yields_launchOfflineGame fuel request)
    (@records_launchOfflineGame build fuel request)
  obtain ⟨h, hleft, hmeets⟩ := hboth around []
  rw [List.nil_append] at hleft
  cases houtcome : launchOfflineGame build fuel request around [] with
  | mk result left =>
    rw [houtcome] at hleft hmeets
    subst hleft
    cases result with
    | ok processId => exact hmeets.1
    | error stop =>
      cases stop with
      | failed error => exact hmeets.2
      | unfinished => exact hmeets.2

end Launching

section Ending

/-- Time goes on: after enough exchanges any deadline has passed. -/
def TimePasses (around : Surroundings Answer) : Prop :=
  ∀ deadline, ∃ n, ∀ history, n ≤ history.length → deadline ≤ around .getTickCount64 history

variable {build : Build} {around : Surroundings Answer} {history : History}

theorem settles_pauseAfterLoaderInitialization (htime : TimePasses around)
    (process : ProcessInformation) :
    Settles (pauseAfterLoaderInitialization build process) around history := by
  apply Settles.ask_bind
  intro now left
  obtain ⟨n, hpassed⟩ := htime (now + kStartupTimeoutMs)
  apply Settles.loop (fun state history => (brief_pausePass _ state).1.finished around history)
    (fun state history => (brief_pausePass _ state).2 around history)
  intro state history hn next h
  rw [pausePass, Dialogue.ask_bind_run, if_pos (hpassed history hn)] at h
  cases h

/-- After the deadline the wait for the thread is the last one. -/
theorem callPass_late {threadId : UInt32} {deadline : Nat} {n : Nat}
    (hpassed : ∀ history, n ≤ history.length → deadline ≤ around .getTickCount64 history)
    (state : Calling) (hn : n ≤ history.length) (next : Calling) :
    (callPass threadId deadline state around history).1 ≠ .ok (.inl next) := by
  intro h
  rw [callPass, Dialogue.ask_bind_run] at h
  cases hwait : around (.waitForThread threadId) history with
  | failed =>
    rw [hwait] at h
    cases h
  | object =>
    rw [hwait] at h
    simp only [Dialogue.ask_bind_run] at h
    cases hcode : around (.getExitCodeThread threadId)
        (history ++ [⟨.waitForThread threadId, .object⟩]) with
    | none =>
      rw [hcode] at h
      cases h
    | some result =>
      rw [hcode] at h
      cases h
  | timeout =>
    rw [hwait] at h
    simp only [Dialogue.ask_bind_run] at h
    rw [if_pos (hpassed _ (by simp only [List.length_append]; omega))] at h
    cases h

theorem settles_runRemoteThread (htime : TimePasses around) (session : DebugSession)
    (startAddress parameter : Nat) :
    Settles (fun fuel => runRemoteThread fuel session startAddress parameter) around history := by
  apply Settles.ask_bind
  intro answer left
  cases answer with
  | none => exact Settles.fail
  | some threadId =>
    apply Settles.ask_bind
    intro now left
    obtain ⟨n, hpassed⟩ := htime (now + kRemoteCallTimeoutMs)
    apply Settles.loop (fun state history => (brief_callPass _ _ state).1.finished around history)
      (fun state history => (brief_callPass _ _ state).2 around history)
    intro state history hn next
    exact callPass_late hpassed state hn next

theorem settles_loadRemoteHook (htime : TimePasses around) (session : DebugSession)
    (hookPath : WString) :
    Settles (fun fuel => loadRemoteHook build fuel session hookPath) around history := by
  apply Settles.ask_bind
  intro answer left
  cases answer with
  | none => exact Settles.fail
  | some remotePath =>
    apply Settles.ask_bind
    intro written left
    apply Settles.ite Settles.fail
    apply Settles.ask_bind
    intro answer left
    cases answer with
    | none => exact Settles.fail
    | some loadLibrary =>
      apply Settles.brief_bind (brief_remoteFunctionAddress session loadLibrary)
      intro remoteLoadLibrary left
      apply Settles.bind (settles_runRemoteThread htime session remoteLoadLibrary remotePath)
      intro called left
      exact Settles.of_brief (brief_lift (P := Hooks).bind fun _ => Brief.pure)

theorem settles_initializeGame (htime : TimePasses around) (hookPath : WString)
    (process : ProcessInformation) :
    Settles (fun fuel => initializeGame build fuel hookPath process) around history := by
  apply Settles.bind (settles_pauseAfterLoaderInitialization htime process)
  intro session left
  apply Settles.bind (settles_loadRemoteHook htime session hookPath)
  intro hook left
  apply Settles.brief_bind (brief_initializerRva hookPath)
  intro rva left
  apply Settles.bind (settles_runRemoteThread htime hook.1 (build.wrap (hook.2 + rva)) 0)
  intro called left
  apply Settles.ite Settles.fail
  apply Settles.ask_bind
  intro done left
  refine Settles.ite ?_ Settles.fail
  apply Settles.ask_bind
  intro answer left
  cases answer with
  | none => exact Settles.fail
  | some count => exact Settles.pure

/-- The debug events of a game that starts without trouble, with its main thread 8 and the threads 9
of the launcher. -/
def ordinaryEvents : List DebugEvent :=
  [⟨7, 8, .createProcess 0x140000000 (some (wide "C:\\Game\\game.exe"))⟩,
    ⟨7, 8, .loadDll 0x70000 (some (wide "\\\\?\\C:\\Windows\\System32\\kernel32.dll"))⟩,
    ⟨7, 8, .exception exceptionBreakpoint 0x71000⟩,
    ⟨7, 8, .exception exceptionBreakpoint 0x140001000⟩,
    ⟨7, 9, .loadDll 0x90000 (some (wide "\\\\?\\C:\\FFB\\FFBInterceptor.Hook.dll"))⟩,
    ⟨7, 9, .exitThread 0x90000⟩, ⟨7, 9, .exitThread 1⟩]

/-- The headers of a game whose entry lies 0x1000 into an image of 0x100000 bytes. -/
def ordinaryMemory (size : Nat) : List UInt8 :=
  if size = 64 then [0x4D, 0x5A] ++ List.replicate 58 0 ++ [0x80, 0, 0, 0]
  else if size = 264 then
    [0x50, 0x45, 0, 0] ++ List.replicate 20 0 ++ [0x0B, 0x02] ++ List.replicate 14 0 ++
      [0, 0x10, 0, 0] ++ List.replicate 36 0 ++ [0, 0, 0x10, 0] ++ List.replicate 180 0
  else [0x48]

def ordinaryWindows : Surroundings Answer
  | .openProcessToken, _ => true
  | .getTokenElevation, _ => some false
  | .openExisting path, _ => some ⟨false, some path⟩
  | .getWindowsDirectory, _ => some (wide "C:\\Windows")
  | .getModuleFileName, _ => some (wide "C:\\FFB\\launcher.exe")
  | .readPeArchitecture _, _ => .ok .x64
  | .createProcess _ _ _, _ => some ⟨7, 8⟩
  | .getTickCount64, history => history.length
  | .waitForDebugEvent _, history => ordinaryEvents[(history.filterMap reported).length]?
  | .continueDebugEvent _ _ _, _ => true
  | .readProcessMemory _ size, _ => some (ordinaryMemory size)
  | .writeProcessMemory _ bytes, _ => some bytes.length
  | .virtualProtectEx _ _, _ => some 0x20
  | .flushInstructionCache _, _ => true
  | .virtualAllocEx _, _ => some 0x10000
  | .getThreadContext, _ => some ⟨0x140001001, []⟩
  | .setThreadContext _, _ => true
  | .suspendThread, _ => some 0
  | .resumeThread, _ => some 1
  | .createRemoteThread _ _, _ => some 9
  | .waitForThread _, _ => .timeout
  | .getExitCodeThread _, _ => none
  | .getLoadLibrary, _ => some 0x70500
  | .getOwnerModule _, _ => some 0x70000
  | .getOwnerPath _, _ => some (wide "C:\\Windows\\System32\\KERNEL32.DLL")
  | .loadHook _, _ => some 0x50000
  | .getHookExport _ _, _ => some 0x51000
  | .debugSetProcessKillOnExit _, _ => true
  | .terminateProcess, _ => true
  | .waitForProcess _, _ => .object

theorem ordinaryWindows_timePasses : TimePasses ordinaryWindows :=
  fun deadline => ⟨deadline, fun _ h => h⟩

def ordinaryRequest : LaunchRequest := ⟨wide "C:\\Game\\game.exe", []⟩

/-- A launch comes to its end, however many debug events the game reports meanwhile. -/
theorem launch_ends (build : Build) (request : LaunchRequest) (around : Surroundings Answer)
    (htime : TimePasses around) :
    ∃ n, (launchOfflineGame build n request around []).1 ≠ .error .unfinished ∧ ∀ fuel, n ≤ fuel →
      launchOfflineGame build fuel request around [] = launchOfflineGame build n request around [] := by
  have hsettles : Settles (fun fuel => launchOfflineGame build fuel request) around [] := by
    apply Settles.brief_bind brief_requireUnelevated
    intro _ left
    apply Settles.brief_bind (brief_resolveGame request)
    intro gamePath left
    apply Settles.brief_bind brief_resolveHook
    intro hookPath left
    apply Settles.brief_bind (brief_requireArchitecture gamePath hookPath)
    intro _ left
    apply Settles.ask_bind
    intro answer left
    cases answer with
    | none => exact Settles.fail
    | some process =>
      apply Settles.bind (settles_initializeGame htime hookPath process).onFailure
      intro _ left
      exact Settles.pure
  exact hsettles

theorem launch_ends_ordinary : ∃ n,
    (launchOfflineGame Build.x64 n ordinaryRequest ordinaryWindows []).1 ≠ .error .unfinished ∧
      ∀ fuel, n ≤ fuel → launchOfflineGame Build.x64 fuel ordinaryRequest ordinaryWindows [] =
        launchOfflineGame Build.x64 n ordinaryRequest ordinaryWindows [] :=
  launch_ends Build.x64 ordinaryRequest ordinaryWindows ordinaryWindows_timePasses

/-- The game of the launch that succeeds is the one that was created. -/
example : (launchOfflineGame Build.x64 8 ordinaryRequest ordinaryWindows []).1 = .ok 7 := by
  decide +kernel

end Ending
end FfbInterceptor.Launcher.Injector
