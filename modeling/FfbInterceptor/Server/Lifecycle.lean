import Mathlib.Data.List.Nodup
import FfbInterceptor.Library.Runs

/-! The pipe server between `Start`, `Stop` and `Dispose`: callers from any thread, the accept workers
and the client workers. Every locked section, join, creation of a pipe and callback is one step. -/
namespace FfbInterceptor.Server.Lifecycle
open FfbInterceptor.Library

def maximumClients : Nat := 32

inductive Worker
  | acceptor (start : Nat)
  | client (number : Nat)
deriving DecidableEq

/-- Where an accept worker is in `AcceptLoop`. -/
inductive Accepting
  | checking | creating | created | waiting | connected | failed | reporting | passing | leaving
  | finished
deriving DecidableEq

/-- Where a client worker is in `RunClient`. -/
inductive Serving
  | serving | callingBack | deregistering | deregistered | finished
deriving DecidableEq

structure Client where
  start : Nat
  place : Serving
deriving DecidableEq

/-- A pipe, the descriptor it was created with (none: null), and whether that was freed before. -/
structure Pipe where
  start : Nat
  descriptor : Option Nat
  freed : Bool
deriving DecidableEq

/-- How far a call has come. A normal return says how many starts the `Stop` in it has ended. -/
inductive Progress
  | checked
  | exchanged
  | stopping (joins : List Worker) (stopped : Bool) (since : Nat)
  | signalling (since : Nat)
  | returned (since : Option Nat)
  | thrown
deriving DecidableEq

structure Call where
  thread : Option Worker
  disposing : Bool
  progress : Progress
deriving DecidableEq

def Call.over (call : Call) : Bool :=
  match call.progress with
  | .returned _ | .thrown => true
  | _ => false

/-- The server, its workers, its callers. The client workers stand for their pipes too. Which pipe
listens decides only which wait is cancelled, and a wait may end in any way. -/
structure State where
  running : Bool
  disposed : Bool
  signalDisposed : Bool
  acceptThread : Option Nat
  clients : List Nat
  clientThreads : List Nat
  securityDescriptor : Option Nat
  acceptors : List Accepting
  workers : List Client
  pipes : List Pipe
  freed : List Nat
  calls : List Call

def initial : State := ⟨false, false, false, none, [], [], none, [], [], [], [], []⟩

namespace State

def freeSecurityDescriptor (s : State) : State :=
  match s.securityDescriptor with
  | none => s
  | some descriptor =>
    { s with freed := s.freed ++ [descriptor], securityDescriptor := none }

def setAcceptor (s : State) (start : Nat) (place : Accepting) : State :=
  { s with acceptors := s.acceptors.set start place }

def setWorker (s : State) (number : Nat) (client : Client) : State :=
  { s with workers := s.workers.set number client }

def setCall (s : State) (i : Nat) (call : Call) : State := { s with calls := s.calls.set i call }

/-- The thread has ended. -/
def dead (s : State) : Worker → Bool
  | .acceptor start => s.acceptors[start]? = some .finished
  | .client number => s.workers[number]?.map Client.place = some .finished

def inCallback (s : State) : Worker → Bool
  | .acceptor start => s.acceptors[start]? = some .reporting
  | .client number => s.workers[number]?.map Client.place = some .callingBack

/-- A call from the worker's callback has not ended. -/
def busy (s : State) (worker : Worker) : Bool :=
  s.calls.any fun call => call.thread = some worker && !call.over

def mayCall (s : State) : Option Worker → Bool
  | none => true
  | some worker => s.inCallback worker && !s.busy worker

/-- Neither running nor with a worker that is not given up. -/
def idle (s : State) : Bool := !s.running && s.acceptThread.isNone && s.clientThreads.isEmpty

end State

/-- What may fail in the locked section of `Start`. -/
inductive StartOutcome
  | succeeds | noDescriptor | noThread
deriving DecidableEq

/-- The locked section of `Start`. A start that fails after its descriptor leaves a number unused. -/
def startLocked (s : State) (outcome : StartOutcome) : State × Progress :=
  if s.running then (s, .returned none)
  else if !s.idle then (s, .thrown)
  else if outcome = .noDescriptor then (s, .thrown)
  else
    let start := s.acceptors.length
    let given : State :=
      { s with securityDescriptor := some start, acceptors := s.acceptors ++ [.finished] }
    if s.signalDisposed then (given, .thrown)
    else if outcome = .noThread then (given.freeSecurityDescriptor, .thrown)
    else
      ({ given with
          running := true
          acceptThread := some start
          acceptors := s.acceptors ++ [.checking] }, .returned none)

/-- The workers a `Stop` is going to join. -/
def State.owned (s : State) : List Worker :=
  (s.acceptThread.map Worker.acceptor).toList ++ s.clientThreads.map Worker.client

/-- `Stop` has come to its end. -/
def Call.stopped (call : Call) (since : Nat) : Progress :=
  if call.disposing then .signalling since else .returned (some since)

/-- The first locked section of `Stop`. -/
def stopLocked (s : State) (call : Call) : State × Progress :=
  if s.idle then (s.freeSecurityDescriptor, call.stopped s.acceptors.length)
  else if s.signalDisposed then ({ s with running := false }, .thrown)
  else ({ s with running := false }, .stopping s.owned true s.acceptors.length)

/-- `JoinBeforeDeadline`, at the moment it returns. -/
def joinBeforeDeadline (s : State) (call : Call) (worker : Worker) : Bool :=
  if call.thread = some worker then false else s.dead worker

/-- The second locked section of `Stop`. -/
def stopEnds (s : State) (call : Call) (stopped : Bool) (since : Nat) : State × Progress :=
  if stopped then
    let cleared : State := { s with acceptThread := none, clients := [], clientThreads := [] }
    (cleared.freeSecurityDescriptor, call.stopped since)
  else (s, .thrown)

/-- What a step that may fail does. -/
inductive Outcome
  | succeeds | refuses | fails
deriving DecidableEq

/-- The locked section in which an accepted client is registered and its worker started. -/
def register (s : State) (start : Nat) (outcome : Outcome) : State :=
  if !s.running || maximumClients ≤ s.clients.length then s.setAcceptor start .passing
  else if outcome = .succeeds then
    let registered : State :=
      { s with
        clients := s.clients ++ [s.workers.length]
        clientThreads := s.clientThreads ++ [s.workers.length]
        workers := s.workers ++ [⟨start, .serving⟩] }
    registered.setAcceptor start .passing
  else s.setAcceptor start .failed

def createPipeInstance (s : State) (start : Nat) : State :=
  { s with pipes := s.pipes ++ [⟨start, s.securityDescriptor,
      s.securityDescriptor.any fun descriptor => s.freed.contains descriptor⟩] }

/-- One step of an accept worker. -/
def acceptStep (s : State) (start : Nat) (outcome : Outcome) : State :=
  match s.acceptors[start]? with
  | none | some .finished => s
  | some .checking => s.setAcceptor start (if s.running then .creating else .finished)
  | some .creating =>
    if outcome = .succeeds then (createPipeInstance s start).setAcceptor start .created
    else s.setAcceptor start .failed
  | some .created => s.setAcceptor start (if s.running then .waiting else .leaving)
  | some .waiting =>
    s.setAcceptor start <|
      match outcome with
      | .succeeds => if s.running then .connected else .passing
      | .refuses => if s.running then .failed else .passing
      | .fails => .failed
  | some .connected => register s start outcome
  | some .failed => s.setAcceptor start (if s.running then .reporting else .passing)
  | some .reporting => if s.busy (.acceptor start) then s else s.setAcceptor start .passing
  | some .passing => s.setAcceptor start .checking
  | some .leaving => s.setAcceptor start .finished

/-- One step of a client worker; what its loop and its handlers call is any number of callbacks. -/
def clientStep (s : State) (number : Nat) (callsBack : Bool) : State :=
  match s.workers[number]? with
  | none => s
  | some client =>
    match client.place with
    | .serving =>
      s.setWorker number { client with place := if callsBack then .callingBack else .deregistering }
    | .callingBack =>
      if s.busy (.client number) then s else s.setWorker number { client with place := .serving }
    | .deregistering =>
      let removed : State :=
        { s with
          clients := s.clients.filter (· ≠ number)
          clientThreads := s.clientThreads.filter (· ≠ number) }
      removed.setWorker number { client with place := .deregistered }
    | .deregistered => s.setWorker number { client with place := .finished }
    | .finished => s

inductive Action
  | start (thread : Option Worker)
  | startLocked (call : Nat) (outcome : StartOutcome)
  | stop (thread : Option Worker)
  | dispose (thread : Option Worker)
  | disposeStop (call : Nat)
  | join (call : Nat)
  | stopEnds (call : Nat)
  | disposeSignal (call : Nat)
  | accept (start : Nat) (outcome : Outcome)
  | client (number : Nat) (callsBack : Bool)
deriving DecidableEq

/-- A call begins with its first step. -/
def enter (s : State) (thread : Option Worker) (disposing : Bool)
    (first : Call → State × Progress) : State :=
  if s.mayCall thread then
    let call : Call := ⟨thread, disposing, .checked⟩
    let (next, progress) := first call
    { next with calls := next.calls ++ [{ call with progress := progress }] }
  else s

/-- A call takes its next step. -/
def proceed (s : State) (i : Nat) (next : Call → Option (State × Progress)) : State :=
  match s.calls[i]? with
  | none => s
  | some call =>
    match next call with
    | none => s
    | some (s', progress) => s'.setCall i { call with progress := progress }

def step (s : State) : Action → State
  | .start thread => enter s thread false fun _ => (s, if s.disposed then .thrown else .checked)
  | .startLocked i outcome => proceed s i fun call =>
      if call.progress = .checked then some (startLocked s outcome) else none
  | .stop thread => enter s thread false (stopLocked s)
  | .dispose thread => enter s thread true fun _ =>
      ({ s with disposed := true }, if s.disposed then .returned none else .exchanged)
  | .disposeStop i => proceed s i fun call =>
      if call.progress = .exchanged then some (stopLocked s call) else none
  | .join i => proceed s i fun call =>
      match call.progress with
      | .stopping (worker :: joins) stopped since =>
        some (s, .stopping joins (joinBeforeDeadline s call worker && stopped) since)
      | _ => none
  | .stopEnds i => proceed s i fun call =>
      match call.progress with
      | .stopping [] stopped since => some (stopEnds s call stopped since)
      | _ => none
  | .disposeSignal i => proceed s i fun call =>
      match call.progress with
      | .signalling since => some ({ s with signalDisposed := true }, .returned (some since))
      | _ => none
  | .accept start outcome => acceptStep s start outcome
  | .client number callsBack => clientStep s number callsBack

end FfbInterceptor.Server.Lifecycle
