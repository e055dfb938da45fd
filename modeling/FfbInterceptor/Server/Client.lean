import FfbInterceptor.Protocol.Accumulator

/-! One client session of the pipe server. -/
namespace FfbInterceptor.Server
open FfbInterceptor.Library FfbInterceptor.Protocol

def ReadBufferSize : Nat := 8192

structure SourceKey where
  processId : UInt32
  sessionId : String
  deriving DecidableEq, Repr

structure SourceIdentity where
  key : SourceKey
  processName : String
  buildVersion : String
  bitness : Nat
  deriving DecidableEq, Repr

def utf16Size (c : Char) : Nat := if c.toNat ≤ 0xFFFF then 1 else 2

def utf16Length (value : String) : Nat := (value.toList.map utf16Size).sum

/-- `char.IsControl`: the two control blocks, none of which needs a surrogate. -/
def isControl (c : Char) : Bool := c.toNat ≤ 0x1F || (0x7F ≤ c.toNat && c.toNat ≤ 0x9F)

def isWhiteSpace (c : Char) : Bool :=
  (0x09 ≤ c.toNat && c.toNat ≤ 0x0D) || (0x2000 ≤ c.toNat && c.toNat ≤ 0x200A) ||
    [0x20, 0x85, 0xA0, 0x1680, 0x2028, 0x2029, 0x202F, 0x205F, 0x3000].contains c.toNat

def SourceIdentity.create (key : SourceKey) (processName buildVersion : String) (bitness : Nat) :
    SourceIdentity where
  key := key
  processName := if processName.toList.all isWhiteSpace then "unknown.exe" else processName
  buildVersion := buildVersion
  bitness := bitness

def isSafeSessionCharacter (c : Char) : Bool :=
  ('a' ≤ c && c ≤ 'z') || ('A' ≤ c && c ≤ 'Z') || ('0' ≤ c && c ≤ '9') || c == '-' || c == '_' ||
    c == '.'

def isSafeSessionId (value : String) : Bool :=
  if value.isEmpty || 31 < utf16Length value then false else value.toList.all isSafeSessionCharacter

/-- The loop of `SanitizeLabel` with `length` code units built so far. -/
def sanitizeCharacters (maximumLength : Nat) : Nat → List Char → List Char
  | _, [] => []
  | length, c :: cs =>
    if maximumLength ≤ length then []
    else if !isControl c && c != '\\' && c != '/' then
      c :: sanitizeCharacters maximumLength (length + utf16Size c) cs
    else sanitizeCharacters maximumLength length cs

def sanitizeLabel (value : String) (maximumLength : Nat) : String :=
  String.ofList (sanitizeCharacters maximumLength 0 value.toList)

/-- The calls a session makes, without clock values and the connection's guid. -/
inductive Callback where
  | connected (source : SourceIdentity)
  | disconnected (key : SourceKey)
  | frameReceived (key : SourceKey) (frame : ProtocolFrame)
  | protocolError
  deriving DecidableEq, Repr

structure Read where
  bytes : List UInt8
  nonempty : bytes ≠ []
  size_le : bytes.length ≤ ReadBufferSize

/-- How the reading ends: the client closed, the loop saw `_running` cleared, or a read threw an
exception that is `swallowed` by its own catch clause or not. -/
inductive Ending where
  | closed
  | stopped
  | failed (swallowed : Bool)
  deriving DecidableEq, Repr

/-- What a session meets from outside: the kernel's answer for the client's process id, the reads,
their end, whether the server is still running when an exception is caught, and which call back
throws, given the calls up to and including it. -/
structure Client where
  clientProcessId : Option UInt32
  reads : List Read
  ending : Ending := .closed
  running : Bool := true
  throws : List Callback → Bool := fun _ => false

inductive Failure where
  | protocolException (e : ProtocolException)
  | callbackException
  | readException (swallowed : Bool)
  deriving DecidableEq, Repr

/-- The locals of `RunClient`, the calls made so far and the exception in flight. -/
structure Session where
  sourceKey : Option SourceKey := none
  lastSequence : Option UInt64 := none
  callbacks : List Callback := []
  failure : Option Failure := none
  deriving DecidableEq, Repr

def Session.throw (s : Session) (failure : Failure) : Session :=
  match s.failure with
  | none => { s with failure := some failure }
  | some _ => s

def helloIdentity (clientProcessId : UInt32) (frame : ProtocolFrame) : SourceIdentity :=
  SourceIdentity.create ⟨clientProcessId, frame.sessionId⟩ (sanitizeLabel frame.text 63)
    (sanitizeLabel frame.buildVersion 31)
    (if frame.flags = 32 ∨ frame.flags = 64 then frame.flags.toNat else 0)

def Session.check (clientProcessId : UInt32) (s : Session) (frame : ProtocolFrame) :
    Except ProtocolException (SourceKey × Callback) :=
  if s.lastSequence.any (frame.sequence ≤ ·) then .error .frameSequenceIsNotStrictlyIncreasing
  else match s.sourceKey with
    | none =>
      if frame.messageType ≠ .hello then .error .firstFrameIsNotHello
      else if frame.processId ≠ clientProcessId then .error .helloProcessIdDoesNotMatchPipeClient
      else if !isSafeSessionId frame.sessionId then .error .invalidSessionId
      else .ok (⟨clientProcessId, frame.sessionId⟩, .connected (helloIdentity clientProcessId frame))
    | some key =>
      if frame.messageType = .hello then .error .duplicateHelloFrame
      else if frame.processId ≠ clientProcessId then .error .frameProcessIdDoesNotMatchPipeClient
      else .ok (key, .frameReceived key frame)

variable (throws : List Callback → Bool) (clientProcessId : UInt32)

def Session.frame (s : Session) (frame : ProtocolFrame) : Session :=
  match s.failure with
  | some _ => s
  | none =>
    match s.check clientProcessId frame with
    | .error e => s.throw (.protocolException e)
    | .ok (key, callback) =>
      let called := { s with
        sourceKey := some key
        lastSequence := some frame.sequence
        callbacks := s.callbacks ++ [callback] }
      if throws called.callbacks then called.throw .callbackException else called

def Session.frames (s : Session) (frames : List ProtocolFrame) : Session :=
  frames.foldl (Session.frame throws clientProcessId) s

/-- One round of the read loop on the session and the accumulator's buffer. -/
def Session.read (state : Session × List UInt8) (read : Read) : Session × List UInt8 :=
  match state.1.failure with
  | some _ => state
  | none =>
    match feed state.2 read.bytes with
    | .error e => (state.1.throw (.protocolException e), state.2)
    | .ok (frames, buffer) => (state.1.frames throws clientProcessId frames, buffer)

def Session.finishReads (ending : Ending) (state : Session × List UInt8) : Session :=
  match state.1.failure with
  | some _ => state.1
  | none =>
    match ending with
    | .failed swallowed => state.1.throw (.readException swallowed)
    | .closed | .stopped =>
      match complete state.2 with
      | .error e => state.1.throw (.protocolException e)
      | .ok () => state.1

def Session.catchFailure (running : Bool) (s : Session) : Session :=
  match s.failure with
  | none | some (.readException true) => s
  | some _ => if running then { s with callbacks := s.callbacks ++ [.protocolError] } else s

def Session.dispose (running : Bool) (s : Session) : Session :=
  match s.sourceKey with
  | none => s
  | some key =>
    let called := { s with callbacks := s.callbacks ++ [.disconnected key] }
    if throws called.callbacks && running then
      { called with callbacks := called.callbacks ++ [.protocolError] }
    else called

/-- The session before its catch clauses. A failed query reports no process id; 0 is refused too. -/
def Client.body (client : Client) : Session :=
  match client.clientProcessId with
  | none | some 0 => Session.throw {} (.protocolException .cannotVerifyPipeClientProcess)
  | some processId =>
    Session.finishReads client.ending
      (client.reads.foldl (Session.read client.throws processId) ({}, []))

def runClient (client : Client) : List Callback :=
  ((client.body.catchFailure client.running).dispose client.throws client.running).callbacks

end FfbInterceptor.Server
