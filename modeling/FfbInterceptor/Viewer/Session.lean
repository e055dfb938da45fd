import FfbInterceptor.Viewer.Draining

/-! One client session of the viewer's pipe server. -/
namespace FfbInterceptor.Viewer
open FfbInterceptor.Library

def readChunkSize : Nat := 4 * 1024

def helloType : UInt16 := 1

inductive SessionError where
  | firstFrameMustBeHello
  | helloPidDoesNotMatchPipeClient
  | duplicateHelloFrame
  | frameSequenceMustBeStrictlyIncreasing
  deriving DecidableEq, Repr

def SessionError.message : SessionError → String
  | firstFrameMustBeHello => "first frame must be Hello"
  | helloPidDoesNotMatchPipeClient => "Hello PID does not match pipe client"
  | duplicateHelloFrame => "duplicate Hello frame"
  | frameSequenceMustBeStrictlyIncreasing => "frame sequence must be strictly increasing"

inductive Entry where
  | passed (frame : Frame)
  | refused (error : SessionError)
  | raised (error : Raised)
  | callbackRaised
  deriving DecidableEq, Repr

/-- The locals of `_read_client`, its part of the error count, and what it did. -/
structure Session where
  firstFrame : Bool := true
  lastSequence : Option UInt64 := none
  buf : List UInt8 := []
  protocolFailed : Bool := false
  errors : Nat := 0
  left : Bool := false
  log : List Entry := []
  deriving DecidableEq, Repr

def Entry.frame? : Entry → Option Frame
  | .passed frame => some frame
  | _ => none

def handed (log : List Entry) : List Frame := log.filterMap Entry.frame?

/-- What one `next` of `iter_frames` gives, and the buffer behind it. -/
inductive Next where
  | exhausted
  | raised (error : Raised) (buffer : List UInt8)
  | frame (frame : Frame) (buffer : List UInt8)

def nextFrame (buffer : List UInt8) : Next :=
  if buffer.length < headerSize then .exhausted
  else if buffer.take 4 ≠ magic then .raised (.protocolError .badMagic) buffer
  else match u32 buffer 8 with
    | .error e => .raised e buffer
    | .ok frameSize =>
      if frameSize.toNat < headerSize ∨ maxFrameSize < frameSize.toNat then
        .raised (.protocolError .invalidFrameSize) buffer
      else if buffer.length < frameSize.toNat then .exhausted
      else match decodeFrame (buffer.take frameSize.toNat) with
        | .error e => .raised e (buffer.drop frameSize.toNat)
        | .ok frame => .frame frame (buffer.drop frameSize.toNat)

structure Read where
  bytes : List UInt8
  nonempty : bytes ≠ []
  size_le : bytes.length ≤ readChunkSize

/-- How the reading ends: with a status or no bytes, at the stop flag, or with an exception that the
ordinary end of a client explains or not. -/
inductive Ending where
  | closed
  | stopped
  | failed (ordinary : Bool)
  deriving DecidableEq, Repr

/-- What a session meets from outside: the kernel's answer for the client's process id, the reads,
their end, the stop flag at the very end, and whether the callback raises, given the frames up to and
including its own. -/
structure Client where
  clientPid : Option UInt32
  reads : List Read
  ending : Ending
  stop : Bool
  raises : List Frame → Bool

variable (clientPid : Option UInt32) (raises : List Frame → Bool)

def Session.check (s : Session) (frame : Frame) : Option SessionError :=
  if s.firstFrame && frame.messageType ≠ helloType then some .firstFrameMustBeHello
  else if s.firstFrame && clientPid ≠ some frame.processId then some .helloPidDoesNotMatchPipeClient
  else if !s.firstFrame && frame.messageType = helloType then some .duplicateHelloFrame
  else if s.lastSequence.any (frame.sequence ≤ ·) then some .frameSequenceMustBeStrictlyIncreasing
  else none

def Session.protocolError (s : Session) (entry : Entry) : Session :=
  { s with
    errors := s.errors + 1, protocolFailed := true, left := true, log := s.log ++ [entry] }

def Session.frame (s : Session) (frame : Frame) : Session :=
  if s.left then s
  else match s.check clientPid frame with
    | some error => s.protocolError (.refused error)
    | none =>
      let passed : Session :=
        { s with
          lastSequence := some frame.sequence
          firstFrame := false
          log := s.log ++ [.passed frame] }
      if raises (handed passed.log) then
        { passed with
          errors := passed.errors + 1, left := true, log := passed.log ++ [.callbackRaised] }
      else passed

/-- An exception of the generator; one of `struct` is nobody's. -/
def Session.raise (s : Session) (error : Raised) : Session :=
  match error with
  | .protocolError _ => s.protocolError (.raised error)
  | .structError => { s with left := true, log := s.log ++ [.raised error] }

/-- The loop over the frames of a read. The generator goes on when its frame has been handled. -/
def Session.framesFuel : Nat → Session → Session
  | 0, s => s
  | fuel + 1, s =>
    match nextFrame s.buf with
    | .exhausted => s
    | .raised error buffer => { s with buf := buffer }.raise error
    | .frame frame buffer =>
      let next := { s with buf := buffer }.frame clientPid raises frame
      if next.left then next else framesFuel fuel next

def Session.read (s : Session) (read : Read) : Session :=
  if s.left then s
  else
    let extended := { s with buf := s.buf ++ read.bytes }
    extended.framesFuel clientPid raises extended.buf.length

def Session.finishReads (s : Session) (ending : Ending) : Session :=
  if s.left then s
  else match ending with
    | .closed | .stopped | .failed true => { s with left := true }
    | .failed false => { s with left := true, errors := s.errors + 1 }

def Session.close (s : Session) (stop : Bool) : Session :=
  if s.firstFrame && !stop then { s with errors := s.errors + 1 }
  else if !s.buf.isEmpty && !s.protocolFailed && !stop then { s with errors := s.errors + 1 }
  else s

def readClient (client : Client) : Session :=
  ((client.reads.foldl (Session.read client.clientPid client.raises) {}).finishReads
    client.ending).close client.stop

end FfbInterceptor.Viewer
