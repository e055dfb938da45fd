import FfbInterceptor.Library.Reader
import FfbInterceptor.Protocol.Event

/-! The consumer's frame record and its decoder. -/
namespace FfbInterceptor.Protocol
open FfbInterceptor.Library

def Version : UInt16 := 1
def HeaderSize : Nat := 32
def MaximumFrameSize : Nat := 64 * 1024
def MaximumAxes : Nat := 8
def EffectCreatedParametersAbsentFlag : UInt32 := 0x08000000
def EffectCreatedParametersPresentFlag : UInt32 := 0x10000000
def EffectCreatedParametersPresenceMask : UInt32 :=
  EffectCreatedParametersAbsentFlag ||| EffectCreatedParametersPresentFlag

inductive ProtocolException where
  | truncatedHeader
  | badMagic
  | unsupportedProtocolVersion
  | unknownMessageType
  | invalidFrameSize
  | invalidEffectParameterPresenceFlags
  | truncatedPayload
  | axisCountExceedsLimit
  | conditionCountExceedsLimit
  | invalidCustomRedactionFlag
  | invalidUtf8
  | invalidTextLength
  | invalidTrailingPayload
  | streamBufferExceededLimit
  | truncatedFrameAtDisconnect
  | cannotVerifyPipeClientProcess
  | frameSequenceIsNotStrictlyIncreasing
  | firstFrameIsNotHello
  | helloProcessIdDoesNotMatchPipeClient
  | invalidSessionId
  | duplicateHelloFrame
  | frameProcessIdDoesNotMatchPipeClient
  deriving DecidableEq, Repr

def ProtocolException.message : ProtocolException → String
  | truncatedHeader => "truncated header"
  | badMagic => "bad magic"
  | unsupportedProtocolVersion => "unsupported protocol version"
  | unknownMessageType => "unknown message type"
  | invalidFrameSize => "invalid frame size"
  | invalidEffectParameterPresenceFlags => "invalid effect parameter presence flags"
  | truncatedPayload => "truncated payload"
  | axisCountExceedsLimit => "axis count exceeds limit"
  | conditionCountExceedsLimit => "condition count exceeds limit"
  | invalidCustomRedactionFlag => "invalid custom redaction flag"
  | invalidUtf8 => "invalid UTF-8"
  | invalidTextLength => "invalid text length"
  | invalidTrailingPayload => "invalid trailing payload"
  | streamBufferExceededLimit => "stream buffer exceeded limit"
  | truncatedFrameAtDisconnect => "truncated frame at disconnect"
  | cannotVerifyPipeClientProcess => "cannot verify pipe client process"
  | frameSequenceIsNotStrictlyIncreasing => "frame sequence is not strictly increasing"
  | firstFrameIsNotHello => "first frame is not Hello"
  | helloProcessIdDoesNotMatchPipeClient => "Hello process id does not match pipe client"
  | invalidSessionId => "invalid session id"
  | duplicateHelloFrame => "duplicate Hello frame"
  | frameProcessIdDoesNotMatchPipeClient => "frame process id does not match pipe client"

structure ProtocolFrame where
  messageType : MessageType
  flags : UInt32
  effectParameterPresence : EffectParameterPresence
  sequence : UInt64 := 0
  qpcTicks : UInt64 := 0
  processId : UInt32 := 0
  qpcFrequency : UInt32 := 0
  deviceId : UInt32 := 0
  effectId : UInt32 := 0
  effectGuid : List UInt8 := []
  hresult : Int32 := 0
  diFlags : UInt32 := 0
  duration : UInt32 := 0
  samplePeriod : UInt32 := 0
  gain : UInt32 := 0
  startDelay : UInt32 := 0
  triggerButton : UInt32 := 0xFFFFFFFF
  triggerRepeat : UInt32 := 0
  iterations : UInt32 := 0
  envelopeAttackLevel : UInt32 := 0
  envelopeAttackTime : UInt32 := 0
  envelopeFadeLevel : UInt32 := 0
  envelopeFadeTime : UInt32 := 0
  propertyId : UInt32 := 0
  dropped : UInt32 := 0
  magnitude : Int32 := 0
  rampStart : Int32 := 0
  rampEnd : Int32 := 0
  periodicMagnitude : Int32 := 0
  periodicOffset : Int32 := 0
  periodicPhase : Int32 := 0
  periodicPeriod : Int32 := 0
  axes : List Int32 := []
  directions : List Int32 := []
  conditions : List ConditionSample := []
  typeSpecificSize : UInt32 := 0
  customRedacted : Bool := false
  buildVersion : String := ""
  sessionId : String := ""
  text : String := ""
  effectKind : EffectKind := .unknown
  /-- `none` is the enum's undefined value 0. -/
  effectCommand : Option EffectCommand := none
  deriving DecidableEq, Repr

def MessageType.ofValue? : UInt16 → Option MessageType
  | 1 => some .hello
  | 2 => some .deviceCreated
  | 3 => some .devicePropertyChanged
  | 4 => some .effectCreated
  | 5 => some .effectParametersChanged
  | 6 => some .effectCommand
  | 7 => some .deviceCommand
  | 8 => some .dropNotice
  | _ => none

def EffectCommand.ofValue? : UInt16 → Option EffectCommand
  | 1 => some .download
  | 2 => some .start
  | 3 => some .stop
  | 4 => some .unload
  | 5 => some .release
  | _ => none

/-- The source's little-endian reader over the bytes behind its offset. -/
abbrev LittleEndianReader (α : Type) := Reader UInt8 ProtocolException α

def readBytes (count : Nat) : LittleEndianReader (List UInt8) := take .truncatedPayload count

def readUInt16 : LittleEndianReader UInt16
  | b0 :: b1 :: rest => .ok (word16 b0 b1, rest)
  | _ => .error .truncatedPayload

def readUInt32 : LittleEndianReader UInt32
  | b0 :: b1 :: b2 :: b3 :: rest => .ok (word32 b0 b1 b2 b3, rest)
  | _ => .error .truncatedPayload

def readInt32 : LittleEndianReader Int32 := UInt32.toInt32 <$> readUInt32

def readUInt64 : LittleEndianReader UInt64 := do
  let low ← readUInt32
  let high ← readUInt32
  return word64 low high

def readGuid : LittleEndianReader (List UInt8) := readBytes 16

def readInt32Array (count : Nat) : LittleEndianReader (List Int32) := many readInt32 count

def remaining : LittleEndianReader Nat := List.length <$> get

def decodeUtf8 (value : List UInt8) : LittleEndianReader String :=
  match String.fromUTF8? value.toByteArray with
  | some text => return text
  | none => throw .invalidUtf8

def decodeFixedString (value : List UInt8) : LittleEndianReader String := decodeUtf8 (cString value)

def readCondition : LittleEndianReader ConditionSample := do
  let offset ← readInt32
  let positiveCoefficient ← readInt32
  let negativeCoefficient ← readInt32
  let positiveSaturation ← readUInt32
  let negativeSaturation ← readUInt32
  let deadBand ← readInt32
  return { offset, positiveCoefficient, negativeCoefficient, positiveSaturation,
           negativeSaturation, deadBand }

/-- The presence bits of an `EffectCreated` header. -/
def decodePresence (messageType : MessageType) (flags : UInt32) :
    LittleEndianReader EffectParameterPresence := do
  if messageType = .effectCreated then
    let presenceFlags := flags &&& EffectCreatedParametersPresenceMask
    if presenceFlags = EffectCreatedParametersAbsentFlag then return .absent
    else if presenceFlags = EffectCreatedParametersPresentFlag then return .present
    else if presenceFlags ≠ 0 then throw .invalidEffectParameterPresenceFlags
    else return .unknown
  else return .unknown

def readHeader (length : Nat) : LittleEndianReader ProtocolFrame := do
  let version ← readUInt16
  if version ≠ Version then throw .unsupportedProtocolVersion
  let messageValue ← readUInt16
  let some messageType := MessageType.ofValue? messageValue | throw .unknownMessageType
  let frameSize ← readUInt32
  if frameSize.toNat < HeaderSize ∨ MaximumFrameSize < frameSize.toNat ∨ frameSize.toNat ≠ length then
    throw .invalidFrameSize
  let flags ← readUInt32
  let effectParameterPresence ← decodePresence messageType flags
  let sequence ← readUInt64
  let qpcTicks ← readUInt64
  return { messageType, flags, effectParameterPresence, sequence, qpcTicks }

def readIdentity (frame : ProtocolFrame) : LittleEndianReader ProtocolFrame := do
  let processId ← readUInt32
  let qpcFrequency ← readUInt32
  let deviceId ← readUInt32
  let effectId ← readUInt32
  let effectGuid ← readGuid
  let hresult ← readInt32
  let diFlags ← readUInt32
  return { frame with processId, qpcFrequency, deviceId, effectId, effectGuid, hresult, diFlags }

def readTiming (frame : ProtocolFrame) : LittleEndianReader ProtocolFrame := do
  let duration ← readUInt32
  let samplePeriod ← readUInt32
  let gain ← readUInt32
  let startDelay ← readUInt32
  let triggerButton ← readUInt32
  let triggerRepeat ← readUInt32
  let iterations ← readUInt32
  return { frame with duration, samplePeriod, gain, startDelay, triggerButton, triggerRepeat,
                      iterations }

def readEnvelope (frame : ProtocolFrame) : LittleEndianReader ProtocolFrame := do
  let envelopeAttackLevel ← readUInt32
  let envelopeAttackTime ← readUInt32
  let envelopeFadeLevel ← readUInt32
  let envelopeFadeTime ← readUInt32
  let propertyId ← readUInt32
  let dropped ← readUInt32
  return { frame with envelopeAttackLevel, envelopeAttackTime, envelopeFadeLevel, envelopeFadeTime,
                      propertyId, dropped }

def readForces (frame : ProtocolFrame) : LittleEndianReader ProtocolFrame := do
  let magnitude ← readInt32
  let rampStart ← readInt32
  let rampEnd ← readInt32
  let periodicMagnitude ← readInt32
  let periodicOffset ← readInt32
  let periodicPhase ← readInt32
  let periodicPeriod ← readInt32
  return { frame with magnitude, rampStart, rampEnd, periodicMagnitude, periodicOffset,
                      periodicPhase, periodicPeriod }

def readAxes (frame : ProtocolFrame) : LittleEndianReader ProtocolFrame := do
  let axisCount ← readUInt32
  if MaximumAxes < axisCount.toNat then throw .axisCountExceedsLimit
  let allAxes ← readInt32Array MaximumAxes
  let allDirections ← readInt32Array MaximumAxes
  return { frame with axes := allAxes.take axisCount.toNat
                      directions := allDirections.take axisCount.toNat }

def readConditions (frame : ProtocolFrame) : LittleEndianReader ProtocolFrame := do
  let conditionCount ← readUInt32
  if MaximumAxes < conditionCount.toNat then throw .conditionCountExceedsLimit
  let conditions ← many readCondition MaximumAxes
  let typeSpecificSize ← readUInt32
  let customRedacted ← readUInt32
  if 1 < customRedacted then throw .invalidCustomRedactionFlag
  return { frame with conditions := conditions.take conditionCount.toNat, typeSpecificSize
                      customRedacted := customRedacted == 1 }

def readTexts (frame : ProtocolFrame) : LittleEndianReader ProtocolFrame := do
  let buildVersion ← decodeFixedString (← readBytes 32)
  let sessionId ← decodeFixedString (← readBytes 32)
  let textLength ← readUInt16
  if 63 < textLength then throw .invalidTextLength
  let text ← decodeUtf8 (← readBytes textLength.toNat)
  return { frame with buildVersion, sessionId, text }

def readTail (frame : ProtocolFrame) : LittleEndianReader ProtocolFrame := do
  let left ← remaining
  if left = 4 then
    let kindValue ← readUInt16
    let commandValue ← readUInt16
    return { frame with effectKind := EffectKind.ofValue kindValue
                        effectCommand := EffectCommand.ofValue? commandValue }
  else if left ≠ 0 then throw .invalidTrailingPayload
  else return frame

/-- Everything behind the magic, in the order of the source's reads. -/
def readFrame (length : Nat) : LittleEndianReader ProtocolFrame := do
  let frame ← readHeader length
  let frame ← readIdentity frame
  let frame ← readTiming frame
  let frame ← readEnvelope frame
  let frame ← readForces frame
  let frame ← readAxes frame
  let frame ← readConditions frame
  let frame ← readTexts frame
  readTail frame

def decode (data : List UInt8) : Except ProtocolException ProtocolFrame :=
  if data.length < HeaderSize then .error .truncatedHeader
  else if data.take 4 ≠ magic then .error .badMagic
  else (readFrame data.length).run' (data.drop 4)

end FfbInterceptor.Protocol
