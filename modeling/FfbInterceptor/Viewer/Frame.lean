import FfbInterceptor.Library.Utf8
import FfbInterceptor.Viewer.Struct

/-! The viewer's frame record and its decoder. -/
namespace FfbInterceptor.Viewer
open FfbInterceptor.Library

def magic : List UInt8 := [0x46, 0x46, 0x42, 0x31]
def version : UInt16 := 1
def headerSize : Nat := 32
def maxFrameSize : Nat := 64 * 1024
def maxAxes : Nat := 8

def base : List Code :=
  [.I, .I, .I, .I, .s 16, .i, .I, .I, .I, .I, .I, .I, .I, .I, .I, .I, .I, .I, .I, .I, .i, .i, .i, .i,
    .i, .i, .i, .I]

def condition : List Code := [.i, .i, .i, .I, .I, .i]

inductive ProtocolError where
  | truncatedHeader
  | badMagic
  | unsupportedProtocolVersion (version : UInt16)
  | invalidFrameSize
  | fragmentedOrTrailingFrame
  | truncatedPayload
  | axisCountExceedsLimit
  | conditionCountExceedsLimit
  | invalidTextLength
  | invalidTrailingPayload
  deriving DecidableEq, Repr

def ProtocolError.message : ProtocolError → String
  | truncatedHeader => "truncated header"
  | badMagic => "bad magic"
  | unsupportedProtocolVersion version => "unsupported protocol version " ++ toString version
  | invalidFrameSize => "invalid frame size"
  | fragmentedOrTrailingFrame => "fragmented or trailing frame"
  | truncatedPayload => "truncated payload"
  | axisCountExceedsLimit => "axis count exceeds limit"
  | conditionCountExceedsLimit => "condition count exceeds limit"
  | invalidTextLength => "invalid text length"
  | invalidTrailingPayload => "invalid trailing payload"

/-- What decoding may raise: `struct` has an error of its own for a buffer that is too short. -/
inductive Raised where
  | protocolError (error : ProtocolError)
  | structError
  deriving DecidableEq, Repr

structure Condition where
  offset : Int32
  positiveCoefficient : Int32
  negativeCoefficient : Int32
  positiveSaturation : UInt32
  negativeSaturation : UInt32
  deadBand : Int32
  deriving DecidableEq, Repr

structure Frame where
  messageType : UInt16
  flags : UInt32
  sequence : UInt64
  qpcTicks : UInt64
  processId : UInt32
  qpcFrequency : UInt32
  deviceId : UInt32
  effectId : UInt32
  effectGuid : List UInt8
  hresult : Int32
  diFlags : UInt32
  duration : UInt32
  samplePeriod : UInt32
  gain : UInt32
  startDelay : UInt32
  triggerButton : UInt32
  triggerRepeat : UInt32
  iterations : UInt32
  envelopeAttackLevel : UInt32
  envelopeAttackTime : UInt32
  envelopeFadeLevel : UInt32
  envelopeFadeTime : UInt32
  propertyId : UInt32
  dropped : UInt32
  magnitude : Int32
  rampStart : Int32
  rampEnd : Int32
  periodicMagnitude : Int32
  periodicOffset : Int32
  periodicPhase : Int32
  periodicPeriod : Int32
  axes : List Int32
  directions : List Int32
  conditions : List Condition
  typeSpecificSize : UInt32
  customRedacted : Bool
  buildVersion : String
  sessionId : String
  text : String
  effectKind : UInt16
  command : UInt16
  deriving DecidableEq, Repr

def unpackFrom (format : List Code) (data : List UInt8) (offset : Nat) :
    Except Raised (Values format) :=
  if data.length < offset + calcsize format then .error .structError
  else .ok (unpack data offset format)

def u32 (data : List UInt8) (offset : Nat) : Except Raised UInt32 := do
  let (value, ()) ← unpackFrom [.I] data offset
  return value

/-- A round of the loop over the conditions: each is unpacked, those within the count are kept. -/
def unpackCondition (payload : List UInt8) (conditionCount : UInt32)
    (state : List Condition × Nat) (index : Nat) : Except Raised (List Condition × Nat) := do
  let (a, b, c, d, e, f, ()) ← unpackFrom condition payload state.2
  let conditions :=
    if index < conditionCount.toNat then state.1 ++ [⟨a, b, c, d, e, f⟩] else state.1
  return (conditions, state.2 + calcsize condition)

def unpackConditions (payload : List UInt8) (conditionCount : UInt32) (offset : Nat) :
    Except Raised (List Condition × Nat) :=
  (List.range maxAxes).foldlM (unpackCondition payload conditionCount) ([], offset)

/-- `split(b"\0", 1)[0].decode("utf-8", errors="replace")` of 32 bytes. -/
def fixedText (payload : List UInt8) (offset : Nat) : String :=
  String.ofList (decodeReplace ((sliceAt payload offset 32).takeWhile (· ≠ 0)))

/-- The effect kind and the command, zero when the tail is absent. -/
def unpackTail (payload : List UInt8) (offset trailing : Nat) : Except Raised (UInt16 × UInt16) :=
  if trailing = 4 then do
    let (effectKind, command, ()) ← unpackFrom [.H, .H] payload offset
    return (effectKind, command)
  else return (0, 0)

def decodeFrame (raw : List UInt8) : Except Raised Frame := do
  if raw.length < headerSize then throw (.protocolError .truncatedHeader)
  let (frameMagic, frameVersion, messageType, frameSize, flags, sequence, qpcTicks, ()) ←
    unpackFrom [.s 4, .H, .H, .I, .I, .Q, .Q] raw 0
  if frameMagic ≠ magic then throw (.protocolError .badMagic)
  if frameVersion ≠ version then throw (.protocolError (.unsupportedProtocolVersion frameVersion))
  if frameSize.toNat < headerSize ∨ maxFrameSize < frameSize.toNat then
    throw (.protocolError .invalidFrameSize)
  if frameSize.toNat ≠ raw.length then throw (.protocolError .fragmentedOrTrailingFrame)
  let payload := raw.drop headerSize
  let minimum := calcsize base + maxAxes * 4 * 2 + 4 + maxAxes * calcsize condition + 74
  if payload.length < minimum then throw (.protocolError .truncatedPayload)
  let (processId, qpcFrequency, deviceId, effectId, guid, hresult, diFlags, duration,
    samplePeriod, gain, startDelay, triggerButton, triggerRepeat, iterations, attackLevel,
    attackTime, fadeLevel, fadeTime, propertyId, dropped, magnitude, rampStart, rampEnd,
    periodicMagnitude, periodicOffset, periodicPhase, periodicPeriod, axisCount, ()) ←
    unpackFrom base payload 0
  if maxAxes < axisCount.toNat then throw (.protocolError .axisCountExceedsLimit)
  let offset := calcsize base
  let axes ← unpackFrom (List.replicate 8 .i) payload offset
  let offset := offset + 32
  let directions ← unpackFrom (List.replicate 8 .i) payload offset
  let offset := offset + 32
  let conditionCount ← u32 payload offset
  let offset := offset + 4
  if maxAxes < conditionCount.toNat then throw (.protocolError .conditionCountExceedsLimit)
  let (conditions, offset) ← unpackConditions payload conditionCount offset
  let typeSpecificSize ← u32 payload offset
  let customRedacted := (← u32 payload (offset + 4)) != 0
  let buildVersion := fixedText payload (offset + 8)
  let sessionId := fixedText payload (offset + 40)
  let (textLength, ()) ← unpackFrom [.H] payload (offset + 72)
  let offset := offset + 74
  if 63 < textLength ∨ payload.length < offset + textLength.toNat then
    throw (.protocolError .invalidTextLength)
  let text := String.ofList (decodeReplace (sliceAt payload offset textLength.toNat))
  let trailing := payload.length - (offset + textLength.toNat)
  if trailing ≠ 0 ∧ trailing ≠ 4 then throw (.protocolError .invalidTrailingPayload)
  let (effectKind, command) ← unpackTail payload (offset + textLength.toNat) trailing
  return {
    messageType, flags, sequence, qpcTicks, processId, qpcFrequency, deviceId, effectId
    effectGuid := guid
    hresult, diFlags, duration, samplePeriod, gain, startDelay, triggerButton, triggerRepeat
    iterations
    envelopeAttackLevel := attackLevel
    envelopeAttackTime := attackTime
    envelopeFadeLevel := fadeLevel
    envelopeFadeTime := fadeTime
    propertyId, dropped, magnitude, rampStart, rampEnd, periodicMagnitude, periodicOffset
    periodicPhase, periodicPeriod
    axes := (axes.ints 8).take axisCount.toNat
    directions := (directions.ints 8).take axisCount.toNat
    conditions, typeSpecificSize, customRedacted, buildVersion, sessionId, text, effectKind
    command }

end FfbInterceptor.Viewer
