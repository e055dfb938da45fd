import FfbInterceptor.Library.Utf8
import FfbInterceptor.Protocol.RoundTrip
import FfbInterceptor.Telemetry.Capture
import FfbInterceptor.Telemetry.Sink

/-! The events the COM wrappers and the telemetry threads build. -/
namespace FfbInterceptor.Telemetry
open Library Protocol

/-- The loop that backs off a cut in front of a continuation byte. -/
def backOff (text : List UInt8) : Nat → Nat
  | 0 => 0
  | length + 1 =>
    if isContinuation (text.getD (length + 1) 0) then backOff text length else length + 1

def truncatedLength (capacity : Nat) (text : List UInt8) : Nat :=
  let length := min text.length (capacity - 1)
  if length < text.length then backOff text length else length

/-- `copy_utf8_truncated` into a buffer: the copied bytes, a NUL, and the rest as it was. -/
def copyUtf8Truncated {capacity : Nat} (out : Vector UInt8 capacity) (text : List UInt8) :
    Vector UInt8 capacity :=
  let length := truncatedLength capacity text
  Vector.ofFn fun i =>
    if i.val < length then text.getD i 0 else if i.val = length then 0 else out[i]

/-- `snprintf("%s")` of an ASCII text into a zeroed buffer. -/
def printed (capacity : Nat) (text : List Char) : Vector UInt8 capacity :=
  filled capacity ((utf8Bytes text).take (capacity - 1))

/-- What a producer process takes from its surroundings and keeps: its process id, which Windows
never makes 0, the tick count of the session id, the rest of its Hello, which effect kind a GUID
stands for, and the ticks read for the frame of each sequence number. -/
structure Producer where
  processId : UInt32
  processId_ne : processId ≠ 0
  sessionTicks : UInt64
  qpcFrequency : UInt32
  win64 : Bool
  basename : List Char
  effectKindFromGuid : Vector UInt8 16 → EffectKind
  clock : Nat → UInt64

def FFB_BUILD_VERSION : List Char := "1.0.0".toList

namespace Producer

variable (p : Producer)

def sessionText : List Char :=
  Nat.toDigits 10 p.processId.toNat ++ '-' :: Nat.toDigits 10 p.sessionTicks.toNat

def helloEvent : Event where
  type := .hello
  processId := p.processId
  qpcFrequency := p.qpcFrequency
  buildVersion := printed 32 FFB_BUILD_VERSION
  sessionId := printed 32 p.sessionText
  flags := if p.win64 then 64 else 32
  text := copyUtf8Truncated (Vector.replicate 64 0) (utf8Bytes p.basename)

def emitEffect (deviceId effectId : UInt32) (guid : Vector UInt8 16) (parameters : Option DIEFFECT)
    (hr : Int32) : Event :=
  fillEffectParameters p.win64 parameters
    { type := .effectCreated
      effectKind := (p.effectKindFromGuid guid).value
      processId := p.processId
      deviceId := deviceId
      effectId := effectId
      effectGuid := guid
      hresult := hr
      effectParameterPresence := if parameters.isSome then .present else .absent }

/-- `ffGain` tells the two reported properties apart; `gain` is what could be read of the header. -/
def emitProperty (deviceId : UInt32) (ffGain : Bool) (gain : UInt32) (hr : Int32) : Event :=
  { type := .devicePropertyChanged
    processId := p.processId
    deviceId := deviceId
    propertyId := if ffGain then 1 else 2
    hresult := hr
    gain := gain }

def emitDeviceCommand (deviceId command : UInt32) (hr : Int32) : Event :=
  { type := .deviceCommand
    processId := p.processId
    deviceId := deviceId
    diFlags := command
    hresult := hr }

def emitDevice (id : UInt32) (guid : Vector UInt8 16) (hr : Int32) (name : List Char) : Event :=
  { type := .deviceCreated
    processId := p.processId
    deviceId := id
    effectGuid := guid
    hresult := hr
    text := copyUtf8Truncated (Vector.replicate 64 0) (utf8Bytes name) }

structure EffectIds where
  deviceId : UInt32
  effectId : UInt32
  guid : Vector UInt8 16

def setParameters (ids : EffectIds) (effect : Option DIEFFECT) (flags : UInt32) (hr : Int32) : Event :=
  fillEffectParameters p.win64 effect
    { type := .effectParametersChanged
      effectKind := (p.effectKindFromGuid ids.guid).value
      processId := p.processId
      deviceId := ids.deviceId
      effectId := ids.effectId
      effectGuid := ids.guid
      hresult := hr
      flags := flags }

/-- `Start`, `Stop`, `Download`, `Unload` and the last `Release`: each sets the fields it has. -/
def effectCommand (ids : EffectIds) (command : EffectCommand) (hr : Int32) (flags iterations : UInt32)
    (qpcTicks : UInt64) : Event :=
  { type := .effectCommand
    effectKind := (p.effectKindFromGuid ids.guid).value
    command := command.value
    processId := p.processId
    deviceId := ids.deviceId
    effectId := ids.effectId
    effectGuid := ids.guid
    hresult := hr
    flags := flags
    iterations := iterations
    qpcTicks := qpcTicks }

def start (ids : EffectIds) (iterations flags : UInt32) (hr : Int32) : Event :=
  p.effectCommand ids .start hr flags iterations 0

def stop (ids : EffectIds) (hr : Int32) : Event := p.effectCommand ids .stop hr 0 0 0

def download (ids : EffectIds) (hr : Int32) : Event := p.effectCommand ids .download hr 0 0 0

def unload (ids : EffectIds) (hr : Int32) : Event := p.effectCommand ids .unload hr 0 0 0

def release (ids : EffectIds) (qpcTicks : UInt64) : Event :=
  p.effectCommand ids .release 0 0 0 qpcTicks

inductive Wrapped : Event → Prop where
  | emitEffect (deviceId effectId guid parameters hr) :
      Wrapped (p.emitEffect deviceId effectId guid parameters hr)
  | emitProperty (deviceId ffGain gain hr) : Wrapped (p.emitProperty deviceId ffGain gain hr)
  | emitDeviceCommand (deviceId command hr) : Wrapped (p.emitDeviceCommand deviceId command hr)
  | emitDevice (id guid hr name) : Wrapped (p.emitDevice id guid hr name)
  | setParameters (ids effect flags hr) : Wrapped (p.setParameters ids effect flags hr)
  | start (ids iterations flags hr) : Wrapped (p.start ids iterations flags hr)
  | stop (ids hr) : Wrapped (p.stop ids hr)
  | download (ids hr) : Wrapped (p.download ids hr)
  | unload (ids hr) : Wrapped (p.unload ids hr)
  | release (ids qpcTicks) : Wrapped (p.release ids qpcTicks)

def dropNotice (sequence dropped : Nat) : Event :=
  { type := .dropNotice
    processId := p.processId
    dropped := dropped.toUInt32
    qpcTicks := p.clock sequence
    sequence := sequence.toUInt64 }

/-- `emit` numbers an event and gives it a time unless it has one. -/
def stamped (e : Sequenced Event) : Event :=
  { e.event with
    sequence := e.sequence.toUInt64
    qpcTicks := if e.event.qpcTicks = 0 then p.clock e.sequence else e.event.qpcTicks }

def sentEvent : Frame Event → Event
  | .hello => p.helloEvent
  | .event e => p.stamped e
  | .dropNotice sequence dropped => p.dropNotice sequence dropped

/-- The bytes one send leaves on the pipe: `send_frame` only fails in front of the last byte. -/
def sentBytes : PipeEntry Event → List UInt8
  | .check _ => []
  | .frame f .ok => serializeEvent (p.sentEvent f)
  | .frame f (.failed n) =>
    (serializeEvent (p.sentEvent f)).take (min n ((serializeEvent (p.sentEvent f)).length - 1))

def bytes (c : List (PipeEntry Event)) : List UInt8 := c.flatMap p.sentBytes

end Producer

end FfbInterceptor.Telemetry
