import Mathlib.Data.UInt

/-! The event record of the proxy and its encoding as a protocol v1 frame. -/
namespace FfbInterceptor.Protocol

def kProtocolVersion : UInt16 := 1
def kMaxAxes : Nat := 8
def kHeaderSize : Nat := 32

def kEffectCreatedParametersAbsentFlag : UInt32 := 0x08000000
def kEffectCreatedParametersPresentFlag : UInt32 := 0x10000000
def kEffectCreatedParametersPresenceMask : UInt32 :=
  kEffectCreatedParametersAbsentFlag ||| kEffectCreatedParametersPresentFlag

inductive MessageType where
  | hello
  | deviceCreated
  | devicePropertyChanged
  | effectCreated
  | effectParametersChanged
  | effectCommand
  | deviceCommand
  | dropNotice
  deriving DecidableEq, Repr

def MessageType.value : MessageType → UInt16
  | .hello => 1
  | .deviceCreated => 2
  | .devicePropertyChanged => 3
  | .effectCreated => 4
  | .effectParametersChanged => 5
  | .effectCommand => 6
  | .deviceCommand => 7
  | .dropNotice => 8

inductive EffectKind where
  | unknown
  | constant
  | ramp
  | square
  | sine
  | triangle
  | sawtoothUp
  | sawtoothDown
  | spring
  | damper
  | inertia
  | friction
  | custom
  deriving DecidableEq, Repr

def EffectKind.value : EffectKind → UInt16
  | .unknown => 0
  | .constant => 1
  | .ramp => 2
  | .square => 3
  | .sine => 4
  | .triangle => 5
  | .sawtoothUp => 6
  | .sawtoothDown => 7
  | .spring => 8
  | .damper => 9
  | .inertia => 10
  | .friction => 11
  | .custom => 12

def EffectKind.ofValue : UInt16 → EffectKind
  | 1 => .constant
  | 2 => .ramp
  | 3 => .square
  | 4 => .sine
  | 5 => .triangle
  | 6 => .sawtoothUp
  | 7 => .sawtoothDown
  | 8 => .spring
  | 9 => .damper
  | 10 => .inertia
  | 11 => .friction
  | 12 => .custom
  | _ => .unknown

inductive EffectCommand where
  | download
  | start
  | stop
  | unload
  | release
  deriving DecidableEq, Repr

def EffectCommand.value : EffectCommand → UInt16
  | .download => 1
  | .start => 2
  | .stop => 3
  | .unload => 4
  | .release => 5

inductive EffectParameterPresence where
  | unknown
  | absent
  | present
  deriving DecidableEq, Repr

/-- A zero-initialised buffer after `bytes` have been copied to its start. -/
def filled (capacity : Nat) (bytes : List UInt8) : Vector UInt8 capacity :=
  Vector.ofFn fun i => bytes.getD i 0

structure ConditionSample where
  offset : Int32 := 0
  positiveCoefficient : Int32 := 0
  negativeCoefficient : Int32 := 0
  positiveSaturation : UInt32 := 0
  negativeSaturation : UInt32 := 0
  deadBand : Int32 := 0
  deriving DecidableEq, Repr

/-- The fixed-size record of the proxy queue. `effectKind` is the raw value of the C++ enum, which
need not be one of its enumerators. -/
structure Event where
  type : MessageType := .dropNotice
  effectKind : UInt16 := EffectKind.unknown.value
  effectParameterPresence : EffectParameterPresence := .unknown
  command : UInt16 := 0
  flags : UInt32 := 0
  sequence : UInt64 := 0
  qpcTicks : UInt64 := 0
  processId : UInt32 := 0
  deviceId : UInt32 := 0
  effectId : UInt32 := 0
  effectGuid : Vector UInt8 16 := Vector.replicate 16 0
  hresult : Int32 := 0
  diFlags : UInt32 := 0
  duration : UInt32 := 0
  samplePeriod : UInt32 := 0
  gain : UInt32 := 0
  startDelay : UInt32 := 0
  triggerButton : UInt32 := 0
  triggerRepeat : UInt32 := 0
  iterations : UInt32 := 0
  envelopeAttackLevel : UInt32 := 0
  envelopeAttackTime : UInt32 := 0
  envelopeFadeLevel : UInt32 := 0
  envelopeFadeTime : UInt32 := 0
  qpcFrequency : UInt32 := 0
  propertyId : UInt32 := 0
  dropped : UInt32 := 0
  magnitude : Int32 := 0
  rampStart : Int32 := 0
  rampEnd : Int32 := 0
  periodicMagnitude : Int32 := 0
  periodicOffset : Int32 := 0
  periodicPhase : Int32 := 0
  periodicPeriod : Int32 := 0
  axisCount : UInt32 := 0
  axes : Vector Int32 8 := Vector.replicate 8 0
  directions : Vector Int32 8 := Vector.replicate 8 0
  conditionCount : UInt32 := 0
  conditions : Vector ConditionSample 8 := Vector.replicate 8 {}
  typeSpecificSize : UInt32 := 0
  customRedacted : Bool := false
  buildVersion : Vector UInt8 32 := Vector.replicate 32 0
  sessionId : Vector UInt8 32 := Vector.replicate 32 0
  text : Vector UInt8 64 := Vector.replicate 64 0
  deriving DecidableEq, Repr

instance : Inhabited Event := ⟨{}⟩

def putU16 (value : UInt16) : List UInt8 := [value.toUInt8, (value >>> 8).toUInt8]

def putU32 (value : UInt32) : List UInt8 :=
  [value.toUInt8, (value >>> 8).toUInt8, (value >>> 16).toUInt8, (value >>> 24).toUInt8]

def putU64 (value : UInt64) : List UInt8 := putU32 value.toUInt32 ++ putU32 (value >>> 32).toUInt32

def putI32 (value : Int32) : List UInt8 := putU32 value.toUInt32

def putGuid (guid : Vector UInt8 16) : List UInt8 := guid.toList

def putCondition (condition : ConditionSample) : List UInt8 :=
  putI32 condition.offset ++
  putI32 condition.positiveCoefficient ++
  putI32 condition.negativeCoefficient ++
  putU32 condition.positiveSaturation ++
  putU32 condition.negativeSaturation ++
  putI32 condition.deadBand

def cString (bytes : List UInt8) : List UInt8 := bytes.takeWhile (· ≠ 0)

/-- `strnlen_s(text, 63)` never looks past the 63rd byte. -/
def putString (text : Vector UInt8 64) : List UInt8 :=
  let length := (cString (text.toList.take 63)).length
  putU16 length.toUInt16 ++ text.toList.take length

def putFixedString {capacity : Nat} (text : Vector UInt8 capacity) : List UInt8 := text.toList

/-! The payload is written field by field in one order; the groups below are consecutive. -/

def Event.identityFields (event : Event) : List UInt8 :=
  putU32 event.processId ++
  putU32 event.qpcFrequency ++
  putU32 event.deviceId ++
  putU32 event.effectId ++
  putGuid event.effectGuid ++
  putI32 event.hresult ++
  putU32 event.diFlags

def Event.timingFields (event : Event) : List UInt8 :=
  putU32 event.duration ++
  putU32 event.samplePeriod ++
  putU32 event.gain ++
  putU32 event.startDelay ++
  putU32 event.triggerButton ++
  putU32 event.triggerRepeat ++
  putU32 event.iterations

def Event.envelopeFields (event : Event) : List UInt8 :=
  putU32 event.envelopeAttackLevel ++
  putU32 event.envelopeAttackTime ++
  putU32 event.envelopeFadeLevel ++
  putU32 event.envelopeFadeTime ++
  putU32 event.propertyId ++
  putU32 event.dropped

def Event.forceFields (event : Event) : List UInt8 :=
  putI32 event.magnitude ++
  putI32 event.rampStart ++
  putI32 event.rampEnd ++
  putI32 event.periodicMagnitude ++
  putI32 event.periodicOffset ++
  putI32 event.periodicPhase ++
  putI32 event.periodicPeriod

def Event.axisFields (event : Event) : List UInt8 :=
  putU32 event.axisCount ++
  event.axes.toList.flatMap putI32 ++
  event.directions.toList.flatMap putI32

def Event.conditionFields (event : Event) : List UInt8 :=
  putU32 event.conditionCount ++
  event.conditions.toList.flatMap putCondition ++
  putU32 event.typeSpecificSize ++
  putU32 (if event.customRedacted then 1 else 0)

def Event.textFields (event : Event) : List UInt8 :=
  putFixedString event.buildVersion ++
  putFixedString event.sessionId ++
  putString event.text

/-- Kept at the end so that a reader of older frames may miss them. -/
def Event.tailFields (event : Event) : List UInt8 :=
  putU16 event.effectKind ++
  putU16 event.command

def Event.payload (event : Event) : List UInt8 :=
  event.identityFields ++ event.timingFields ++ event.envelopeFields ++ event.forceFields ++
    event.axisFields ++ event.conditionFields ++ event.textFields ++ event.tailFields

/-- The header's flag word: only `EffectCreated` gives its two presence bits another meaning. -/
def Event.wireFlags (event : Event) : UInt32 :=
  if event.type = .effectCreated then
    let flags := event.flags &&& ~~~kEffectCreatedParametersPresenceMask
    match event.effectParameterPresence with
    | .absent => flags ||| kEffectCreatedParametersAbsentFlag
    | .present => flags ||| kEffectCreatedParametersPresentFlag
    | .unknown => flags
  else event.flags

def magic : List UInt8 := [0x46, 0x46, 0x42, 0x31]

def Event.header (event : Event) : List UInt8 :=
  magic ++
  putU16 kProtocolVersion ++
  putU16 event.type.value ++
  putU32 (kHeaderSize + event.payload.length).toUInt32 ++
  putU32 event.wireFlags ++
  putU64 event.sequence ++
  putU64 event.qpcTicks

def serializeEvent (event : Event) : List UInt8 := event.header ++ event.payload

section Length

@[simp] theorem length_putU16 (value : UInt16) : (putU16 value).length = 2 := by
  simp [putU16]
@[simp] theorem length_putU32 (value : UInt32) : (putU32 value).length = 4 := by
  simp [putU32]
@[simp] theorem length_putU64 (value : UInt64) : (putU64 value).length = 8 := by
  simp [putU64]
@[simp] theorem length_putI32 (value : Int32) : (putI32 value).length = 4 := by
  simp [putI32]
@[simp] theorem length_putGuid (guid : Vector UInt8 16) : (putGuid guid).length = 16 := by
  simp [putGuid]
@[simp] theorem length_putCondition (condition : ConditionSample) :
    (putCondition condition).length = 24 := by
  simp [putCondition]
@[simp] theorem length_putFixedString {capacity : Nat} (text : Vector UInt8 capacity) :
    (putFixedString text).length = capacity := by
  simp [putFixedString]
@[simp] theorem length_magic : magic.length = 4 := rfl

theorem putString_eq (text : Vector UInt8 64) :
    putString text = putU16 (cString (text.toList.take 63)).length.toUInt16 ++
      cString (text.toList.take 63) := by
  have hstart : cString (text.toList.take 63) <+: text.toList :=
    (List.takeWhile_prefix _).trans (List.take_prefix _ _)
  simp only [putString, ← List.prefix_iff_eq_take.mp hstart]

theorem length_cString_le (bytes : List UInt8) : (cString bytes).length ≤ bytes.length :=
  (List.takeWhile_prefix _).length_le

theorem length_text_le (text : Vector UInt8 64) : (cString (text.toList.take 63)).length ≤ 63 := by
  have h := length_cString_le (text.toList.take 63)
  simp only [List.length_take, Vector.length_toList] at h
  omega

@[simp] theorem Event.length_header (event : Event) : event.header.length = 32 := by
  simp [Event.header]

@[simp] theorem Event.length_identityFields (event : Event) : event.identityFields.length = 40 := by
  simp [identityFields]
@[simp] theorem Event.length_timingFields (event : Event) : event.timingFields.length = 28 := by
  simp [timingFields]
@[simp] theorem Event.length_envelopeFields (event : Event) : event.envelopeFields.length = 24 := by
  simp [envelopeFields]
@[simp] theorem Event.length_forceFields (event : Event) : event.forceFields.length = 28 := by
  simp [forceFields]
@[simp] theorem Event.length_axisFields (event : Event) : event.axisFields.length = 68 := by
  simp [axisFields, List.length_flatMap]
@[simp] theorem Event.length_conditionFields (event : Event) :
    event.conditionFields.length = 204 := by
  simp [conditionFields, List.length_flatMap]
@[simp] theorem Event.length_textFields (event : Event) :
    event.textFields.length = 66 + (cString (event.text.toList.take 63)).length := by
  simp [textFields, putString_eq]
  omega
@[simp] theorem Event.length_tailFields (event : Event) : event.tailFields.length = 4 := by
  simp [tailFields]

theorem Event.length_payload (event : Event) :
    event.payload.length = 462 + (cString (event.text.toList.take 63)).length := by
  simp only [payload, List.length_append, length_identityFields, length_timingFields,
    length_envelopeFields, length_forceFields, length_axisFields, length_conditionFields,
    length_textFields, length_tailFields]
  omega

theorem length_serializeEvent (event : Event) :
    32 ≤ (serializeEvent event).length ∧ (serializeEvent event).length ≤ 557 := by
  have hpayload := event.length_payload
  have htext := length_text_le event.text
  simp only [serializeEvent, List.length_append, Event.length_header]
  omega

end Length

end FfbInterceptor.Protocol
