import FfbInterceptor.Protocol.Decoder

/-! What the consumer reads back from a frame the producer wrote. -/
namespace FfbInterceptor.Protocol
open FfbInterceptor.Library

/-- The buffer holds the NUL-terminated UTF-8 text `s`. -/
structure HoldsText {capacity : Nat} (buffer : Vector UInt8 capacity) (s : String) : Prop where
  terminated : 0 ∈ buffer.toList
  bytes : (cString buffer.toList).toByteArray = s.toByteArray

section Words

theorem reads_putU16 (value : UInt16) : Reads readUInt16 (putU16 value) value := by
  intro rest
  simp only [putU16, List.cons_append, List.nil_append, StateT.run, readUInt16, word16_bytes]

theorem reads_putU32 (value : UInt32) : Reads readUInt32 (putU32 value) value := by
  intro rest
  simp only [putU32, List.cons_append, List.nil_append, StateT.run, readUInt32, word32_bytes]

theorem reads_putI32 (value : Int32) : Reads readInt32 (putI32 value) value := by
  have h := (reads_putU32 value.toUInt32).map UInt32.toInt32
  rwa [Int32.toInt32_toUInt32] at h

theorem reads_putU64 (value : UInt64) : Reads readUInt64 (putU64 value) value := by
  intro rest
  simp only [putU64, List.append_assoc, readUInt64, (reads_putU32 _).run_bind, word64_halves]
  rfl

theorem reads_bytes (bytes : List UInt8) : Reads (readBytes bytes.length) bytes bytes :=
  reads_take ProtocolException.truncatedPayload bytes

theorem reads_putGuid (guid : Vector UInt8 16) : Reads readGuid (putGuid guid) guid.toList := by
  have h := reads_bytes guid.toList
  rwa [Vector.length_toList] at h

theorem reads_putFixedString (buffer : Vector UInt8 32) :
    Reads (readBytes 32) (putFixedString buffer) buffer.toList := by
  have h := reads_bytes buffer.toList
  rwa [Vector.length_toList] at h

theorem reads_putI32s (values : Vector Int32 8) :
    Reads (readInt32Array MaximumAxes) (values.toList.flatMap putI32) values.toList := by
  have h := reads_many reads_putI32 values.toList
  rwa [Vector.length_toList] at h

theorem reads_putCondition (condition : ConditionSample) :
    Reads readCondition (putCondition condition) condition := by
  intro rest
  simp only [putCondition, List.append_assoc, readCondition, (reads_putI32 _).run_bind,
    (reads_putU32 _).run_bind]
  rfl

theorem reads_putConditions (values : Vector ConditionSample 8) :
    Reads (many readCondition MaximumAxes) (values.toList.flatMap putCondition) values.toList := by
  have h := reads_many reads_putCondition values.toList
  rwa [Vector.length_toList] at h

end Words

section Fields

variable (event : Event) (frame : ProtocolFrame)

theorem reads_identityFields :
    Reads (readIdentity frame) event.identityFields
      { frame with
        processId := event.processId, qpcFrequency := event.qpcFrequency,
        deviceId := event.deviceId, effectId := event.effectId,
        effectGuid := event.effectGuid.toList, hresult := event.hresult,
        diFlags := event.diFlags } := by
  intro rest
  simp only [Event.identityFields, List.append_assoc, readIdentity, (reads_putU32 _).run_bind,
    (reads_putI32 _).run_bind, (reads_putGuid _).run_bind]
  rfl

theorem reads_timingFields :
    Reads (readTiming frame) event.timingFields
      { frame with
        duration := event.duration, samplePeriod := event.samplePeriod, gain := event.gain,
        startDelay := event.startDelay, triggerButton := event.triggerButton,
        triggerRepeat := event.triggerRepeat, iterations := event.iterations } := by
  intro rest
  simp only [Event.timingFields, List.append_assoc, readTiming, (reads_putU32 _).run_bind]
  rfl

theorem reads_envelopeFields :
    Reads (readEnvelope frame) event.envelopeFields
      { frame with
        envelopeAttackLevel := event.envelopeAttackLevel,
        envelopeAttackTime := event.envelopeAttackTime,
        envelopeFadeLevel := event.envelopeFadeLevel, envelopeFadeTime := event.envelopeFadeTime,
        propertyId := event.propertyId, dropped := event.dropped } := by
  intro rest
  simp only [Event.envelopeFields, List.append_assoc, readEnvelope, (reads_putU32 _).run_bind]
  rfl

theorem reads_forceFields :
    Reads (readForces frame) event.forceFields
      { frame with
        magnitude := event.magnitude, rampStart := event.rampStart, rampEnd := event.rampEnd,
        periodicMagnitude := event.periodicMagnitude, periodicOffset := event.periodicOffset,
        periodicPhase := event.periodicPhase, periodicPeriod := event.periodicPeriod } := by
  intro rest
  simp only [Event.forceFields, List.append_assoc, readForces, (reads_putI32 _).run_bind]
  rfl

theorem reads_axisFields (h : event.axisCount.toNat ≤ kMaxAxes) :
    Reads (readAxes frame) event.axisFields
      { frame with
        axes := event.axes.toList.take event.axisCount.toNat,
        directions := event.directions.toList.take event.axisCount.toNat } := by
  intro rest
  have hcount : ¬ MaximumAxes < event.axisCount.toNat := Nat.not_lt.mpr h
  simp only [Event.axisFields, List.append_assoc, readAxes, (reads_putU32 _).run_bind, hcount,
    ↓reduceIte, (reads_putI32s _).run_bind]
  rfl

theorem reads_conditionFields (h : event.conditionCount.toNat ≤ kMaxAxes) :
    Reads (readConditions frame) event.conditionFields
      { frame with
        conditions := event.conditions.toList.take event.conditionCount.toNat,
        typeSpecificSize := event.typeSpecificSize,
        customRedacted := event.customRedacted } := by
  intro rest
  have hcount : ¬ MaximumAxes < event.conditionCount.toNat := Nat.not_lt.mpr h
  have hflag : ¬ (1 : UInt32) < if event.customRedacted then 1 else 0 := by
    cases event.customRedacted <;> decide
  have hredacted : ((if event.customRedacted then (1 : UInt32) else 0) == 1) = event.customRedacted := by
    cases event.customRedacted <;> decide
  simp only [Event.conditionFields, List.append_assoc, readConditions, (reads_putU32 _).run_bind,
    hcount, ↓reduceIte, (reads_putConditions _).run_bind, hflag, hredacted]
  rfl

theorem fromUTF8?_of_eq {bytes : List UInt8} {s : String} (h : bytes.toByteArray = s.toByteArray) :
    String.fromUTF8? bytes.toByteArray = some s := by
  rw [h, String.fromUTF8?, dif_pos s.isValidUTF8]
  rfl

theorem run_decodeUtf8 {bytes : List UInt8} {s : String} (h : bytes.toByteArray = s.toByteArray) :
    decodeUtf8 bytes = pure s := by
  simp only [decodeUtf8, fromUTF8?_of_eq h]

def textOf {capacity : Nat} (buffer : Vector UInt8 capacity) : String :=
  (String.fromUTF8? (cString buffer.toList).toByteArray).getD ""

theorem HoldsText.textOf_eq {capacity : Nat} {buffer : Vector UInt8 capacity} {s : String}
    (h : HoldsText buffer s) : textOf buffer = s := by
  simp only [textOf, fromUTF8?_of_eq h.bytes, Option.getD_some]

theorem cString_take_of_terminated {bytes : List UInt8} {n : Nat} (hlength : bytes.length ≤ n + 1)
    (hterminated : 0 ∈ bytes) : cString (bytes.take n) = cString bytes := by
  induction bytes generalizing n with
  | nil => cases hterminated
  | cons byte bytes ih =>
    by_cases hzero : byte = 0
    · cases n with
      | zero => simp [cString, hzero]
      | succ n => simp [cString, hzero]
    · have hrest : 0 ∈ bytes := by
        cases hterminated with
        | head => exact absurd rfl hzero
        | tail _ h => exact h
      have hpos := List.length_pos_of_mem hrest
      cases n with
      | zero =>
        simp only [List.length_cons] at hlength
        omega
      | succ n =>
        have htail := ih (n := n) (by simpa using hlength) hrest
        simp only [List.take_succ_cons, cString, List.takeWhile_cons, ne_eq, hzero,
          not_false_eq_true, decide_true, ↓reduceIte, List.cons.injEq, true_and]
        exact htail

theorem HoldsText.cString_take {buffer : Vector UInt8 64} {s : String} (h : HoldsText buffer s) :
    cString (buffer.toList.take 63) = cString buffer.toList :=
  cString_take_of_terminated (by simp) h.terminated

theorem reads_textFields {build session text : String} (hbuild : HoldsText event.buildVersion build)
    (hsession : HoldsText event.sessionId session) (htext : HoldsText event.text text) :
    Reads (readTexts frame) event.textFields
      { frame with buildVersion := build, sessionId := session, text := text } := by
  intro rest
  have hlength := length_text_le event.text
  have hword : ((cString (event.text.toList.take 63)).length.toUInt16).toNat =
      (cString (event.text.toList.take 63)).length := by
    simp only [Nat.toUInt16, UInt16.toNat_ofNat']
    omega
  have hlimit : ¬ (63 : UInt16) < (cString (event.text.toList.take 63)).length.toUInt16 := by
    rw [UInt16.lt_iff_toNat_lt, hword]
    exact Nat.not_lt.mpr hlength
  simp only [Event.textFields, List.append_assoc, readTexts, (reads_putFixedString _).run_bind,
    decodeFixedString, run_decodeUtf8 hbuild.bytes, run_decodeUtf8 hsession.bytes, pure_bind,
    putString_eq, (reads_putU16 _).run_bind, hlimit, ↓reduceIte, hword, (reads_bytes _).run_bind]
  rw [htext.cString_take, run_decodeUtf8 htext.bytes]
  rfl

theorem run_readTail :
    (readTail frame).run event.tailFields =
      .ok ({ frame with
             effectKind := EffectKind.ofValue event.effectKind,
             effectCommand := EffectCommand.ofValue? event.command }, []) := by
  have hleft : ∀ f : Nat → LittleEndianReader ProtocolFrame,
      (remaining >>= f).run event.tailFields = (f 4).run event.tailFields := by
    intro f
    rw [← event.length_tailFields]
    rfl
  have hcommand := reads_putU16 event.command []
  rw [List.append_nil] at hcommand
  rw [readTail, hleft]
  simp only [↓reduceIte, Event.tailFields, (reads_putU16 _).run_bind]
  rw [StateT.run_bind, hcommand]
  rfl

end Fields

section Header

theorem ofValue?_value (type : MessageType) : MessageType.ofValue? type.value = some type := by
  cases type <;> rfl

theorem EffectKind.ofValue_value (kind : EffectKind) : EffectKind.ofValue kind.value = kind := by
  cases kind <;> rfl

theorem EffectKind.ofValue_of_forall_ne {value : UInt16} (h : ∀ kind : EffectKind, value ≠ kind.value) :
    EffectKind.ofValue value = .unknown := by
  have hcases : EffectKind.ofValue value = .unknown ∨ value = (EffectKind.ofValue value).value := by
    unfold ofValue
    split <;> simp [EffectKind.value]
  cases hcases with
  | inl h => exact h
  | inr hvalue => exact absurd hvalue (h _)

theorem EffectCommand.ofValue?_value (command : EffectCommand) :
    EffectCommand.ofValue? command.value = some command := by
  cases command <;> rfl

theorem EffectCommand.ofValue?_of_forall_ne {value : UInt16}
    (h : ∀ command : EffectCommand, value ≠ command.value) :
    EffectCommand.ofValue? value = none := by
  have hcases : ∀ command, EffectCommand.ofValue? value = some command → value = command.value := by
    unfold ofValue?
    split <;> simp [EffectCommand.value]
  cases hvalue : EffectCommand.ofValue? value with
  | none => rfl
  | some command => exact absurd (hcases command hvalue) (h command)

/-- The presence a reader sees: the flag bits mean presence on `EffectCreated` only. -/
def Event.receivedPresence (event : Event) : EffectParameterPresence :=
  if event.type = .effectCreated then event.effectParameterPresence else .unknown

theorem wireFlags_of_ne {event : Event} (h : event.type ≠ .effectCreated) :
    event.wireFlags = event.flags := by
  simp only [Event.wireFlags, h, ↓reduceIte]

def presenceFlag : EffectParameterPresence → UInt32
  | .unknown => 0
  | .absent => kEffectCreatedParametersAbsentFlag
  | .present => kEffectCreatedParametersPresentFlag

theorem wireFlags_of_effectCreated {event : Event} (h : event.type = .effectCreated) :
    event.wireFlags = event.flags &&& ~~~kEffectCreatedParametersPresenceMask |||
      presenceFlag event.effectParameterPresence := by
  simp only [Event.wireFlags, h, ↓reduceIte]
  cases event.effectParameterPresence with
  | unknown => exact UInt32.or_zero.symm
  | absent => rfl
  | present => rfl

theorem wireFlags_presence {event : Event} (h : event.type = .effectCreated) :
    event.wireFlags &&& EffectCreatedParametersPresenceMask =
      presenceFlag event.effectParameterPresence := by
  have hmask : EffectCreatedParametersPresenceMask = kEffectCreatedParametersPresenceMask := rfl
  rw [wireFlags_of_effectCreated h, hmask, masked_and]
  cases event.effectParameterPresence <;> decide

/-- On `EffectCreated` all bits but the two presence bits are the event's own. -/
theorem wireFlags_rest {event : Event} (h : event.type = .effectCreated) :
    event.wireFlags &&& ~~~kEffectCreatedParametersPresenceMask =
      event.flags &&& ~~~kEffectCreatedParametersPresenceMask := by
  rw [wireFlags_of_effectCreated h]
  apply masked_and_not
  cases event.effectParameterPresence <;> decide

theorem decodePresence_wireFlags (event : Event) :
    decodePresence event.type event.wireFlags = pure event.receivedPresence := by
  by_cases h : event.type = .effectCreated
  · have hmask := wireFlags_presence h
    simp only [decodePresence, h, ↓reduceIte, Event.receivedPresence, hmask]
    cases event.effectParameterPresence <;> rfl
  · simp only [decodePresence, h, ↓reduceIte, Event.receivedPresence]

theorem toNat_frameSize (event : Event) :
    (kHeaderSize + event.payload.length).toUInt32.toNat = (serializeEvent event).length := by
  have hlength := length_serializeEvent event
  have h : kHeaderSize + event.payload.length = (serializeEvent event).length := by
    simp [serializeEvent, kHeaderSize]
  rw [h, Nat.toUInt32, UInt32.toNat_ofNat']
  omega

theorem reads_header (event : Event) :
    Reads (readHeader (serializeEvent event).length) (event.header.drop 4)
      { messageType := event.type, flags := event.wireFlags,
        effectParameterPresence := event.receivedPresence, sequence := event.sequence,
        qpcTicks := event.qpcTicks } := by
  intro rest
  have hlength := length_serializeEvent event
  have hframe : ¬ ((serializeEvent event).length < HeaderSize ∨
      MaximumFrameSize < (serializeEvent event).length ∨
      (serializeEvent event).length ≠ (serializeEvent event).length) := by
    simp only [HeaderSize, MaximumFrameSize]
    omega
  have hdrop : event.header.drop 4 = putU16 kProtocolVersion ++ (putU16 event.type.value ++
      (putU32 (kHeaderSize + event.payload.length).toUInt32 ++ (putU32 event.wireFlags ++
        (putU64 event.sequence ++ putU64 event.qpcTicks)))) := by
    simp only [Event.header, List.append_assoc]
    rfl
  have hversion : ¬ kProtocolVersion ≠ Version := by decide
  simp only [hdrop, List.append_assoc, readHeader, (reads_putU16 _).run_bind, hversion, ↓reduceIte,
    ofValue?_value, (reads_putU32 _).run_bind, toNat_frameSize, hframe, decodePresence_wireFlags, pure_bind,
    (reads_putU64 _).run_bind]
  rfl

end Header

/-- The frame a reader should see for an event whose buffers hold these texts. -/
def Event.received (event : Event) (build session text : String) : ProtocolFrame where
  messageType := event.type
  flags := event.wireFlags
  effectParameterPresence := event.receivedPresence
  sequence := event.sequence
  qpcTicks := event.qpcTicks
  processId := event.processId
  qpcFrequency := event.qpcFrequency
  deviceId := event.deviceId
  effectId := event.effectId
  effectGuid := event.effectGuid.toList
  hresult := event.hresult
  diFlags := event.diFlags
  duration := event.duration
  samplePeriod := event.samplePeriod
  gain := event.gain
  startDelay := event.startDelay
  triggerButton := event.triggerButton
  triggerRepeat := event.triggerRepeat
  iterations := event.iterations
  envelopeAttackLevel := event.envelopeAttackLevel
  envelopeAttackTime := event.envelopeAttackTime
  envelopeFadeLevel := event.envelopeFadeLevel
  envelopeFadeTime := event.envelopeFadeTime
  propertyId := event.propertyId
  dropped := event.dropped
  magnitude := event.magnitude
  rampStart := event.rampStart
  rampEnd := event.rampEnd
  periodicMagnitude := event.periodicMagnitude
  periodicOffset := event.periodicOffset
  periodicPhase := event.periodicPhase
  periodicPeriod := event.periodicPeriod
  axes := event.axes.toList.take event.axisCount.toNat
  directions := event.directions.toList.take event.axisCount.toNat
  conditions := event.conditions.toList.take event.conditionCount.toNat
  typeSpecificSize := event.typeSpecificSize
  customRedacted := event.customRedacted
  buildVersion := build
  sessionId := session
  text := text
  effectKind := EffectKind.ofValue event.effectKind
  effectCommand := EffectCommand.ofValue? event.command

/-- The frame a reader should see for an event, with the texts its buffers hold. -/
def Event.delivered (event : Event) : ProtocolFrame :=
  event.received (textOf event.buildVersion) (textOf event.sessionId) (textOf event.text)

theorem decode_serializeEvent {event : Event} {build session text : String}
    (haxes : event.axisCount.toNat ≤ kMaxAxes) (hconditions : event.conditionCount.toNat ≤ kMaxAxes)
    (hbuild : HoldsText event.buildVersion build) (hsession : HoldsText event.sessionId session)
    (htext : HoldsText event.text text) :
    decode (serializeEvent event) = .ok (event.received build session text) := by
  have hlength := length_serializeEvent event
  have hlong : ¬ (serializeEvent event).length < HeaderSize := Nat.not_lt.mpr hlength.1
  have hmagic : (serializeEvent event).take 4 = magic := by
    simp only [serializeEvent, Event.header, List.append_assoc]
    rfl
  have hdrop : (serializeEvent event).drop 4 = event.header.drop 4 ++ event.payload := by
    rw [serializeEvent, List.drop_append_of_le_length (by simp)]
  simp only [decode, hlong, ↓reduceIte, hmagic, ne_eq, not_true_eq_false, hdrop, readFrame,
    Event.payload, List.append_assoc, StateT.run'_eq, (reads_header _).run_bind,
    (reads_identityFields _ _).run_bind, (reads_timingFields _ _).run_bind,
    (reads_envelopeFields _ _).run_bind, (reads_forceFields _ _).run_bind,
    (reads_axisFields _ _ haxes).run_bind, (reads_conditionFields _ _ hconditions).run_bind,
    (reads_textFields _ _ hbuild hsession htext).run_bind, run_readTail]
  rfl

/-- Encoding by the proxy and decoding by the plug-in lose no field of an event. -/
theorem round_trip (event : Event) (build session text : String)
    (haxes : event.axisCount.toNat ≤ kMaxAxes) (hconditions : event.conditionCount.toNat ≤ kMaxAxes)
    (hbuild : HoldsText event.buildVersion build) (hsession : HoldsText event.sessionId session)
    (htext : HoldsText event.text text) :
    ∃ frame, decode (serializeEvent event) = .ok frame ∧
      frame = event.received build session text ∧
      (event.type = .effectCreated →
        frame.effectParameterPresence = event.effectParameterPresence ∧
        frame.flags &&& ~~~kEffectCreatedParametersPresenceMask =
          event.flags &&& ~~~kEffectCreatedParametersPresenceMask) ∧
      (event.type ≠ .effectCreated →
        frame.effectParameterPresence = .unknown ∧ frame.flags = event.flags) ∧
      (∀ kind : EffectKind, event.effectKind = kind.value → frame.effectKind = kind) ∧
      ((∀ kind : EffectKind, event.effectKind ≠ kind.value) → frame.effectKind = .unknown) ∧
      (∀ command : EffectCommand, event.command = command.value →
        frame.effectCommand = some command) ∧
      ((∀ command : EffectCommand, event.command ≠ command.value) →
        frame.effectCommand = none) := by
  refine ⟨event.received build session text,
    decode_serializeEvent haxes hconditions hbuild hsession htext, rfl, ?_, ?_, ?_, ?_, ?_, ?_⟩
  · intro h
    exact ⟨if_pos h, wireFlags_rest h⟩
  · intro h
    exact ⟨if_neg h, wireFlags_of_ne h⟩
  · intro kind h
    simp only [Event.received, h, EffectKind.ofValue_value]
  · exact EffectKind.ofValue_of_forall_ne
  · intro command h
    simp only [Event.received, h, EffectCommand.ofValue?_value]
  · exact EffectCommand.ofValue?_of_forall_ne

def sampleEvent : Event where
  type := .effectCreated
  effectKind := EffectKind.spring.value
  effectParameterPresence := .present
  flags := 0x18000025
  sequence := 7
  hresult := -123
  magnitude := -10
  axisCount := 2
  axes := #v[1, -2, 0, 0, 0, 0, 0, 0]
  conditionCount := 1
  buildVersion := filled 32 [0x31, 0x2E, 0x30]
  sessionId := filled 32 [0x73]
  text := filled 64 [0xC3, 0xA9, 0x2E, 0x65, 0x78, 0x65]

theorem round_trip_sampleEvent :
    ∃ frame, decode (serializeEvent sampleEvent) = .ok frame ∧
      frame = sampleEvent.received "1.0" "s" "é.exe" := by
  obtain ⟨frame, hdecode, hframe, -⟩ := round_trip sampleEvent "1.0" "s" "é.exe" (by decide)
    (by decide) ⟨by decide, by decide⟩ ⟨by decide, by decide⟩ ⟨by decide, by decide⟩
  exact ⟨frame, hdecode, hframe⟩

end FfbInterceptor.Protocol
