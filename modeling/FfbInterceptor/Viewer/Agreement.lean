import FfbInterceptor.Protocol.Grammar
import FfbInterceptor.Protocol.RoundTrip
import FfbInterceptor.Viewer.Offsets

/-! The viewer reads every frame that the plug-in accepts, and reads it the same way. -/
namespace FfbInterceptor.Viewer
open FfbInterceptor.Library FfbInterceptor.Protocol

def Condition.sample (c : Condition) : ConditionSample where
  offset := c.offset
  positiveCoefficient := c.positiveCoefficient
  negativeCoefficient := c.negativeCoefficient
  positiveSaturation := c.positiveSaturation
  negativeSaturation := c.negativeSaturation
  deadBand := c.deadBand

/-- Both decoders see the same values; only undefined effect kinds and commands are 0 to the plug-in. -/
structure SameValues (f : Viewer.Frame) (frame : ProtocolFrame) : Prop where
  messageType : f.messageType = frame.messageType.value
  flags : f.flags = frame.flags
  sequence : f.sequence = frame.sequence
  qpcTicks : f.qpcTicks = frame.qpcTicks
  processId : f.processId = frame.processId
  qpcFrequency : f.qpcFrequency = frame.qpcFrequency
  deviceId : f.deviceId = frame.deviceId
  effectId : f.effectId = frame.effectId
  effectGuid : f.effectGuid = frame.effectGuid
  hresult : f.hresult = frame.hresult
  diFlags : f.diFlags = frame.diFlags
  duration : f.duration = frame.duration
  samplePeriod : f.samplePeriod = frame.samplePeriod
  gain : f.gain = frame.gain
  startDelay : f.startDelay = frame.startDelay
  triggerButton : f.triggerButton = frame.triggerButton
  triggerRepeat : f.triggerRepeat = frame.triggerRepeat
  iterations : f.iterations = frame.iterations
  envelopeAttackLevel : f.envelopeAttackLevel = frame.envelopeAttackLevel
  envelopeAttackTime : f.envelopeAttackTime = frame.envelopeAttackTime
  envelopeFadeLevel : f.envelopeFadeLevel = frame.envelopeFadeLevel
  envelopeFadeTime : f.envelopeFadeTime = frame.envelopeFadeTime
  propertyId : f.propertyId = frame.propertyId
  dropped : f.dropped = frame.dropped
  magnitude : f.magnitude = frame.magnitude
  rampStart : f.rampStart = frame.rampStart
  rampEnd : f.rampEnd = frame.rampEnd
  periodicMagnitude : f.periodicMagnitude = frame.periodicMagnitude
  periodicOffset : f.periodicOffset = frame.periodicOffset
  periodicPhase : f.periodicPhase = frame.periodicPhase
  periodicPeriod : f.periodicPeriod = frame.periodicPeriod
  axes : f.axes = frame.axes
  directions : f.directions = frame.directions
  conditions : f.conditions.map Condition.sample = frame.conditions
  typeSpecificSize : f.typeSpecificSize = frame.typeSpecificSize
  customRedacted : f.customRedacted = frame.customRedacted
  buildVersion : f.buildVersion = frame.buildVersion
  sessionId : f.sessionId = frame.sessionId
  text : f.text = frame.text
  effectKind : EffectKind.ofValue f.effectKind = frame.effectKind
  effectCommand : EffectCommand.ofValue? f.command = frame.effectCommand

variable {b : List UInt8}

theorem decodeReplace_of_strictUtf8 {bytes : List UInt8} (h : StrictUtf8 bytes) :
    String.ofList (decodeReplace bytes) = utf8Text bytes := by
  obtain ⟨text, rfl⟩ := h
  have hstrict : String.fromUTF8? (utf8Bytes text).toByteArray = some (String.ofList text) :=
    fromUTF8?_eq_some_iff.mpr (by rw [String.toList_ofList])
  rw [decodeReplace_utf8Bytes, utf8Text, hstrict, Option.getD_some]

theorem decodeFrame_of_grammar (h : Grammar b) : decodeFrame b = .ok (frameAt b) := by
  have hmagic : sliceAt b 0 4 = magic := h.magic
  have hversion : word16At b 4 = version := h.version
  have htail := h.tail
  have hlimit : (63 : UInt16).toNat = 63 := rfl
  have htext : ¬ 63 < word16At b 488 := by
    rw [UInt16.lt_iff_toNat_lt, hlimit]
    exact Nat.not_lt.mpr h.textLength
  have haxes := toNat_le_eight h.axisCount
  have hconditions := toNat_le_eight h.conditionCount
  have hsize := h.size
  simp only [tailAt] at htail
  rw [decodeFrame_eq, decodeAt, if_neg (by omega), if_neg (not_not_intro hmagic),
    if_neg (not_not_intro hversion), if_neg (by omega), if_neg (by omega), if_neg (by omega),
    if_neg (by omega), if_neg (by omega), if_neg, if_neg]
  · simp only [textLengthAt, Protocol.textLengthAt] at *
    omega
  · rintro (hlong | hshort)
    · exact htext hlong
    · simp only [textLengthAt, Protocol.textLengthAt] at *
      omega

theorem sameValues_of_grammar (h : Grammar b) : SameValues (frameAt b) (Protocol.frameAt b) where
  messageType := (value_typeOf h.messageType).symm
  flags := rfl
  sequence := rfl
  qpcTicks := rfl
  processId := rfl
  qpcFrequency := rfl
  deviceId := rfl
  effectId := rfl
  effectGuid := rfl
  hresult := rfl
  diFlags := rfl
  duration := rfl
  samplePeriod := rfl
  gain := rfl
  startDelay := rfl
  triggerButton := rfl
  triggerRepeat := rfl
  iterations := rfl
  envelopeAttackLevel := rfl
  envelopeAttackTime := rfl
  envelopeFadeLevel := rfl
  envelopeFadeTime := rfl
  propertyId := rfl
  dropped := rfl
  magnitude := rfl
  rampStart := rfl
  rampEnd := rfl
  periodicMagnitude := rfl
  periodicOffset := rfl
  periodicPhase := rfl
  periodicPeriod := rfl
  axes := rfl
  directions := rfl
  conditions := by
    rw [frameAt, List.map_take, List.map_map]
    rfl
  typeSpecificSize := rfl
  customRedacted := by
    obtain hzero | hone := h.redaction
    · rw [frameAt, Protocol.frameAt, hzero]
      rfl
    · rw [frameAt, Protocol.frameAt, hone]
      rfl
  buildVersion := decodeReplace_of_strictUtf8 h.buildVersion
  sessionId := decodeReplace_of_strictUtf8 h.sessionId
  text := decodeReplace_of_strictUtf8 h.text
  effectKind := by
    have htail : b.length = 494 + textLengthAt b ↔ b.length = tailAt b + 4 := by
      simp only [tailAt, textLengthAt, Protocol.textLengthAt]
      omega
    simp only [frameAt, Protocol.frameAt, htail]
    by_cases hpresent : b.length = tailAt b + 4
    · rw [if_pos hpresent, if_pos hpresent]
      rfl
    · rw [if_neg hpresent, if_neg hpresent]
      rfl
  effectCommand := by
    have htail : b.length = 494 + textLengthAt b ↔ b.length = tailAt b + 4 := by
      simp only [tailAt, textLengthAt, Protocol.textLengthAt]
      omega
    have hoffset : 492 + textLengthAt b = tailAt b + 2 := by
      simp only [tailAt, textLengthAt, Protocol.textLengthAt]
      omega
    simp only [frameAt, Protocol.frameAt, htail, hoffset]
    by_cases hpresent : b.length = tailAt b + 4
    · rw [if_pos hpresent, if_pos hpresent]
    · rw [if_neg hpresent, if_neg hpresent]
      rfl

/-- Whatever the plug-in's decoder accepts, the viewer's decoder accepts with the same values. -/
theorem decodeFrame_agrees (b : List UInt8) (frame : ProtocolFrame) (h : decode b = .ok frame) :
    ∃ f, decodeFrame b = .ok f ∧ SameValues f frame := by
  obtain ⟨hgrammar, rfl⟩ := grammar_of_decode h
  exact ⟨frameAt b, decodeFrame_of_grammar hgrammar, sameValues_of_grammar hgrammar⟩

theorem decodeFrame_agrees_sampleEvent :
    ∃ f, decodeFrame (serializeEvent sampleEvent) = .ok f ∧
      SameValues f (sampleEvent.received "1.0" "s" "é.exe") :=
  decodeFrame_agrees _ _ (decode_serializeEvent (by decide) (by decide) ⟨by decide, by decide⟩
    ⟨by decide, by decide⟩ ⟨by decide, by decide⟩)

end FfbInterceptor.Viewer
