import FfbInterceptor.Library.Layout
import FfbInterceptor.Library.Utf8
import FfbInterceptor.Protocol.Decoder

/-! The byte strings the decoder accepts, position by position. -/
namespace FfbInterceptor.Protocol
open FfbInterceptor.Library

/-- The bytes are the UTF-8 encoding of a text. -/
def StrictUtf8 (bytes : List UInt8) : Prop := ∃ text : List Char, bytes = utf8Bytes text

/-- The exceptions `Decode` throws. -/
def decodeErrors : List ProtocolException :=
  [.truncatedHeader, .badMagic, .unsupportedProtocolVersion, .unknownMessageType, .invalidFrameSize,
    .invalidEffectParameterPresenceFlags, .truncatedPayload, .axisCountExceedsLimit,
    .conditionCountExceedsLimit, .invalidCustomRedactionFlag, .invalidUtf8, .invalidTextLength,
    .invalidTrailingPayload]

def utf8Text (bytes : List UInt8) : String := (String.fromUTF8? bytes.toByteArray).getD ""

def int32sAt (b : List UInt8) (k count : Nat) : List Int32 :=
  (List.range count).map fun i => int32At b (k + i * 4)

def conditionAt (b : List UInt8) (k : Nat) : ConditionSample where
  offset := int32At b k
  positiveCoefficient := int32At b (k + 4)
  negativeCoefficient := int32At b (k + 8)
  positiveSaturation := word32At b (k + 12)
  negativeSaturation := word32At b (k + 16)
  deadBand := int32At b (k + 20)

def conditionsAt (b : List UInt8) (k count : Nat) : List ConditionSample :=
  (List.range count).map fun i => conditionAt b (k + i * 24)

def fixedStringAt (b : List UInt8) (k : Nat) : List UInt8 := cString (sliceAt b k 32)

def textLengthAt (b : List UInt8) : Nat := (word16At b 488).toNat

/-- Where the optional tail begins. -/
def tailAt (b : List UInt8) : Nat := 490 + textLengthAt b

/-- Protocol v1, by the offsets of a frame's fields. -/
structure Grammar (b : List UInt8) : Prop where
  magic : b.take 4 = [0x46, 0x46, 0x42, 0x31]
  version : word16At b 4 = 1
  messageType : 1 ≤ word16At b 6 ∧ word16At b 6 ≤ 8
  size : (word32At b 8).toNat = b.length ∧ 32 ≤ b.length ∧ b.length ≤ 65536
  presence : word16At b 6 = 4 → word32At b 12 &&& 0x18000000 ≠ 0x18000000
  axisCount : word32At b 152 ≤ 8
  conditionCount : word32At b 220 ≤ 8
  redaction : word32At b 420 = 0 ∨ word32At b 420 = 1
  buildVersion : StrictUtf8 (fixedStringAt b 424)
  sessionId : StrictUtf8 (fixedStringAt b 456)
  textLength : textLengthAt b ≤ 63
  text : StrictUtf8 (sliceAt b 490 (textLengthAt b))
  tail : b.length = tailAt b ∨ b.length = tailAt b + 4

theorem toNat_le_eight {count : UInt32} (h : count ≤ 8) : count.toNat ≤ 8 :=
  UInt32.le_iff_toNat_le.mp h

section Words

theorem places_readUInt16 : Places readUInt16 .truncatedPayload 2 word16At := by
  intro b k hk
  by_cases h : k + 2 ≤ b.length
  · rw [if_pos h, drop_word16 h]
    rfl
  · rw [if_neg h]
    have hlength := List.length_drop (i := k) (l := b)
    match hdrop : b.drop k with
    | [] => rfl
    | [_] => rfl
    | _ :: _ :: _ =>
      simp only [hdrop, List.length_cons] at hlength
      omega

theorem places_readUInt32 : Places readUInt32 .truncatedPayload 4 word32At := by
  intro b k hk
  by_cases h : k + 4 ≤ b.length
  · rw [if_pos h, drop_word32 h]
    rfl
  · rw [if_neg h]
    have hlength := List.length_drop (i := k) (l := b)
    match hdrop : b.drop k with
    | [] => rfl
    | [_] => rfl
    | [_, _] => rfl
    | [_, _, _] => rfl
    | _ :: _ :: _ :: _ :: _ =>
      simp only [hdrop, List.length_cons] at hlength
      omega

theorem places_readInt32 : Places readInt32 .truncatedPayload 4 int32At :=
  .map UInt32.toInt32 places_readUInt32

theorem places_readUInt64 : Places readUInt64 .truncatedPayload 8 word64At :=
  .bind places_readUInt32 fun low => .bind places_readUInt32 fun high => .pure (word64 low high)

theorem places_readBytes (count : Nat) :
    Places (readBytes count) .truncatedPayload count fun b k => sliceAt b k count :=
  places_take count

theorem places_readInt32Array (count : Nat) :
    Places (readInt32Array count) .truncatedPayload (count * 4) fun b k => int32sAt b k count :=
  .many places_readInt32 count

theorem places_readCondition : Places readCondition .truncatedPayload 24 conditionAt :=
  .bind places_readInt32 fun _ => .bind places_readInt32 fun _ => .bind places_readInt32 fun _ =>
    .bind places_readUInt32 fun _ => .bind places_readUInt32 fun _ => .bind places_readInt32 fun _ =>
      .pure _

end Words

section Stages

variable (frame : ProtocolFrame)

def identityAt (frame : ProtocolFrame) (b : List UInt8) (k : Nat) : ProtocolFrame :=
  { frame with
    processId := word32At b k, qpcFrequency := word32At b (k + 4),
    deviceId := word32At b (k + 8), effectId := word32At b (k + 12),
    effectGuid := sliceAt b (k + 16) 16, hresult := int32At b (k + 32),
    diFlags := word32At b (k + 36) }

theorem places_readIdentity :
    Places (readIdentity frame) .truncatedPayload 40 (identityAt frame) :=
  .bind places_readUInt32 fun _ => .bind places_readUInt32 fun _ => .bind places_readUInt32 fun _ =>
    .bind places_readUInt32 fun _ => .bind (places_readBytes 16) fun _ => .bind places_readInt32 fun _ =>
      .bind places_readUInt32 fun _ => .pure _

def timingAt (frame : ProtocolFrame) (b : List UInt8) (k : Nat) : ProtocolFrame :=
  { frame with
    duration := word32At b k, samplePeriod := word32At b (k + 4), gain := word32At b (k + 8),
    startDelay := word32At b (k + 12), triggerButton := word32At b (k + 16),
    triggerRepeat := word32At b (k + 20), iterations := word32At b (k + 24) }

theorem places_readTiming :
    Places (readTiming frame) .truncatedPayload 28 (timingAt frame) :=
  .bind places_readUInt32 fun _ => .bind places_readUInt32 fun _ => .bind places_readUInt32 fun _ =>
    .bind places_readUInt32 fun _ => .bind places_readUInt32 fun _ => .bind places_readUInt32 fun _ =>
      .bind places_readUInt32 fun _ => .pure _

def envelopeAt (frame : ProtocolFrame) (b : List UInt8) (k : Nat) : ProtocolFrame :=
  { frame with
    envelopeAttackLevel := word32At b k, envelopeAttackTime := word32At b (k + 4),
    envelopeFadeLevel := word32At b (k + 8), envelopeFadeTime := word32At b (k + 12),
    propertyId := word32At b (k + 16), dropped := word32At b (k + 20) }

theorem places_readEnvelope :
    Places (readEnvelope frame) .truncatedPayload 24 (envelopeAt frame) :=
  .bind places_readUInt32 fun _ => .bind places_readUInt32 fun _ => .bind places_readUInt32 fun _ =>
    .bind places_readUInt32 fun _ => .bind places_readUInt32 fun _ => .bind places_readUInt32 fun _ =>
      .pure _

def forcesAt (frame : ProtocolFrame) (b : List UInt8) (k : Nat) : ProtocolFrame :=
  { frame with
    magnitude := int32At b k, rampStart := int32At b (k + 4), rampEnd := int32At b (k + 8),
    periodicMagnitude := int32At b (k + 12), periodicOffset := int32At b (k + 16),
    periodicPhase := int32At b (k + 20), periodicPeriod := int32At b (k + 24) }

theorem places_readForces :
    Places (readForces frame) .truncatedPayload 28 (forcesAt frame) :=
  .bind places_readInt32 fun _ => .bind places_readInt32 fun _ => .bind places_readInt32 fun _ =>
    .bind places_readInt32 fun _ => .bind places_readInt32 fun _ => .bind places_readInt32 fun _ =>
      .bind places_readInt32 fun _ => .pure _

theorem truncatedPayload_mem : ProtocolException.truncatedPayload ∈ decodeErrors := by decide

def axesAt (frame : ProtocolFrame) (b : List UInt8) (k : Nat) : ProtocolFrame :=
  { frame with
    axes := (int32sAt b (k + 4) 8).take (word32At b k).toNat
    directions := (int32sAt b (k + 36) 8).take (word32At b k).toNat }

theorem accepts_readAxes : Accepts (readAxes frame) decodeErrors
    (fun b k => word32At b k ≤ 8 ∧ k + 68 ≤ b.length) (fun _ k => k + 68) (axesAt frame) := by
  have hchecked := (Places.accepts places_readUInt32 truncatedPayload_mem).bind fun count =>
    Accepts.guarded (c := MaximumAxes < count.toNat)
      ((Places.bind (places_readInt32Array 8) fun allAxes =>
        .bind (places_readInt32Array 8) fun allDirections => .pure { frame with
          axes := allAxes.take count.toNat
          directions := allDirections.take count.toNat }).accepts truncatedPayload_mem)
      (show .axisCountExceedsLimit ∈ decodeErrors by decide) (s := throw .axisCountExceedsLimit)
      fun _ => rfl
  refine Accepts.congr (r := readAxes frame) hchecked ?_ ?_ ?_
  · intro b k _
    have hlimit : (8 : UInt32).toNat = 8 := rfl
    simp only [MaximumAxes, Nat.not_lt, UInt32.le_iff_toNat_le, hlimit]
    omega
  · intro b k _ _
    rfl
  · intro b k _ _
    rfl

def conditionFieldsAt (frame : ProtocolFrame) (b : List UInt8) (k : Nat) : ProtocolFrame :=
  { frame with
    conditions := (conditionsAt b (k + 4) 8).take (word32At b k).toNat
    typeSpecificSize := word32At b (k + 196)
    customRedacted := word32At b (k + 200) == 1 }

theorem accepts_readConditions : Accepts (readConditions frame) decodeErrors
    (fun b k => word32At b k ≤ 8 ∧ (word32At b (k + 200) = 0 ∨ word32At b (k + 200) = 1) ∧
      k + 204 ≤ b.length)
    (fun _ k => k + 204) (conditionFieldsAt frame) := by
  have hflag := fun (count : UInt32) (conditions : List ConditionSample) =>
    (Places.accepts places_readUInt32 truncatedPayload_mem).bind fun typeSpecificSize =>
      (Places.accepts places_readUInt32 truncatedPayload_mem).bind fun customRedacted =>
        Accepts.guarded (c := 1 < customRedacted)
          (.pure { frame with
                   conditions := conditions.take count.toNat, typeSpecificSize
                   customRedacted := customRedacted == 1 })
          (show .invalidCustomRedactionFlag ∈ decodeErrors by decide)
          (s := throw .invalidCustomRedactionFlag) fun _ => rfl
  have hchecked := (Places.accepts places_readUInt32 truncatedPayload_mem).bind fun count =>
    Accepts.guarded (c := MaximumAxes < count.toNat)
      (((Places.many places_readCondition 8).accepts truncatedPayload_mem).bind (hflag count))
      (show .conditionCountExceedsLimit ∈ decodeErrors by decide)
      (s := throw .conditionCountExceedsLimit) fun _ => rfl
  refine Accepts.congr (r := readConditions frame) hchecked ?_ ?_ ?_
  · intro b k _
    have hlimit : (8 : UInt32).toNat = 8 := rfl
    have hzero : (0 : UInt32).toNat = 0 := rfl
    have hone : (1 : UInt32).toNat = 1 := rfl
    simp only [MaximumAxes, Nat.not_lt, UInt32.le_iff_toNat_le, UInt32.lt_iff_toNat_lt,
      ← UInt32.toNat_inj, hlimit, hzero, hone, and_true, Nat.add_assoc, Nat.reduceMul, Nat.reduceAdd]
    omega
  · intro b k _ _
    rfl
  · intro b k _ _
    rfl

theorem strictUtf8_iff (bytes : List UInt8) :
    StrictUtf8 bytes ↔ (String.fromUTF8? bytes.toByteArray).isSome = true := by
  rw [Option.isSome_iff_exists]
  constructor
  · rintro ⟨text, h⟩
    exact ⟨String.ofList text, fromUTF8?_eq_some_iff.mpr (by rw [h, String.toList_ofList])⟩
  · rintro ⟨text, h⟩
    exact ⟨text.toList, fromUTF8?_eq_some_iff.mp h⟩

theorem accepts_decodeUtf8 (bytes : List UInt8) : Accepts (decodeUtf8 bytes) decodeErrors
    (fun _ _ => StrictUtf8 bytes) (fun _ k => k) fun _ _ => utf8Text bytes := by
  simp only [decodeUtf8, utf8Text, strictUtf8_iff]
  cases String.fromUTF8? bytes.toByteArray with
  | some text => exact (Accepts.pure text).congr (by simp) (by simp) (by simp)
  | none => exact Accepts.throw (by decide) (by simp)

def textsAt (frame : ProtocolFrame) (b : List UInt8) (k : Nat) : ProtocolFrame :=
  { frame with
    buildVersion := utf8Text (fixedStringAt b k)
    sessionId := utf8Text (fixedStringAt b (k + 32))
    text := utf8Text (sliceAt b (k + 66) (word16At b (k + 64)).toNat) }

theorem accepts_readTexts : Accepts (readTexts frame) decodeErrors
    (fun b k => StrictUtf8 (fixedStringAt b k) ∧ StrictUtf8 (fixedStringAt b (k + 32)) ∧
      word16At b (k + 64) ≤ 63 ∧ StrictUtf8 (sliceAt b (k + 66) (word16At b (k + 64)).toNat) ∧
      k + 66 + (word16At b (k + 64)).toNat ≤ b.length)
    (fun b k => k + 66 + (word16At b (k + 64)).toNat) (textsAt frame) := by
  have hlength := fun (buildVersion sessionId : String) =>
    (Places.accepts places_readUInt16 truncatedPayload_mem).bind fun textLength =>
      Accepts.guarded (c := 63 < textLength)
        (((places_readBytes textLength.toNat).accepts truncatedPayload_mem).bind fun bytes =>
          (accepts_decodeUtf8 bytes).bind fun text =>
            .pure { frame with buildVersion, sessionId, text })
        (show .invalidTextLength ∈ decodeErrors by decide)
        (s := throw .invalidTextLength) fun _ => rfl
  have htexts := ((places_readBytes 32).accepts truncatedPayload_mem).bind fun build =>
    (accepts_decodeUtf8 (cString build)).bind fun buildVersion =>
      ((places_readBytes 32).accepts truncatedPayload_mem).bind fun session =>
        (accepts_decodeUtf8 (cString session)).bind (hlength buildVersion)
  refine Accepts.congr (r := readTexts frame) htexts ?_ ?_ ?_
  · intro b k _
    simp only [UInt16.not_lt, and_true, Nat.add_assoc, fixedStringAt, Nat.reduceAdd]
    constructor
    · rintro ⟨_, hbuild, _, hsession, _, hlimit, hend, htext⟩
      exact ⟨hbuild, hsession, hlimit, htext, hend⟩
    · rintro ⟨hbuild, hsession, hlimit, htext, hend⟩
      exact ⟨by omega, hbuild, by omega, hsession, by omega, hlimit, hend, htext⟩
  · intro b k _ _
    rfl
  · intro b k _ _
    rfl

theorem accepts_remaining : Accepts remaining decodeErrors (fun _ _ => True) (fun _ k => k)
    fun b k => b.length - k where
  within := fun _ _ hk _ => hk
  accepted := by
    intro b k _ _
    rw [← List.length_drop]
    rfl
  refused := fun _ _ _ hbad => absurd trivial hbad

def tailFieldsAt (frame : ProtocolFrame) (b : List UInt8) (k : Nat) : ProtocolFrame :=
  if b.length = k + 4 then
    { frame with
      effectKind := EffectKind.ofValue (word16At b k)
      effectCommand := EffectCommand.ofValue? (word16At b (k + 2)) }
  else frame

theorem accepts_readTail : Accepts (readTail frame) decodeErrors
    (fun b k => b.length = k ∨ b.length = k + 4) (fun b _ => b.length) (tailFieldsAt frame) := by
  have hleft : ∀ left : Nat, Accepts
      (if left = 4 then do
        let kindValue ← readUInt16
        let commandValue ← readUInt16
        return { frame with effectKind := EffectKind.ofValue kindValue
                            effectCommand := EffectCommand.ofValue? commandValue }
      else if left ≠ 0 then throw .invalidTrailingPayload
      else return frame) decodeErrors
      (fun b k => left = 4 ∧ k + 4 ≤ b.length ∨ left = 0)
      (fun _ k => if left = 4 then k + 4 else k) fun b k =>
        if left = 4 then
          { frame with
            effectKind := EffectKind.ofValue (word16At b k)
            effectCommand := EffectCommand.ofValue? (word16At b (k + 2)) }
        else frame := by
    intro left
    by_cases hfour : left = 4
    · simp only [hfour, ↓reduceIte, true_and, OfNat.ofNat_ne_zero, or_false]
      exact (Places.bind places_readUInt16 fun _ => .bind places_readUInt16 fun _ => .pure _).accepts
        truncatedPayload_mem
    · simp only [hfour, ↓reduceIte, false_and, false_or]
      by_cases hzero : left = 0
      · simp only [hzero, ne_eq, not_true_eq_false, ↓reduceIte]
        exact .pure frame
      · simp only [hzero, ne_eq, not_false_eq_true, ↓reduceIte]
        exact .throw (by decide) fun _ _ => False.elim
  have htail := Accepts.bind accepts_remaining hleft
  refine Accepts.congr (r := readTail frame) htail ?_ ?_ ?_
  · intro b k hk
    simp only [true_and]
    omega
  · intro b k hk hgood
    simp only [true_and] at hgood
    split <;> omega
  · intro b k hk hgood
    simp only [true_and] at hgood
    have hfour : b.length - k = 4 ↔ b.length = k + 4 := by omega
    simp only [tailFieldsAt, hfour]

theorem isSome_ofValue? (value : UInt16) :
    (MessageType.ofValue? value).isSome = true ↔ 1 ≤ value ∧ value ≤ 8 := by
  have hall : ∀ v : Fin 9, (MessageType.ofValue? (UInt16.ofNat v)).isSome = true ↔ 1 ≤ v.val := by
    decide
  by_cases h : value.toNat ≤ 8
  · have hvalue := hall ⟨value.toNat, by omega⟩
    rw [UInt16.ofNat_toNat] at hvalue
    rw [hvalue, UInt16.le_iff_toNat_le, UInt16.le_iff_toNat_le]
    exact ⟨fun hpos => ⟨hpos, h⟩, fun hboth => hboth.1⟩
  · have hnone : MessageType.ofValue? value = none := by
      unfold MessageType.ofValue?
      split <;> first | rfl | exact absurd (by decide) h
    rw [hnone, UInt16.le_iff_toNat_le, UInt16.le_iff_toNat_le]
    constructor
    · intro hfalse
      cases hfalse
    · intro hboth
      exact absurd hboth.2 h

/-- The two presence bits are both clear, one of them set, or both set. -/
theorem presenceFlags_cases (flags : UInt32) :
    flags &&& EffectCreatedParametersPresenceMask = 0 ∨
    flags &&& EffectCreatedParametersPresenceMask = EffectCreatedParametersAbsentFlag ∨
    flags &&& EffectCreatedParametersPresenceMask = EffectCreatedParametersPresentFlag ∨
    flags &&& EffectCreatedParametersPresenceMask = EffectCreatedParametersPresenceMask := by
  have hbit : ∀ i : Nat, flags &&& ⟨BitVec.twoPow 32 i⟩ = 0 ∨
      flags &&& ⟨BitVec.twoPow 32 i⟩ = ⟨BitVec.twoPow 32 i⟩ := by
    intro i
    simp only [← UInt32.toBitVec_inj, UInt32.toBitVec_and, BitVec.and_twoPow]
    cases flags.toBitVec.getLsbD i <;> simp
  have habsent : EffectCreatedParametersAbsentFlag = ⟨BitVec.twoPow 32 27⟩ := by decide
  have hpresent : EffectCreatedParametersPresentFlag = ⟨BitVec.twoPow 32 28⟩ := by decide
  have hsplit : flags &&& EffectCreatedParametersPresenceMask =
      flags &&& EffectCreatedParametersAbsentFlag ||| flags &&& EffectCreatedParametersPresentFlag := by
    apply UInt32.toBitVec_inj.mp
    apply BitVec.eq_of_getLsbD_eq
    intro i hi
    simp only [EffectCreatedParametersPresenceMask, UInt32.toBitVec_and, UInt32.toBitVec_or,
      BitVec.getLsbD_and, BitVec.getLsbD_or, Bool.and_or_distrib_left]
  have h27 := hbit 27
  have h28 := hbit 28
  rw [← habsent] at h27
  rw [← hpresent] at h28
  rw [hsplit]
  obtain h27 | h27 := h27 <;> obtain h28 | h28 := h28 <;>
    simp [h27, h28, EffectCreatedParametersPresenceMask]

def presenceOf (messageType : MessageType) (flags : UInt32) : EffectParameterPresence :=
  if messageType = .effectCreated then
    if flags &&& EffectCreatedParametersPresenceMask = EffectCreatedParametersAbsentFlag then .absent
    else if flags &&& EffectCreatedParametersPresenceMask = EffectCreatedParametersPresentFlag then
      .present
    else .unknown
  else .unknown

theorem accepts_decodePresence (messageType : MessageType) (flags : UInt32) :
    Accepts (decodePresence messageType flags) decodeErrors
      (fun _ _ => messageType = .effectCreated → flags &&& 0x18000000 ≠ 0x18000000) (fun _ k => k)
      fun _ _ => presenceOf messageType flags := by
  by_cases htype : messageType = .effectCreated
  · have hmask : (0x18000000 : UInt32) = EffectCreatedParametersPresenceMask := by decide
    simp only [decodePresence, presenceOf, htype, ↓reduceIte, hmask, forall_const]
    obtain h | h | h | h := presenceFlags_cases flags <;> rw [h]
    · exact (Accepts.pure EffectParameterPresence.unknown).congr
        (fun _ _ _ => iff_of_true trivial (by decide)) (fun _ _ _ _ => rfl) fun _ _ _ _ => by decide
    · exact (Accepts.pure EffectParameterPresence.absent).congr
        (fun _ _ _ => iff_of_true trivial (by decide)) (fun _ _ _ _ => rfl) fun _ _ _ _ => by decide
    · exact (Accepts.pure EffectParameterPresence.present).congr
        (fun _ _ _ => iff_of_true trivial (by decide)) (fun _ _ _ _ => rfl) fun _ _ _ _ => by decide
    · exact Accepts.throw (by decide) (by simp)
  · simp only [decodePresence, presenceOf, htype, ↓reduceIte, false_implies]
    exact .pure _

def typeOf (value : UInt16) : MessageType := (MessageType.ofValue? value).getD .hello

theorem value_typeOf {value : UInt16} (h : 1 ≤ value ∧ value ≤ 8) : (typeOf value).value = value := by
  obtain ⟨type, htype⟩ := Option.isSome_iff_exists.mp ((isSome_ofValue? value).mpr h)
  rw [typeOf, htype, Option.getD_some]
  unfold MessageType.ofValue? at htype
  split at htype <;> cases htype <;> rfl

theorem typeOf_eq_effectCreated (value : UInt16) : typeOf value = .effectCreated ↔ value = 4 := by
  constructor
  · intro h
    unfold typeOf MessageType.ofValue? at h
    split at h <;> first | rfl | cases h
  · rintro rfl
    rfl

/-- The header's fields when the version stands at position `k`. -/
def headerAt (b : List UInt8) (k : Nat) : ProtocolFrame where
  messageType := typeOf (word16At b (k + 2))
  flags := word32At b (k + 8)
  effectParameterPresence := presenceOf (typeOf (word16At b (k + 2))) (word32At b (k + 8))
  sequence := word64At b (k + 12)
  qpcTicks := word64At b (k + 20)

theorem accepts_readMessage (length : Nat) (messageValue : UInt16) : Accepts
    (match MessageType.ofValue? messageValue with
      | some messageType => do
        let frameSize ← readUInt32
        if frameSize.toNat < HeaderSize ∨ MaximumFrameSize < frameSize.toNat ∨
            frameSize.toNat ≠ length then throw .invalidFrameSize
        let flags ← readUInt32
        let effectParameterPresence ← decodePresence messageType flags
        let sequence ← readUInt64
        let qpcTicks ← readUInt64
        return { messageType, flags, effectParameterPresence, sequence, qpcTicks : ProtocolFrame }
      | _ => throw .unknownMessageType) decodeErrors
    (fun b k => (1 ≤ messageValue ∧ messageValue ≤ 8) ∧
      (32 ≤ length ∧ length ≤ 65536 ∧ (word32At b k).toNat = length) ∧
      (messageValue = 4 → word32At b (k + 4) &&& 0x18000000 ≠ 0x18000000) ∧ k + 24 ≤ b.length)
    (fun _ k => k + 24) fun b k =>
      { messageType := typeOf messageValue
        flags := word32At b (k + 4)
        effectParameterPresence := presenceOf (typeOf messageValue) (word32At b (k + 4))
        sequence := word64At b (k + 8)
        qpcTicks := word64At b (k + 16) } := by
  have hflags := fun messageType : MessageType =>
    (Places.accepts places_readUInt32 truncatedPayload_mem).bind fun flags =>
      (accepts_decodePresence messageType flags).bind fun effectParameterPresence =>
        (Places.bind places_readUInt64 fun sequence => .bind places_readUInt64 fun qpcTicks =>
          .pure { messageType, flags, effectParameterPresence, sequence, qpcTicks :
            ProtocolFrame }).accepts truncatedPayload_mem
  have hsize := fun messageType : MessageType =>
    (Places.accepts places_readUInt32 truncatedPayload_mem).bind fun frameSize =>
      Accepts.guarded (c := frameSize.toNat < HeaderSize ∨ MaximumFrameSize < frameSize.toNat ∨
          frameSize.toNat ≠ length) (hflags messageType)
        (show .invalidFrameSize ∈ decodeErrors by decide) (s := throw .invalidFrameSize)
        fun _ => rfl
  rw [← isSome_ofValue?, ← typeOf_eq_effectCreated, typeOf]
  cases MessageType.ofValue? messageValue with
  | none => exact .throw (by decide) (by simp)
  | some messageType =>
    apply (hsize messageType).congr
    · intro b k _
      simp only [HeaderSize, MaximumFrameSize, Option.isSome_some, Option.getD_some, true_and,
        not_or, Nat.not_lt, ne_eq, Decidable.not_not]
      constructor
      · rintro ⟨_, ⟨hleast, hmost, hexact⟩, _, hpresence, hend⟩
        exact ⟨⟨by omega, by omega, hexact⟩, hpresence, hend⟩
      · rintro ⟨⟨hleast, hmost, hexact⟩, hpresence, hend⟩
        exact ⟨by omega, ⟨by omega, by omega, hexact⟩, by omega, hpresence, hend⟩
    · intro b k _ _
      rfl
    · intro b k _ _
      rfl

theorem accepts_readHeader (length : Nat) : Accepts (readHeader length) decodeErrors
    (fun b k => word16At b k = 1 ∧ (1 ≤ word16At b (k + 2) ∧ word16At b (k + 2) ≤ 8) ∧
      (32 ≤ length ∧ length ≤ 65536 ∧ (word32At b (k + 4)).toNat = length) ∧
      (word16At b (k + 2) = 4 → word32At b (k + 8) &&& 0x18000000 ≠ 0x18000000) ∧
      k + 28 ≤ b.length)
    (fun _ k => k + 28) headerAt := by
  have hversion := (Places.accepts places_readUInt16 truncatedPayload_mem).bind fun version =>
    Accepts.guarded (c := version ≠ Version)
      ((Places.accepts places_readUInt16 truncatedPayload_mem).bind (accepts_readMessage length))
      (show .unsupportedProtocolVersion ∈ decodeErrors by decide)
      (s := throw .unsupportedProtocolVersion) fun _ => rfl
  refine Accepts.congr (r := readHeader length) hversion ?_ ?_ ?_
  · intro b k _
    simp only [Version, ne_eq, Decidable.not_not, Nat.add_assoc, Nat.reduceAdd]
    constructor
    · rintro ⟨_, hversion, _, hrest⟩
      exact ⟨hversion, hrest⟩
    · rintro ⟨hversion, hrest⟩
      have hend := hrest.2.2.2
      exact ⟨by omega, hversion, by omega, hrest⟩
  · intro b k _ _
    rfl
  · intro b k _ _
    rfl

end Stages

section Whole

/-- The frame a byte string of the format stands for, field by field. -/
def frameAt (b : List UInt8) : ProtocolFrame where
  messageType := typeOf (word16At b 6)
  flags := word32At b 12
  effectParameterPresence := presenceOf (typeOf (word16At b 6)) (word32At b 12)
  sequence := word64At b 16
  qpcTicks := word64At b 24
  processId := word32At b 32
  qpcFrequency := word32At b 36
  deviceId := word32At b 40
  effectId := word32At b 44
  effectGuid := sliceAt b 48 16
  hresult := int32At b 64
  diFlags := word32At b 68
  duration := word32At b 72
  samplePeriod := word32At b 76
  gain := word32At b 80
  startDelay := word32At b 84
  triggerButton := word32At b 88
  triggerRepeat := word32At b 92
  iterations := word32At b 96
  envelopeAttackLevel := word32At b 100
  envelopeAttackTime := word32At b 104
  envelopeFadeLevel := word32At b 108
  envelopeFadeTime := word32At b 112
  propertyId := word32At b 116
  dropped := word32At b 120
  magnitude := int32At b 124
  rampStart := int32At b 128
  rampEnd := int32At b 132
  periodicMagnitude := int32At b 136
  periodicOffset := int32At b 140
  periodicPhase := int32At b 144
  periodicPeriod := int32At b 148
  axes := (int32sAt b 156 8).take (word32At b 152).toNat
  directions := (int32sAt b 188 8).take (word32At b 152).toNat
  conditions := (conditionsAt b 224 8).take (word32At b 220).toNat
  typeSpecificSize := word32At b 416
  customRedacted := word32At b 420 == 1
  buildVersion := utf8Text (fixedStringAt b 424)
  sessionId := utf8Text (fixedStringAt b 456)
  text := utf8Text (sliceAt b 490 (textLengthAt b))
  effectKind :=
    if b.length = tailAt b + 4 then EffectKind.ofValue (word16At b (tailAt b)) else .unknown
  effectCommand :=
    if b.length = tailAt b + 4 then EffectCommand.ofValue? (word16At b (tailAt b + 2)) else none

/-- Behind the magic the source's reads check the format and nothing else. -/
theorem readFrame_spec {b : List UInt8} (hlength : 4 ≤ b.length)
    (hmagic : b.take 4 = [0x46, 0x46, 0x42, 0x31]) :
    (Grammar b → (readFrame b.length).run (b.drop 4) = .ok (frameAt b, [])) ∧
    (¬ Grammar b → ∃ e ∈ decodeErrors, (readFrame b.length).run (b.drop 4) = .error e) := by
  have hframe := (accepts_readHeader b.length).bind fun frame =>
    ((places_readIdentity frame).accepts truncatedPayload_mem).bind fun frame =>
      ((places_readTiming frame).accepts truncatedPayload_mem).bind fun frame =>
        ((places_readEnvelope frame).accepts truncatedPayload_mem).bind fun frame =>
          ((places_readForces frame).accepts truncatedPayload_mem).bind fun frame =>
            (accepts_readAxes frame).bind fun frame => (accepts_readConditions frame).bind fun frame =>
              (accepts_readTexts frame).bind accepts_readTail
  constructor
  · intro h
    have hend : 490 + (word16At b 488).toNat ≤ b.length := by
      have htail := h.tail
      simp only [tailAt, textLengthAt] at htail
      omega
    have hrun := hframe.accepted b 4 hlength
      ⟨⟨h.version, h.messageType, ⟨h.size.2.1, h.size.2.2, h.size.1⟩, h.presence, by omega⟩, by omega,
        by omega, by omega, by omega, ⟨h.axisCount, by omega⟩,
        ⟨h.conditionCount, h.redaction, by omega⟩,
        ⟨h.buildVersion, h.sessionId, UInt16.le_iff_toNat_le.mpr h.textLength, h.text, hend⟩, h.tail⟩
    rw [List.drop_length] at hrun
    refine hrun.trans (congrArg (fun frame => Except.ok (frame, [])) ?_)
    by_cases hcodes : b.length = tailAt b + 4
    · have hframe : frameAt b = { frameAt b with
          effectKind := EffectKind.ofValue (word16At b (tailAt b))
          effectCommand := EffectCommand.ofValue? (word16At b (tailAt b + 2)) } := by
        simp only [frameAt, if_pos hcodes]
      rw [hframe]
      exact if_pos hcodes
    · have hframe : frameAt b = { frameAt b with effectKind := .unknown, effectCommand := none } := by
        simp only [frameAt, if_neg hcodes]
      rw [hframe]
      exact if_neg hcodes
  · intro hbad
    apply hframe.refused b 4 hlength
    rintro ⟨⟨hversion, htype, ⟨hleast, hmost, hsize⟩, hpresence, _⟩, _, _, _, _, ⟨haxes, _⟩,
      ⟨hconditions, hredaction, _⟩, ⟨hbuild, hsession, htext, hutf8, _⟩, htail⟩
    exact hbad ⟨hmagic, hversion, htype, ⟨hsize, hleast, hmost⟩, hpresence, haxes, hconditions,
      hredaction, hbuild, hsession, UInt16.le_iff_toNat_le.mp htext, hutf8, htail⟩

theorem decode_of_grammar {b : List UInt8} (h : Grammar b) : decode b = .ok (frameAt b) := by
  have hshort : ¬ b.length < HeaderSize := Nat.not_lt.mpr h.size.2.1
  have hmagic : ¬ b.take 4 ≠ magic := not_not_intro h.magic
  have hlength : 4 ≤ b.length := by
    simp only [HeaderSize] at hshort
    omega
  rw [decode, if_neg hshort, if_neg hmagic, StateT.run'_eq, (readFrame_spec hlength h.magic).1 h]
  rfl

theorem decode_of_not_grammar {b : List UInt8} (h : ¬ Grammar b) :
    ∃ e ∈ decodeErrors, decode b = .error e := by
  rw [decode]
  by_cases hshort : b.length < HeaderSize
  · exact ⟨_, by decide, if_pos hshort⟩
  · rw [if_neg hshort]
    by_cases hmagic : b.take 4 = magic
    · have hlength : 4 ≤ b.length := by
        simp only [HeaderSize] at hshort
        omega
      obtain ⟨e, he, hrun⟩ := (readFrame_spec hlength hmagic).2 h
      refine ⟨e, he, ?_⟩
      rw [if_neg (not_not_intro hmagic), StateT.run'_eq, hrun]
      rfl
    · exact ⟨_, by decide, if_pos hmagic⟩

/-- What the decoder accepts has the format, and is decoded field by field. -/
theorem grammar_of_decode {b : List UInt8} {frame : ProtocolFrame} (h : decode b = .ok frame) :
    Grammar b ∧ frame = frameAt b := by
  by_cases hgrammar : Grammar b
  · rw [decode_of_grammar hgrammar] at h
    cases h
    exact ⟨hgrammar, rfl⟩
  · obtain ⟨e, -, herror⟩ := decode_of_not_grammar hgrammar
    rw [herror] at h
    cases h

end Whole

end FfbInterceptor.Protocol
