import FfbInterceptor.Viewer.Frame

/-! The viewer's decoder by the offsets of a frame's fields. -/
namespace FfbInterceptor.Viewer
open FfbInterceptor.Library

def conditionAt (raw : List UInt8) (k : Nat) : Condition :=
  ⟨int32At raw k, int32At raw (k + 4), int32At raw (k + 8), word32At raw (k + 12),
    word32At raw (k + 16), int32At raw (k + 20)⟩

def textLengthAt (raw : List UInt8) : Nat := (word16At raw 488).toNat

def frameAt (raw : List UInt8) : Frame where
  messageType := word16At raw 6
  flags := word32At raw 12
  sequence := word64At raw 16
  qpcTicks := word64At raw 24
  processId := word32At raw 32
  qpcFrequency := word32At raw 36
  deviceId := word32At raw 40
  effectId := word32At raw 44
  effectGuid := sliceAt raw 48 16
  hresult := int32At raw 64
  diFlags := word32At raw 68
  duration := word32At raw 72
  samplePeriod := word32At raw 76
  gain := word32At raw 80
  startDelay := word32At raw 84
  triggerButton := word32At raw 88
  triggerRepeat := word32At raw 92
  iterations := word32At raw 96
  envelopeAttackLevel := word32At raw 100
  envelopeAttackTime := word32At raw 104
  envelopeFadeLevel := word32At raw 108
  envelopeFadeTime := word32At raw 112
  propertyId := word32At raw 116
  dropped := word32At raw 120
  magnitude := int32At raw 124
  rampStart := int32At raw 128
  rampEnd := int32At raw 132
  periodicMagnitude := int32At raw 136
  periodicOffset := int32At raw 140
  periodicPhase := int32At raw 144
  periodicPeriod := int32At raw 148
  axes := ((List.range 8).map fun i => int32At raw (156 + i * 4)).take (word32At raw 152).toNat
  directions := ((List.range 8).map fun i => int32At raw (188 + i * 4)).take (word32At raw 152).toNat
  conditions := ((List.range 8).map fun i => conditionAt raw (224 + i * 24)).take (word32At raw 220).toNat
  typeSpecificSize := word32At raw 416
  customRedacted := word32At raw 420 != 0
  buildVersion := fixedText raw 424
  sessionId := fixedText raw 456
  text := String.ofList (decodeReplace (sliceAt raw 490 (textLengthAt raw)))
  effectKind := if raw.length = 494 + textLengthAt raw then word16At raw (490 + textLengthAt raw) else 0
  command := if raw.length = 494 + textLengthAt raw then word16At raw (492 + textLengthAt raw) else 0

def decodeAt (raw : List UInt8) : Except Raised Frame :=
  if raw.length < 32 then .error (.protocolError .truncatedHeader)
  else if sliceAt raw 0 4 ≠ magic then .error (.protocolError .badMagic)
  else if word16At raw 4 ≠ version then
    .error (.protocolError (.unsupportedProtocolVersion (word16At raw 4)))
  else if (word32At raw 8).toNat < 32 ∨ 65536 < (word32At raw 8).toNat then
    .error (.protocolError .invalidFrameSize)
  else if (word32At raw 8).toNat ≠ raw.length then .error (.protocolError .fragmentedOrTrailingFrame)
  else if raw.length < 490 then .error (.protocolError .truncatedPayload)
  else if 8 < (word32At raw 152).toNat then .error (.protocolError .axisCountExceedsLimit)
  else if 8 < (word32At raw 220).toNat then .error (.protocolError .conditionCountExceedsLimit)
  else if 63 < word16At raw 488 ∨ raw.length < 490 + textLengthAt raw then
    .error (.protocolError .invalidTextLength)
  else if raw.length ≠ 490 + textLengthAt raw ∧ raw.length ≠ 494 + textLengthAt raw then
    .error (.protocolError .invalidTrailingPayload)
  else .ok (frameAt raw)

section Steps

variable {α β : Type}

theorem bind_eq {x : Except Raised α} {a : α} {f : α → Except Raised β} {y : Except Raised β}
    (hx : x = .ok a) (h : f a = y) : (x >>= f) = y := by
  rw [hx]
  exact h

theorem guard_eq {c d : Prop} [Decidable c] [Decidable d] {e : Raised} {f : Unit → Except Raised α}
    {y : Except Raised α} (hc : c ↔ d) (h : ¬ d → f () = y) :
    (if c then throw e >>= f else f ()) = if d then .error e else y := by
  by_cases hd : d
  · rw [if_pos (hc.mpr hd), if_pos hd]
    rfl
  · rw [if_neg (mt hc.mp hd), if_neg hd]
    exact h hd

theorem unpackFrom_of_le {format : List Code} {data : List UInt8} {offset : Nat}
    (h : offset + calcsize format ≤ data.length) :
    unpackFrom format data offset = .ok (unpack data offset format) :=
  if_neg (Nat.not_lt.mpr h)

end Steps

section Payload

variable {raw : List UInt8}

theorem word16At_drop (n k : Nat) : word16At (raw.drop n) k = word16At raw (n + k) := by
  simp only [word16At, List.getD, List.getElem?_drop, Nat.add_assoc]

theorem word32At_drop (n k : Nat) : word32At (raw.drop n) k = word32At raw (n + k) := by
  simp only [word32At, List.getD, List.getElem?_drop, Nat.add_assoc]

theorem sliceAt_drop (n k count : Nat) : sliceAt (raw.drop n) k count = sliceAt raw (n + k) count := by
  simp only [sliceAt, List.drop_drop]

theorem int32At_drop (n k : Nat) : int32At (raw.drop n) k = int32At raw (n + k) := by
  rw [int32At, word32At_drop, int32At]

theorem conditionAt_drop (n k : Nat) : conditionAt (raw.drop n) k = conditionAt raw (n + k) := by
  simp only [conditionAt, int32At_drop, word32At_drop, Nat.add_assoc]

theorem fixedText_drop (n k : Nat) : fixedText (raw.drop n) k = fixedText raw (n + k) := by
  rw [fixedText, sliceAt_drop, fixedText]

theorem ints_unpack (count k : Nat) :
    Values.ints count (unpack raw k (List.replicate count .i)) =
      (List.range count).map fun i => int32At raw (k + i * 4) := by
  induction count generalizing k with
  | zero => rfl
  | succ count ih =>
    have hrest : Values.ints (count + 1) (unpack raw k (List.replicate (count + 1) .i)) =
        int32At raw k :: Values.ints count (unpack raw (k + 4) (List.replicate count .i)) := rfl
    rw [hrest, ih, List.range_succ_eq_map, List.map_cons, List.map_map, Nat.zero_mul, Nat.add_zero]
    congr 1
    apply List.map_congr_left
    intro i _
    rw [Function.comp, Nat.succ_mul, Nat.add_assoc, Nat.add_comm 4]

theorem unpackCondition_eq {conditionCount : UInt32} {offset n : Nat}
    (h : offset + n * 24 + 24 ≤ raw.length) :
    unpackCondition raw conditionCount
      (((List.range n).map fun i => conditionAt raw (offset + i * 24)).take conditionCount.toNat,
        offset + n * 24) n =
      .ok (((List.range (n + 1)).map fun i => conditionAt raw (offset + i * 24)).take conditionCount.toNat,
        offset + (n + 1) * 24) := by
  refine bind_eq (unpackFrom_of_le h) ?_
  have hoffset : offset + n * 24 + calcsize condition = offset + (n + 1) * 24 := by
    simp only [calcsize, condition, Code.size, List.map_cons, List.map_nil, List.sum_cons, List.sum_nil]
    omega
  refine congrArg Except.ok (Prod.ext ?_ hoffset)
  have hlength : ((List.range n).map fun i => conditionAt raw (offset + i * 24)).length = n := by
    rw [List.length_map, List.length_range]
  have hkept : ∀ taken : List Condition, (if n < conditionCount.toNat then
        taken ++ [conditionAt raw (offset + n * 24)] else taken) =
      taken ++ [conditionAt raw (offset + n * 24)].take (conditionCount.toNat - n) := by
    intro taken
    by_cases hn : n < conditionCount.toNat
    · rw [if_pos hn, List.take_of_length_le (by simp only [List.length_singleton]; omega)]
    · rw [if_neg hn, Nat.sub_eq_zero_of_le (Nat.not_lt.mp hn), List.take_zero, List.append_nil]
  rw [List.range_succ, List.map_append, List.take_append, hlength]
  exact hkept _

theorem unpackConditions_eq {conditionCount : UInt32} {offset : Nat}
    (h : offset + 192 ≤ raw.length) :
    unpackConditions raw conditionCount offset =
      .ok (((List.range 8).map fun i => conditionAt raw (offset + i * 24)).take conditionCount.toNat,
        offset + 192) := by
  have hloop : ∀ n ≤ 8, (List.range n).foldlM (unpackCondition raw conditionCount) ([], offset) =
      Except.ok (((List.range n).map fun i => conditionAt raw (offset + i * 24)).take conditionCount.toNat,
        offset + n * 24) := by
    intro n hn
    induction n with
    | zero => simp [pure, Except.pure]
    | succ n ih =>
      rw [List.range_succ, List.foldlM_append, ← List.range_succ]
      refine bind_eq (ih (by omega)) ?_
      rw [List.foldlM_cons]
      exact bind_eq (unpackCondition_eq (by omega)) rfl
  exact hloop 8 (Nat.le_refl 8)

theorem unpackFrom_word32 {offset : Nat} (h : offset + 4 ≤ raw.length) :
    u32 raw offset = .ok (word32At raw offset) :=
  bind_eq (unpackFrom_of_le h) rfl

theorem unpackTail_eq {offset trailing : Nat} (h : offset ≤ raw.length)
    (htrailing : trailing = raw.length - offset) :
    unpackTail raw offset trailing =
      .ok (if raw.length = offset + 4 then word16At raw offset else 0,
        if raw.length = offset + 4 then word16At raw (offset + 2) else 0) := by
  by_cases htail : raw.length = offset + 4
  · rw [if_pos htail, if_pos htail]
    refine (if_pos (by omega)).trans (bind_eq (unpackFrom_of_le ?_) rfl)
    exact Nat.le_of_eq htail.symm
  · rw [if_neg htail, if_neg htail]
    exact if_neg (by omega)

theorem decodeFrame_eq (raw : List UInt8) : decodeFrame raw = decodeAt raw := by
  unfold decodeFrame decodeAt
  refine guard_eq Iff.rfl fun hlength => ?_
  have hhead : unpackFrom [.s 4, .H, .H, .I, .I, .Q, .Q] raw 0 = .ok
      (sliceAt raw 0 4, word16At raw 4, word16At raw 6, word32At raw 8, word32At raw 12,
        word64At raw 16, word64At raw 24, ()) := by
    apply unpackFrom_of_le
    exact Nat.not_lt.mp hlength
  refine bind_eq hhead ?_
  refine guard_eq Iff.rfl fun hmagic => ?_
  refine guard_eq Iff.rfl fun hversion => ?_
  refine guard_eq Iff.rfl fun hsize => ?_
  refine guard_eq Iff.rfl fun hexact => ?_
  have hdrop : (raw.drop headerSize).length = raw.length - 32 := List.length_drop
  have hminimum : calcsize base + maxAxes * 4 * 2 + 4 + maxAxes * calcsize condition + 74 = 458 := rfl
  have hbase : calcsize base = 124 := rfl
  refine guard_eq (d := raw.length < 490) (by omega) fun hpayload => ?_
  refine bind_eq (unpackFrom_of_le (by omega)) ?_
  have haxisCount : word32At (raw.drop headerSize) 120 = word32At raw 152 := word32At_drop 32 120
  refine guard_eq (d := 8 < (word32At raw 152).toNat) (by rw [← haxisCount]; rfl) fun haxes => ?_
  have height : calcsize (List.replicate 8 .i) = 32 := rfl
  refine bind_eq (unpackFrom_of_le (by omega)) ?_
  refine bind_eq (unpackFrom_of_le (by omega)) ?_
  refine bind_eq (unpackFrom_word32 (by omega)) ?_
  have hconditionCount : word32At (raw.drop headerSize) 188 = word32At raw 220 := word32At_drop 32 188
  refine guard_eq (d := 8 < (word32At raw 220).toNat) (by rw [← hconditionCount]; rfl)
    fun hconditions => ?_
  refine bind_eq (unpackConditions_eq (by omega)) ?_
  refine bind_eq (unpackFrom_word32 (by omega)) ?_
  refine bind_eq (unpackFrom_word32 (by omega)) ?_
  have hword : calcsize [.H] = 2 := rfl
  refine bind_eq (unpackFrom_of_le (by omega)) ?_
  have htextLength : word16At (raw.drop headerSize) 456 = word16At raw 488 := word16At_drop 32 456
  refine guard_eq (d := 63 < word16At raw 488 ∨ raw.length < 490 + textLengthAt raw) ?_
    fun htext => ?_
  · rw [textLengthAt, ← htextLength]
    refine or_congr Iff.rfl ?_
    show (raw.drop headerSize).length < 458 + (word16At (raw.drop headerSize) 456).toNat ↔ _
    omega
  have hlong : ¬ raw.length < 490 + textLengthAt raw := fun hshort => htext (.inr hshort)
  refine guard_eq (d := raw.length ≠ 490 + textLengthAt raw ∧ raw.length ≠ 494 + textLengthAt raw) ?_
    fun htrailing => ?_
  · rw [textLengthAt, ← htextLength] at hlong ⊢
    show (raw.drop headerSize).length - (458 + (word16At (raw.drop headerSize) 456).toNat) ≠ 0 ∧
      (raw.drop headerSize).length - (458 + (word16At (raw.drop headerSize) 456).toNat) ≠ 4 ↔ _
    omega
  refine bind_eq (unpackTail_eq ?_ ?_) (congrArg Except.ok ?_)
  · show 458 + (word16At (raw.drop headerSize) 456).toNat ≤ (raw.drop headerSize).length
    rw [hdrop, htextLength]
    simp only [textLengthAt] at hlong
    omega
  · rfl
  have hints : ∀ k, Values.ints 8 (unpack (raw.drop headerSize) k (List.replicate 8 .i)) =
      (List.range 8).map fun i => int32At raw (32 + k + i * 4) := by
    intro k
    simp only [ints_unpack, int32At_drop, headerSize, Nat.add_assoc]
  have hconditionsAt : (List.range 8).map (fun i => conditionAt (raw.drop headerSize) (192 + i * 24)) =
      (List.range 8).map fun i => conditionAt raw (224 + i * 24) := by
    simp only [conditionAt_drop, headerSize, ← Nat.add_assoc, Nat.reduceAdd]
  have htail : (raw.drop headerSize).length = 458 + (word16At (raw.drop headerSize) 456).toNat + 4 ↔
      raw.length = 494 + textLengthAt raw := by
    rw [hdrop, htextLength, textLengthAt]
    omega
  have hcode : ∀ k, word16At (raw.drop headerSize) (458 + (word16At (raw.drop headerSize) 456).toNat + k) =
      word16At raw (490 + textLengthAt raw + k) := by
    intro k
    rw [htextLength, textLengthAt, word16At_drop, ← Nat.add_assoc, ← Nat.add_assoc]
    rfl
  rw [frameAt]
  congr 1
  case e_effectGuid => exact sliceAt_drop 32 16 16
  case e_axes => exact congrArg₂ List.take (congrArg UInt32.toNat haxisCount) (hints 124)
  case e_directions => exact congrArg₂ List.take (congrArg UInt32.toNat haxisCount) (hints 156)
  case e_conditions => exact congrArg₂ List.take (congrArg UInt32.toNat hconditionCount) hconditionsAt
  case e_customRedacted => exact congrArg (· != 0) (word32At_drop 32 388)
  case e_buildVersion => exact fixedText_drop 32 392
  case e_sessionId => exact fixedText_drop 32 424
  case e_text =>
    refine congrArg (fun bytes => String.ofList (decodeReplace bytes)) ?_
    refine (sliceAt_drop 32 458 _).trans ?_
    exact congrArg (fun length : UInt16 => sliceAt raw 490 length.toNat) htextLength
  case e_effectKind =>
    refine (if_congr htail ?_ rfl)
    exact hcode 0
  case e_command =>
    refine (if_congr htail ?_ rfl)
    exact (hcode 2).trans (congrArg (word16At raw) (by omega))
  all_goals first | exact word32At_drop 32 _ | exact int32At_drop 32 _

end Payload

end FfbInterceptor.Viewer
