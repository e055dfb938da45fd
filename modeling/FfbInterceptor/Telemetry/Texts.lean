import Mathlib.Data.List.TakeWhile
import FfbInterceptor.Telemetry.Wrappers

/-! The text buffers of an event always hold terminated UTF-8. -/
namespace FfbInterceptor.Telemetry
open Library Protocol

section Buffers

variable {capacity : Nat}

theorem toList_of_start (buffer : Vector UInt8 capacity) (bytes : List UInt8)
    (hlength : bytes.length < capacity)
    (hbytes : ∀ i (h : i < bytes.length), buffer[i] = bytes[i])
    (hzero : buffer[bytes.length] = 0) :
    ∃ tail, buffer.toList = bytes ++ 0 :: tail := by
  have hcapacity : buffer.toList.length = capacity := Vector.length_toList
  have htake : buffer.toList.take bytes.length = bytes := by
    apply List.ext_getElem
    · rw [List.length_take, hcapacity]
      omega
    · intro i hi hi'
      rw [List.getElem_take, Vector.getElem_toList]
      exact hbytes i hi'
  refine ⟨buffer.toList.drop (bytes.length + 1), ?_⟩
  have hdrop : buffer.toList.drop bytes.length = 0 :: buffer.toList.drop (bytes.length + 1) := by
    rw [List.drop_eq_getElem_cons (by omega), Vector.getElem_toList, hzero]
  rw [← hdrop]
  conv_lhs => rw [← List.take_append_drop bytes.length buffer.toList, htake]

theorem cString_append_zero (bytes tail : List UInt8) :
    cString (bytes ++ 0 :: tail) = cString bytes := by
  induction bytes with
  | nil => rfl
  | cons byte bytes ih =>
    by_cases hzero : byte = 0
    · simp [cString, hzero]
    · simp only [cString] at ih
      simp only [List.cons_append, cString, List.takeWhile_cons, ih]

theorem holdsText_of_toList {buffer : Vector UInt8 capacity} {text : List Char} {tail : List UInt8}
    (h : buffer.toList = utf8Bytes text ++ 0 :: tail) :
    HoldsText buffer (String.ofList (text.takeWhile (· ≠ '\x00'))) where
  terminated := by simp [h]
  bytes := by
    rw [h, cString_append_zero, cString, takeWhile_utf8Bytes, utf8Bytes_toByteArray]

theorem holdsText_zero {n : Nat} : HoldsText (Vector.replicate (n + 1) 0) "" := by
  have h : (Vector.replicate (n + 1) (0 : UInt8)).toList = utf8Bytes [] ++ 0 :: List.replicate n 0 := by
    simp [utf8Bytes, List.replicate_succ]
  exact holdsText_of_toList h

end Buffers

section Truncation

theorem backOff_le (text : List UInt8) (n : Nat) : backOff text n ≤ n := by
  induction n with
  | zero => exact Nat.le_refl 0
  | succ n ih =>
    simp only [backOff]
    split
    · omega
    · exact Nat.le_refl _

theorem truncatedLength_le (capacity : Nat) (text : List UInt8) :
    truncatedLength capacity text ≤ min text.length (capacity - 1) := by
  simp only [truncatedLength]
  split
  · exact backOff_le _ _
  · exact Nat.le_refl _

/-- The loop stops at the start of the text or in front of a byte that starts a character. -/
theorem backOff_spec (text : List UInt8) (n : Nat) :
    backOff text n = 0 ∨ isContinuation (text.getD (backOff text n) 0) = false := by
  induction n with
  | zero => exact Or.inl rfl
  | succ n ih =>
    simp only [backOff]
    split
    · exact ih
    · rename_i h
      exact Or.inr (Bool.eq_false_iff.mpr h)

/-- What is copied of a text is a number of its whole characters. -/
theorem take_truncatedLength (capacity : Nat) (text : List Char) :
    ∃ j, (utf8Bytes text).take (truncatedLength capacity (utf8Bytes text)) =
      utf8Bytes (text.take j) := by
  have hle := truncatedLength_le capacity (utf8Bytes text)
  by_cases hzero : truncatedLength capacity (utf8Bytes text) = 0
  · exact ⟨0, by rw [hzero]; rfl⟩
  · apply take_utf8Bytes (by omega)
    intro hlt
    simp only [truncatedLength] at hzero hlt ⊢
    split at hzero
    · rename_i hcut
      rw [if_pos hcut]
      cases backOff_spec (utf8Bytes text) (min (utf8Bytes text).length (capacity - 1)) with
      | inl h => exact absurd h hzero
      | inr h => exact h
    · rename_i hcut
      rw [if_neg hcut] at hlt
      omega

theorem holdsText_copy {capacity : Nat} (hcapacity : 0 < capacity) (out : Vector UInt8 capacity)
    (text : List Char) : ∃ s, HoldsText (copyUtf8Truncated out (utf8Bytes text)) s := by
  obtain ⟨j, hj⟩ := take_truncatedLength capacity text
  have hle := truncatedLength_le capacity (utf8Bytes text)
  have hlength : ((utf8Bytes text).take (truncatedLength capacity (utf8Bytes text))).length =
      truncatedLength capacity (utf8Bytes text) := by
    rw [List.length_take]
    omega
  obtain ⟨tail, htail⟩ := toList_of_start (copyUtf8Truncated out (utf8Bytes text))
    ((utf8Bytes text).take (truncatedLength capacity (utf8Bytes text))) (by omega)
    (by
      intro i hi
      have hcopied : i < truncatedLength capacity (utf8Bytes text) := by omega
      have hinside : i < (utf8Bytes text).length := by omega
      simp [copyUtf8Truncated, hcopied, hinside])
    (by simp [copyUtf8Truncated, hlength])
  rw [hj] at htail
  exact ⟨_, holdsText_of_toList htail⟩

theorem holdsText_printed {capacity : Nat} {text : List Char}
    (hlength : (utf8Bytes text).length < capacity) (hnul : '\x00' ∉ text) :
    HoldsText (printed capacity text) (String.ofList text) := by
  have htake : (utf8Bytes text).take (capacity - 1) = utf8Bytes text :=
    List.take_of_length_le (by omega)
  obtain ⟨tail, htail⟩ := toList_of_start (printed capacity text) (utf8Bytes text) hlength
    (by
      intro i hi
      simp [printed, filled, htake, hi])
    (by simp [printed, filled, htake])
  have htext : text.takeWhile (· ≠ '\x00') = text := by
    apply List.takeWhile_eq_self_iff.mpr
    intro c hc
    exact decide_eq_true fun h => hnul (h ▸ hc)
  have hholds := holdsText_of_toList htail
  rwa [htext] at hholds

end Truncation

section Session

variable (p : Producer)

theorem sessionText_spec : ∀ c ∈ p.sessionText, c.isDigit = true ∨ c = '-' := by
  intro c hc
  simp only [Producer.sessionText, List.mem_append, List.mem_cons] at hc
  obtain hc | hc | hc := hc
  · exact Or.inl (Nat.isDigit_of_mem_toDigits (by decide) (by decide) hc)
  · exact Or.inr hc
  · exact Or.inl (Nat.isDigit_of_mem_toDigits (by decide) (by decide) hc)

theorem sessionText_length : 1 ≤ p.sessionText.length ∧ p.sessionText.length ≤ 31 := by
  have hid : (Nat.toDigits 10 p.processId.toNat).length ≤ 10 := by
    rw [Nat.length_toDigits_le_iff (by decide) (by decide)]
    exact p.processId.toNat_lt.trans (by decide)
  have hticks : (Nat.toDigits 10 p.sessionTicks.toNat).length ≤ 20 := by
    rw [Nat.length_toDigits_le_iff (by decide) (by decide)]
    exact p.sessionTicks.toNat_lt.trans (by decide)
  simp only [Producer.sessionText, List.length_append, List.length_cons]
  omega

theorem toNat_lt_of_digit {c : Char} (h : c.isDigit = true ∨ c = '-') : c.toNat < 128 := by
  cases h with
  | inl h =>
    have hnine : ('9' : Char).toNat = 57 := rfl
    have hdigit := (Char.isDigit_iff_toNat.mp h).2
    omega
  | inr h =>
    rw [h]
    decide

theorem length_utf8Bytes_of_ascii {text : List Char} (h : ∀ c ∈ text, c.toNat < 128) :
    (utf8Bytes text).length = text.length := by
  induction text with
  | nil => rfl
  | cons c text ih =>
    have hc : c.val.toNat ≤ 127 := Nat.le_of_lt_succ (h c (List.mem_cons_self ..))
    have hencode : (String.utf8EncodeChar c).length = 1 := by
      simp only [String.utf8EncodeChar, hc, ↓reduceIte, List.length_singleton]
    rw [utf8Bytes_cons, List.length_append, hencode,
      ih fun d hd => h d (List.mem_cons_of_mem c hd), List.length_cons]
    omega

theorem holdsText_session : HoldsText (printed 32 p.sessionText) (String.ofList p.sessionText) := by
  have hascii : ∀ c ∈ p.sessionText, c.toNat < 128 :=
    fun c hc => toNat_lt_of_digit (sessionText_spec p c hc)
  have hlength := sessionText_length p
  apply holdsText_printed
  · rw [length_utf8Bytes_of_ascii hascii]
    omega
  · intro hnul
    cases sessionText_spec p _ hnul with
    | inl h => cases h
    | inr h => cases h

end Session

section Sendable

structure Sendable (p : Producer) (event : Event) : Prop where
  processId : event.processId = p.processId
  axisCount : event.axisCount.toNat ≤ kMaxAxes
  conditionCount : event.conditionCount.toNat ≤ kMaxAxes
  buildVersion : ∃ s, HoldsText event.buildVersion s
  sessionId : ∃ s, HoldsText event.sessionId s
  text : ∃ s, HoldsText event.text s

variable {p : Producer}

theorem sendable_of_captured {start event : Event} (h : Captured start event)
    (hstart : Sendable p start) : Sendable p event where
  processId := h.processId.trans hstart.processId
  axisCount := h.axisCount
  conditionCount := h.conditionCount
  buildVersion := h.buildVersion ▸ hstart.buildVersion
  sessionId := h.sessionId ▸ hstart.sessionId
  text := h.text ▸ hstart.text

theorem sendable_of_zero {event : Event} (hid : event.processId = p.processId)
    (haxes : event.axisCount = 0) (hconditions : event.conditionCount = 0)
    (hbuild : event.buildVersion = Vector.replicate 32 0)
    (hsession : event.sessionId = Vector.replicate 32 0)
    (htext : event.text = Vector.replicate 64 0) : Sendable p event where
  processId := hid
  axisCount := haxes ▸ Nat.zero_le _
  conditionCount := hconditions ▸ Nat.zero_le _
  buildVersion := ⟨"", hbuild ▸ holdsText_zero⟩
  sessionId := ⟨"", hsession ▸ holdsText_zero⟩
  text := ⟨"", htext ▸ holdsText_zero⟩

theorem sendable_filled (win64 : Bool) (effect : Option DIEFFECT) {start : Event}
    (h : Sendable p start) (htype : start.type ≠ .hello) :
    Sendable p (fillEffectParameters win64 effect start) ∧
      (fillEffectParameters win64 effect start).type ≠ .hello := by
  have hcaptured := captured_fillEffectParameters win64 effect h.axisCount h.conditionCount
  exact ⟨sendable_of_captured hcaptured h, hcaptured.type ▸ htype⟩

theorem sendable_effectCommand (ids : Producer.EffectIds) (command : EffectCommand) (hr : Int32)
    (flags iterations : UInt32) (qpcTicks : UInt64) :
    Sendable p (p.effectCommand ids command hr flags iterations qpcTicks) ∧
      (p.effectCommand ids command hr flags iterations qpcTicks).type ≠ .hello :=
  ⟨sendable_of_zero rfl rfl rfl rfl rfl rfl, nofun⟩

/-- Every event of the wrappers can be sent, and none is a Hello. -/
theorem sendable_wrapped {event : Event} (h : p.Wrapped event) :
    Sendable p event ∧ event.type ≠ .hello := by
  cases h with
  | emitEffect => exact sendable_filled _ _ (sendable_of_zero rfl rfl rfl rfl rfl rfl) nofun
  | emitProperty => exact ⟨sendable_of_zero rfl rfl rfl rfl rfl rfl, nofun⟩
  | emitDeviceCommand => exact ⟨sendable_of_zero rfl rfl rfl rfl rfl rfl, nofun⟩
  | emitDevice id guid hr name =>
    refine ⟨⟨rfl, Nat.zero_le _, Nat.zero_le _, ⟨"", holdsText_zero⟩, ⟨"", holdsText_zero⟩, ?_⟩, nofun⟩
    exact holdsText_copy (by decide) _ name
  | setParameters => exact sendable_filled _ _ (sendable_of_zero rfl rfl rfl rfl rfl rfl) nofun
  | start | stop | download | unload | release => exact sendable_effectCommand ..

theorem sendable_stamped {e : Sequenced Event} (h : Sendable p e.event) : Sendable p (p.stamped e) :=
  { h with }

theorem sendable_dropNotice (sequence dropped : Nat) : Sendable p (p.dropNotice sequence dropped) :=
  sendable_of_zero rfl rfl rfl rfl rfl rfl

theorem sendable_helloEvent : Sendable p p.helloEvent where
  processId := rfl
  axisCount := Nat.zero_le _
  conditionCount := Nat.zero_le _
  buildVersion := ⟨_, holdsText_printed (by decide) (by decide)⟩
  sessionId := ⟨_, holdsText_session p⟩
  text := holdsText_copy (by decide) _ p.basename

end Sendable

end FfbInterceptor.Telemetry
