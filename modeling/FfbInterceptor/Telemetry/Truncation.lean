import FfbInterceptor.Server.Agreement

/-! Cutting UTF-8 texts at whole code points (`telemetry_protocol.cpp`, `telemetry.cpp`). -/
namespace FfbInterceptor.Telemetry
open Library Protocol Server

section Basename

def MAX_PATH : Nat := 260

def decodeUtf16 : List UInt16 → Option (List Char)
  | [] => some []
  | [unit] => if unit < 0xD800 ∨ 0xDFFF < unit then some [Char.ofNat unit.toNat] else none
  | unit :: low :: rest =>
    if unit < 0xD800 ∨ 0xDFFF < unit then
      (decodeUtf16 (low :: rest)).map (Char.ofNat unit.toNat :: ·)
    else if unit < 0xDC00 ∧ 0xDC00 ≤ low ∧ low ≤ 0xDFFF then
      (decodeUtf16 rest).map
        (Char.ofNat (0x10000 + (unit.toNat - 0xD800) * 0x400 + (low.toNat - 0xDC00)) :: ·)
    else none

/-- `WideCharToMultiByte` with `WC_ERR_INVALID_CHARS`; `none` is a call that returns 0: nothing to
convert, a lone surrogate, or too small a buffer. -/
def wideCharToMultiByte (units : List UInt16) (capacity : Nat) : Option (List UInt8) :=
  if units = [] then none
  else (decodeUtf16 units).bind fun text =>
    if (utf8Bytes text).length ≤ capacity then some (utf8Bytes text) else none

def baseFrom (base : List UInt16) : List UInt16 → List UInt16
  | [] => base
  | unit :: rest =>
    baseFrom (if unit = '\\'.toNat.toUInt16 ∨ unit = '/'.toNat.toUInt16 then rest else base) rest

/-- The buffer and the length `utf8_basename` leaves; `GetModuleFileNameW` cuts the path at the
buffer's size, and a failing call leaves an empty one. -/
def utf8Basename {capacity : Nat} (out : Vector UInt8 capacity) (modulePath : List UInt16) :
    Vector UInt8 capacity × Nat :=
  let path := modulePath.take (MAX_PATH - 1)
  match wideCharToMultiByte (baseFrom path path) (MAX_PATH * 4) with
  | none => (out.setIfInBounds 0 0, 0)
  | some utf8 => (copyUtf8Truncated out utf8, truncatedLength capacity utf8)

theorem wideCharToMultiByte_utf8 {units : List UInt16} {capacity : Nat} {bytes : List UInt8}
    (h : wideCharToMultiByte units capacity = some bytes) : ∃ text, bytes = utf8Bytes text := by
  simp only [wideCharToMultiByte] at h
  split at h
  · cases h
  · obtain ⟨text, -, htext⟩ := Option.bind_eq_some_iff.mp h
    split at htext
    · exact ⟨text, (Option.some.inj htext).symm⟩
    · cases htext

theorem truncatedLength_nil (capacity : Nat) : truncatedLength capacity [] = 0 :=
  Nat.le_zero.mp ((truncatedLength_le capacity []).trans (Nat.min_le_left _ _))

theorem copyUtf8Truncated_nil {capacity : Nat} (out : Vector UInt8 capacity) :
    copyUtf8Truncated out [] = out.setIfInBounds 0 0 := by
  apply Vector.ext
  intro i hi
  rw [Vector.getElem_setIfInBounds]
  simp only [copyUtf8Truncated, truncatedLength_nil, Vector.getElem_ofFn, Nat.not_lt_zero, ↓reduceIte]
  by_cases hzero : i = 0
  · rw [if_pos hzero, if_pos hzero.symm]
  · rw [if_neg hzero, if_neg (Ne.symm hzero)]
    rfl

/-- Whatever the path of the executable, its basename is copied as the cut of some text. -/
theorem utf8Basename_eq {capacity : Nat} (out : Vector UInt8 capacity) (modulePath : List UInt16) :
    ∃ text, utf8Basename out modulePath =
      (copyUtf8Truncated out (utf8Bytes text), truncatedLength capacity (utf8Bytes text)) := by
  simp only [utf8Basename]
  split
  · refine ⟨[], ?_⟩
    rw [show utf8Bytes [] = [] from rfl, copyUtf8Truncated_nil, truncatedLength_nil]
  · rename_i utf8 h
    obtain ⟨text, rfl⟩ := wideCharToMultiByte_utf8 h
    exact ⟨text, rfl⟩

end Basename

section Greatest

theorem le_backOff {text : List UInt8} {q n : Nat} (hq : q ≤ n)
    (hstart : isContinuation (text.getD q 0) = false) : q ≤ backOff text n := by
  induction n with
  | zero => exact hq
  | succ n ih =>
    simp only [backOff]
    split
    · rename_i hcontinues
      have hne : q ≠ n + 1 := by
        intro heq
        rw [← heq, hstart] at hcontinues
        cases hcontinues
      exact ih (by omega)
    · exact hq

theorem utf8Bytes_append (front back : List Char) :
    utf8Bytes (front ++ back) = utf8Bytes front ++ utf8Bytes back := List.flatMap_append

theorem starts_after_take (text : List Char) (m : Nat) :
    isContinuation ((utf8Bytes text).getD (utf8Bytes (text.take m)).length 0) = false := by
  have hsplit : utf8Bytes text = utf8Bytes (text.take m) ++ utf8Bytes (text.drop m) := by
    rw [← utf8Bytes_append, List.take_append_drop]
  have hget : (utf8Bytes text).getD (utf8Bytes (text.take m)).length 0 =
      (utf8Bytes (text.drop m)).getD 0 0 := by
    rw [hsplit, List.getD, List.getElem?_append_right (Nat.le_refl _), Nat.sub_self]
    rfl
  rw [hget]
  cases text.drop m with
  | nil => rfl
  | cons c rest =>
    obtain ⟨first, tail, hencode, hfirst, -⟩ := utf8EncodeChar_eq c
    rw [utf8Bytes_cons, hencode]
    exact hfirst

theorem le_truncatedLength {text : List Char} {k m : Nat} (h : (utf8Bytes (text.take m)).length ≤ k) :
    (utf8Bytes (text.take m)).length ≤ truncatedLength (k + 1) (utf8Bytes text) := by
  have hsplit : utf8Bytes text = utf8Bytes (text.take m) ++ utf8Bytes (text.drop m) := by
    rw [← utf8Bytes_append, List.take_append_drop]
  have hsize : (utf8Bytes (text.take m)).length ≤ (utf8Bytes text).length := by
    rw [hsplit, List.length_append]
    exact Nat.le_add_right _ _
  have hmin : (utf8Bytes (text.take m)).length ≤ min (utf8Bytes text).length (k + 1 - 1) := by
    omega
  simp only [truncatedLength]
  split
  · exact le_backOff hmin (starts_after_take text m)
  · exact hmin

/-- The copied bytes, the NUL, and everything behind it as it was. -/
theorem toList_copyUtf8Truncated {k : Nat} (out : Vector UInt8 (k + 1)) (text : List UInt8) :
    (copyUtf8Truncated out text).toList = text.take (truncatedLength (k + 1) text) ++
      0 :: out.toList.drop (truncatedLength (k + 1) text + 1) := by
  have hle := truncatedLength_le (k + 1) text
  have htake : (text.take (truncatedLength (k + 1) text)).length = truncatedLength (k + 1) text := by
    rw [List.length_take]
    omega
  apply List.ext_getElem
  · simp only [Vector.length_toList, List.length_append, htake, List.length_cons, List.length_drop]
    omega
  · intro i hi hi'
    rw [Vector.length_toList] at hi
    have hcopied : (copyUtf8Truncated out text).toList[i] =
        if i < truncatedLength (k + 1) text then text.getD i 0
        else if i = truncatedLength (k + 1) text then 0 else out[i] := by
      simp [copyUtf8Truncated]
    rw [hcopied]
    by_cases hlt : i < truncatedLength (k + 1) text
    · have hinside : i < text.length := by omega
      rw [if_pos hlt, List.getElem_append_left (by omega), List.getElem_take]
      simp [hinside]
    · rw [if_neg hlt, List.getElem_append_right (by omega)]
      by_cases heq : i = truncatedLength (k + 1) text
      · simp only [heq, htake, Nat.sub_self, ↓reduceIte, List.getElem_cons_zero]
      · obtain ⟨j, rfl⟩ : ∃ j, i = truncatedLength (k + 1) text + 1 + j :=
          ⟨i - (truncatedLength (k + 1) text + 1), by omega⟩
        rw [if_neg heq]
        have hindex : truncatedLength (k + 1) text + 1 + j -
            (text.take (truncatedLength (k + 1) text)).length = j + 1 := by omega
        simp only [hindex, List.getElem_cons_succ, List.getElem_drop, Vector.getElem_toList]

/-- Of a text, a buffer of `k + 1` bytes gets the most whole characters that leave a byte for the
NUL. -/
structure CutWhole {k : Nat} (out : Vector UInt8 (k + 1)) (text : List Char) (count : Nat) : Prop where
  written : (copyUtf8Truncated out (utf8Bytes text)).toList =
    utf8Bytes (text.take count) ++ 0 :: out.toList.drop ((utf8Bytes (text.take count)).length + 1)
  returned : truncatedLength (k + 1) (utf8Bytes text) = (utf8Bytes (text.take count)).length
  fits : (utf8Bytes (text.take count)).length ≤ k
  longest : ∀ m, (utf8Bytes (text.take m)).length ≤ k →
    (utf8Bytes (text.take m)).length ≤ (utf8Bytes (text.take count)).length

theorem cutWhole {k : Nat} (out : Vector UInt8 (k + 1)) (text : List Char) :
    ∃ count, CutWhole out text count := by
  obtain ⟨count, hcount⟩ := take_truncatedLength (k + 1) text
  have hle := truncatedLength_le (k + 1) (utf8Bytes text)
  have hlength : truncatedLength (k + 1) (utf8Bytes text) = (utf8Bytes (text.take count)).length := by
    rw [← hcount, List.length_take]
    omega
  refine ⟨count, ?_, hlength, by omega, ?_⟩
  · rw [toList_copyUtf8Truncated, hcount, hlength]
  · intro m hm
    rw [← hlength]
    exact le_truncatedLength hm

end Greatest

/-- Texts are cut at whole code points, so every event a run sends passes the strict decoder. -/
theorem texts_whole (p : Producer) (actions : List (Action Event)) (h : p.Runs actions) :
    (∀ (k : Nat) (out : Vector UInt8 (k + 1)) (text : List Char), ∃ count, CutWhole out text count) ∧
    (∀ (k : Nat) (out : Vector UInt8 (k + 1)) (modulePath : List UInt16), ∃ text count,
      utf8Basename out modulePath =
        (copyUtf8Truncated out (utf8Bytes text), (utf8Bytes (text.take count)).length) ∧
      CutWhole out text count) ∧
    ∀ (sink : Fin kSinkCount), ∀ c ∈ ((State.after actions).sinks sink).connections,
      ∀ f ∈ written c,
        (∃ s, HoldsText (p.sentEvent f).buildVersion s) ∧
        (∃ s, HoldsText (p.sentEvent f).sessionId s) ∧ (∃ s, HoldsText (p.sentEvent f).text s) ∧
        decode (serializeEvent (p.sentEvent f)) = .ok (p.sentEvent f).delivered := by
  refine ⟨fun k out text => cutWhole out text, ?_, ?_⟩
  · intro k out modulePath
    obtain ⟨text, htext⟩ := utf8Basename_eq out modulePath
    obtain ⟨count, hcut⟩ := cutWhole out text
    exact ⟨text, count, hcut.returned ▸ htext, hcut⟩
  · intro sink c hc f hf
    have hsendable := (sendable_written h hc f hf).1
    exact ⟨hsendable.buildVersion, hsendable.sessionId, hsendable.text, hsendable.decode⟩

/-- The event of the example's run. -/
theorem lateViewer_whole :
    decode (serializeEvent (exampleProducer.sentEvent (.event ⟨1, pauseEvent⟩))) =
      .ok (exampleProducer.sentEvent (.event ⟨1, pauseEvent⟩)).delivered := by
  have hwhole := texts_whole exampleProducer (lateViewer pauseEvent 0) (runs_lateViewer 0)
  have hwritten : .event ⟨1, pauseEvent⟩ ∈ written (lateConnection 1) :=
    List.mem_cons_of_mem _ (List.mem_singleton_self _)
  exact (hwhole.2.2 viewerSink (lateConnection 1) (mem_lateConnection 0) _ hwritten).2.2.2

end FfbInterceptor.Telemetry
