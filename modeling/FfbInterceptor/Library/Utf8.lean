import Mathlib.Data.List.Basic
import Mathlib.Data.UInt

/-! UTF-8 texts as byte lists: where a text may be cut. -/
namespace FfbInterceptor.Library

def utf8Bytes (text : List Char) : List UInt8 := text.flatMap String.utf8EncodeChar

def isContinuation (byte : UInt8) : Bool := byte &&& 0xC0 == 0x80

theorem isContinuation_iff (byte : UInt8) : isContinuation byte = true ↔ byte.toNat / 64 = 2 := by
  have hall : ∀ n : Fin 256, isContinuation (UInt8.ofNat n) = true ↔ (UInt8.ofNat n).toNat / 64 = 2 := by
    decide +kernel
  have h := hall ⟨byte.toNat, byte.toNat_lt⟩
  simpa using h

theorem isContinuation_ofNat {n : Nat} (h : n < 256) :
    isContinuation (UInt8.ofNat n) = decide (n / 64 = 2) := by
  have hiff := isContinuation_iff (UInt8.ofNat n)
  rw [UInt8.toNat_ofNat', Nat.mod_eq_of_lt (by omega)] at hiff
  rw [Bool.eq_iff_iff, hiff, decide_eq_true_iff]

theorem isContinuation_trailing (n : Nat) : isContinuation (UInt8.ofNat (n % 0x40 + 0x80)) = true := by
  have hbound := Nat.mod_lt n (show 0x40 > 0 by decide)
  rw [isContinuation_ofNat (by omega), decide_eq_true_iff]
  omega

theorem utf8EncodeChar_eq (c : Char) :
    ∃ first rest, String.utf8EncodeChar c = first :: rest ∧ isContinuation first = false ∧
      ∀ byte ∈ rest, isContinuation byte = true := by
  simp only [String.utf8EncodeChar]
  split
  · refine ⟨_, _, rfl, ?_, by simp⟩
    rw [isContinuation_ofNat (by omega), decide_eq_false_iff_not]
    omega
  · split
    · refine ⟨_, _, rfl, ?_, ?_⟩
      · rw [isContinuation_ofNat (by omega), decide_eq_false_iff_not]
        omega
      · simp only [List.mem_cons, List.not_mem_nil, or_false, forall_eq, isContinuation_trailing]
    · split
      · refine ⟨_, _, rfl, ?_, ?_⟩
        · rw [isContinuation_ofNat (by omega), decide_eq_false_iff_not]
          omega
        · simp only [List.mem_cons, List.not_mem_nil, or_false, forall_eq_or_imp, forall_eq,
          isContinuation_trailing, and_self]
      · refine ⟨_, _, rfl, ?_, ?_⟩
        · rw [isContinuation_ofNat (by omega), decide_eq_false_iff_not]
          omega
        · simp only [List.mem_cons, List.not_mem_nil, or_false, forall_eq_or_imp, forall_eq,
          isContinuation_trailing, and_self]

theorem ofNat_ne_zero {n : Nat} (h : n < 256) (hpos : 0 < n) : UInt8.ofNat n ≠ 0 := by
  intro hzero
  have htoNat := congrArg UInt8.toNat hzero
  rw [UInt8.toNat_ofNat', Nat.mod_eq_of_lt (by omega)] at htoNat
  simp at htoNat
  omega

theorem zero_notMem_utf8EncodeChar {c : Char} (h : c ≠ '\x00') : 0 ∉ String.utf8EncodeChar c := by
  have hpos : 0 < c.val.toNat := by
    apply Nat.pos_of_ne_zero
    intro hzero
    exact h (Char.ext (UInt32.toNat_inj.mp hzero))
  have hne : ∀ {n}, n < 256 → 0 < n → (0 : UInt8) ≠ UInt8.ofNat n := fun h h' => (ofNat_ne_zero h h').symm
  simp only [String.utf8EncodeChar]
  split
  · simp only [List.mem_singleton]
    exact hne (by omega) hpos
  · split
    · simp only [List.mem_cons, List.not_mem_nil, or_false, not_or]
      exact ⟨hne (by omega) (by omega), hne (by omega) (by omega)⟩
    · split
      · simp only [List.mem_cons, List.not_mem_nil, or_false, not_or]
        exact ⟨hne (by omega) (by omega), hne (by omega) (by omega), hne (by omega) (by omega)⟩
      · simp only [List.mem_cons, List.not_mem_nil, or_false, not_or]
        exact ⟨hne (by omega) (by omega), hne (by omega) (by omega), hne (by omega) (by omega),
          hne (by omega) (by omega)⟩

theorem utf8Bytes_toByteArray (text : List Char) :
    (utf8Bytes text).toByteArray = (String.ofList text).toByteArray := by
  rw [String.toByteArray_ofList]
  rfl

/-- Strict decoding gives back exactly the encoded texts. -/
theorem fromUTF8?_eq_some_iff {bytes : List UInt8} {text : String} :
    String.fromUTF8? bytes.toByteArray = some text ↔ bytes = utf8Bytes text.toList := by
  have hbytes : (utf8Bytes text.toList).toByteArray = text.toByteArray := by
    rw [utf8Bytes_toByteArray, String.ofList_toList]
  constructor
  · intro h
    rw [String.fromUTF8?] at h
    split at h
    · cases h
      exact List.toByteArray_inj.mp hbytes.symm
    · cases h
  · rintro rfl
    rw [hbytes, String.fromUTF8?, dif_pos text.isValidUTF8]
    rfl

section Replace

/-- Whether a character of more than two bytes may go on with `b1` behind its first byte `b0`. -/
def secondFits (b0 b1 : UInt8) : Bool :=
  if b0 = 0xE0 then 0xA0 ≤ b1 ∧ b1 ≤ 0xBF
  else if b0 = 0xED then 0x80 ≤ b1 ∧ b1 ≤ 0x9F
  else if b0 = 0xF0 then 0x90 ≤ b1 ∧ b1 ≤ 0xBF
  else if b0 = 0xF4 then 0x80 ≤ b1 ∧ b1 ≤ 0x8F
  else 0xE1 ≤ b0 ∧ b0 ≤ 0xF3 ∧ isContinuation b1

/-- How many bytes one replacement character stands for: the longest start of a character, or one. -/
def invalidLength : List UInt8 → Nat
  | b0 :: b1 :: b2 :: _ =>
    if secondFits b0 b1 then if 0xF0 ≤ b0 ∧ isContinuation b2 then 3 else 2 else 1
  | [b0, b1] => if secondFits b0 b1 then 2 else 1
  | _ => 1

def decodeReplaceFuel : Nat → List UInt8 → List Char
  | 0, _ => []
  | _, [] => []
  | fuel + 1, bytes =>
    match bytes.toByteArray.utf8DecodeChar? 0 with
    | some c => c :: decodeReplaceFuel fuel (bytes.drop c.utf8Size)
    | none => '\uFFFD' :: decodeReplaceFuel fuel (bytes.drop (invalidLength bytes))

/-- Decoding that puts a replacement character where the bytes are not UTF-8. -/
def decodeReplace (bytes : List UInt8) : List Char := decodeReplaceFuel bytes.length bytes

end Replace

theorem utf8Bytes_cons (c : Char) (text : List Char) :
    utf8Bytes (c :: text) = String.utf8EncodeChar c ++ utf8Bytes text := List.flatMap_cons

theorem decodeReplaceFuel_utf8Bytes {text : List Char} {fuel : Nat}
    (h : (utf8Bytes text).length ≤ fuel) : decodeReplaceFuel fuel (utf8Bytes text) = text := by
  induction text generalizing fuel with
  | nil => cases fuel <;> rfl
  | cons c text ih =>
    have hsize := c.utf8Size_pos
    rw [utf8Bytes_cons, List.length_append, String.length_utf8EncodeChar] at h
    have hne : String.utf8EncodeChar c ++ utf8Bytes text ≠ [] := by
      intro hnil
      have hlength := congrArg List.length hnil
      rw [List.length_append, String.length_utf8EncodeChar, List.length_nil] at hlength
      omega
    cases fuel with
    | zero => omega
    | succ fuel =>
      have hchar : (String.utf8EncodeChar c ++ utf8Bytes text).toByteArray.utf8DecodeChar? 0 = some c := by
        rw [List.toByteArray_append, ByteArray.utf8DecodeChar?_utf8EncodeChar_append]
      have hrest : (String.utf8EncodeChar c ++ utf8Bytes text).drop c.utf8Size = utf8Bytes text := by
        rw [← String.length_utf8EncodeChar, List.drop_left]
      rw [utf8Bytes_cons, decodeReplaceFuel, hchar]
      · have htail : (utf8Bytes text).length ≤ fuel := by omega
        simp only [hrest, ih htail]
      · exact hne

theorem decodeReplace_utf8Bytes (text : List Char) : decodeReplace (utf8Bytes text) = text :=
  decodeReplaceFuel_utf8Bytes (Nat.le_refl _)

/-- A cut that is not in front of a continuation byte keeps whole characters. -/
theorem take_utf8Bytes {text : List Char} {n : Nat} (hn : n ≤ (utf8Bytes text).length)
    (hcut : n < (utf8Bytes text).length → isContinuation ((utf8Bytes text).getD n 0) = false) :
    ∃ j, (utf8Bytes text).take n = utf8Bytes (text.take j) := by
  induction text generalizing n with
  | nil => exact ⟨0, by simp [utf8Bytes]⟩
  | cons c text ih =>
    obtain ⟨first, rest, hencode, -, hrest⟩ := utf8EncodeChar_eq c
    rw [utf8Bytes_cons] at hn hcut ⊢
    by_cases hinside : n < (String.utf8EncodeChar c).length
    · -- a cut within the character is in front of its first byte
      cases n with
      | zero => exact ⟨0, by simp [utf8Bytes]⟩
      | succ n =>
        rw [hencode, List.length_cons] at hinside
        have hlt : n < rest.length := by omega
        have hbyte := hcut (by
          rw [hencode, List.length_append, List.length_cons]
          omega)
        have hget : (String.utf8EncodeChar c ++ utf8Bytes text).getD (n + 1) 0 = rest[n] := by
          simp [hencode, List.getD, List.getElem?_append_left hlt, hlt]
        rw [hget, hrest rest[n] (List.getElem_mem hlt)] at hbyte
        cases hbyte
    · have hle := Nat.not_lt.mp hinside
      rw [List.length_append] at hn hcut
      obtain ⟨j, hj⟩ := ih (n := n - (String.utf8EncodeChar c).length) (by omega) (by
        intro hlt
        have hbyte := hcut (by omega)
        have hget : (String.utf8EncodeChar c ++ utf8Bytes text).getD n 0 =
            (utf8Bytes text).getD (n - (String.utf8EncodeChar c).length) 0 := by
          simp [List.getD, List.getElem?_append_right hle]
        rwa [hget] at hbyte)
      refine ⟨j + 1, ?_⟩
      rw [List.take_append, List.take_of_length_le hle, hj, List.take_succ_cons, utf8Bytes_cons]

theorem takeWhile_utf8Bytes (text : List Char) :
    (utf8Bytes text).takeWhile (· ≠ 0) = utf8Bytes (text.takeWhile (· ≠ '\x00')) := by
  induction text with
  | nil => rfl
  | cons c text ih =>
    rw [utf8Bytes_cons]
    by_cases hzero : c = '\x00'
    · rw [hzero]
      rfl
    · have hbytes : ∀ byte ∈ String.utf8EncodeChar c, decide (byte ≠ 0) = true := by
        intro byte hmem
        rw [decide_eq_true_iff]
        intro hbyte
        exact zero_notMem_utf8EncodeChar hzero (hbyte ▸ hmem)
      have hc : decide (c ≠ '\x00') = true := decide_eq_true hzero
      rw [List.takeWhile_append_of_pos hbytes, ih, List.takeWhile_cons, if_pos hc, utf8Bytes_cons]

end FfbInterceptor.Library
