import FfbInterceptor.Installer.PackageBoundary
import FfbInterceptor.Manager.IntegrityExact

/-! How the installer reads the texts that the manager takes for manifests. -/
namespace FfbInterceptor.Installer
open FfbInterceptor.Launcher FfbInterceptor.Library FfbInterceptor.Manager

section Letters

theorem wideUpper_wideLower (c : UInt16) : wideUpper (wideLower c) = wideUpper c := by
  simp only [wideUpper, wideLower, Bool.and_eq_true, decide_eq_true_eq, UInt16.le_iff_toNat_le]
  split
  · next hcapital =>
    have hsum : (c + 0x20).toNat = c.toNat + 32 := by
      rw [UInt16.toNat_add, Nat.mod_eq_of_lt]
      · rfl
      · simp only [UInt16.reduceToNat] at hcapital ⊢
        omega
    simp only [hsum, UInt16.reduceToNat] at hcapital ⊢
    rw [if_pos (by omega), if_neg (by omega)]
    exact UInt16.add_sub_cancel c 0x20
  · rfl

theorem wideUpper_le {c : UInt16} (h : c ≤ 0x7E) : wideUpper c ≤ 0x7E := by
  rw [wideUpper]
  split
  · next hsmall =>
    simp only [Bool.and_eq_true, decide_eq_true_eq, UInt16.le_iff_toNat_le] at hsmall h ⊢
    rw [UInt16.toNat_sub_of_le]
    · omega
    · rw [UInt16.le_iff_toNat_le]
      simp only [UInt16.reduceToNat] at hsmall ⊢
      omega
  · exact h

theorem le_of_wideLower_le {c : UInt16} (h : wideLower c ≤ 0x7E) : c ≤ 0x7E := by
  rw [wideLower] at h
  split at h
  · next hcapital =>
    simp only [Bool.and_eq_true, decide_eq_true_eq, UInt16.le_iff_toNat_le] at hcapital ⊢
    simp only [UInt16.reduceToNat] at hcapital ⊢
    omega
  · exact h

theorem wideLower_le {c : UInt16} (h : c ≤ 0x7E) : wideLower c ≤ 0x7E := by
  rw [wideLower]
  split
  · next hcapital =>
    simp only [Bool.and_eq_true, decide_eq_true_eq, UInt16.le_iff_toNat_le] at hcapital h ⊢
    rw [UInt16.toNat_add, Nat.mod_eq_of_lt]
    · simp only [UInt16.reduceToNat] at hcapital ⊢
      omega
    · simp only [UInt16.reduceToNat] at hcapital ⊢
      omega
  · exact h

variable (runtime : Runtime) {value other : WString}

theorem toUpper_eq_iff {c d : UInt16} (h : c ≤ 0x7E) :
    runtime.toUpper c = runtime.toUpper d ↔ wideLower c = wideLower d := by
  rw [runtime.toUpper_ascii c h]
  by_cases hd : d ≤ 0x7E
  · rw [runtime.toUpper_ascii d hd]
    constructor
    · intro heq
      rw [← wideLower_wideUpper c, heq, wideLower_wideUpper]
    · intro heq
      rw [← wideUpper_wideLower c, heq, wideUpper_wideLower]
  · constructor
    · intro heq
      exact absurd (heq ▸ wideUpper_le h) (UInt16.not_le.mpr (runtime.toUpper_beyond d
        (UInt16.not_le.mp hd)))
    · intro heq
      exact absurd (le_of_wideLower_le (heq ▸ wideLower_le h)) hd

theorem equals_iff (h : ∀ c ∈ value, c ≤ 0x7E) :
    runtime.equals value other = true ↔ lowerCopy value = lowerCopy other := by
  rw [Runtime.equals, decide_eq_true_eq]
  induction value generalizing other with
  | nil =>
    cases other with
    | nil => exact Iff.rfl
    | cons d other => simp [Runtime.toUpperInvariant, lowerCopy]
  | cons c value ih =>
    obtain ⟨hc, hvalue⟩ := List.forall_mem_cons.mp h
    cases other with
    | nil => simp [Runtime.toUpperInvariant, lowerCopy]
    | cons d other =>
      have htail := @ih other hvalue
      simp only [Runtime.toUpperInvariant, lowerCopy, List.map_cons, List.cons.injEq] at htail ⊢
      rw [toUpper_eq_iff runtime hc, htail]

theorem equals_comm (left right : WString) : runtime.equals left right = runtime.equals right left := by
  rw [Runtime.equals, Runtime.equals, Bool.eq_iff_iff, decide_eq_true_eq, decide_eq_true_eq, eq_comm]

theorem equals_append_left (start left right : WString) :
    runtime.equals (start ++ left) (start ++ right) = runtime.equals left right := by
  rw [Runtime.equals, Runtime.equals, Bool.eq_iff_iff, decide_eq_true_eq, decide_eq_true_eq,
    Runtime.toUpperInvariant, Runtime.toUpperInvariant, List.map_append, List.map_append,
    List.append_cancel_left_eq]
  rfl

theorem startsWith_append (start rest : WString) : runtime.startsWith (start ++ rest) start = true := by
  rw [Runtime.startsWith, List.isPrefixOf_iff_prefix, Runtime.toUpperInvariant,
    Runtime.toUpperInvariant, List.map_append]
  exact List.prefix_append _ _

theorem toLowerInvariant_eq (h : ∀ c ∈ value, c ≤ 0x7E) :
    runtime.toLowerInvariant value = lowerCopy value :=
  List.map_congr_left fun c hc => runtime.toLower_ascii c (h c hc)

theorem toUpperInvariant_eq (h : ∀ c ∈ value, c ≤ 0x7E) :
    runtime.toUpperInvariant value = value.map wideUpper :=
  List.map_congr_left fun c hc => runtime.toUpper_ascii c (h c hc)

theorem lowerCopy_lowerCopy (value : WString) : lowerCopy (lowerCopy value) = lowerCopy value := by
  rw [lowerCopy, lowerCopy, List.map_map]
  apply List.map_congr_left
  intro c hc
  rw [Function.comp_apply, ← wideLower_wideUpper (wideLower c), wideUpper_wideLower,
    wideLower_wideUpper]

theorem ascii_of_lowerCopy (h : ∀ c ∈ lowerCopy value, c ≤ 0x7E) : ∀ c ∈ value, c ≤ 0x7E := by
  intro c hc
  exact le_of_wideLower_le (h _ (List.mem_map_of_mem hc))

theorem ascii_lowerCopy (h : ∀ c ∈ value, c ≤ 0x7E) : ∀ c ∈ lowerCopy value, c ≤ 0x7E := by
  intro c hc
  obtain ⟨d, hd, rfl⟩ := List.mem_map.mp hc
  exact wideLower_le (h d hd)

end Letters

section Decoding
variable (runtime : Runtime) {bytes : List UInt8}

theorem isPrefixOf_eq_false {start : List UInt8} {mark : UInt8} (hmark : mark ∈ start)
    (hbeyond : 0x7E < mark) (h : ∀ c ∈ bytes, c ≤ 0x7E) : start.isPrefixOf bytes = false := by
  rw [Bool.eq_false_iff, ne_eq, List.isPrefixOf_iff_prefix]
  intro hstart
  exact UInt8.not_le.mpr hbeyond (h mark (hstart.subset hmark))

theorem isMarked_eq_false (h : ∀ c ∈ bytes, c ≤ 0x7E) : isMarked bytes = false := by
  rw [isMarked, @isPrefixOf_eq_false bytes [0xFE, 0xFF] 0xFF (by decide) (by decide) h,
    @isPrefixOf_eq_false bytes [0xFF, 0xFE] 0xFF (by decide) (by decide) h,
    @isPrefixOf_eq_false bytes [0x00, 0x00, 0xFE, 0xFF] 0xFF (by decide) (by decide) h]
  rfl

theorem unmarked_eq (h : ∀ c ∈ bytes, c ≤ 0x7E) : unmarked bytes = bytes := by
  rw [unmarked, @isPrefixOf_eq_false bytes [0xEF, 0xBB, 0xBF] 0xEF (by decide) (by decide) h]
  exact if_neg Bool.false_ne_true

def asciiText (bytes : List UInt8) : List Char := bytes.map fun c => Char.ofNat c.toNat

theorem toNat_asciiText {c : UInt8} (h : c ≤ 0x7E) : (Char.ofNat c.toNat).toNat = c.toNat := by
  have hall : ∀ n : Fin 127, (Char.ofNat n.val).toNat = n.val := by decide +kernel
  exact hall ⟨c.toNat, Nat.lt_succ_of_le (UInt8.le_iff_toNat_le.mp h)⟩

theorem utf8Bytes_asciiText (h : ∀ c ∈ bytes, c ≤ 0x7E) : utf8Bytes (asciiText bytes) = bytes := by
  induction bytes with
  | nil => rfl
  | cons c bytes ih =>
    obtain ⟨hc, hbytes⟩ := List.forall_mem_cons.mp h
    have hencode : String.utf8EncodeChar (Char.ofNat c.toNat) = [c] := by
      have hval : (Char.ofNat c.toNat).val.toNat = c.toNat := toNat_asciiText hc
      rw [UInt8.le_iff_toNat_le] at hc
      simp only [UInt8.reduceToNat] at hc
      rw [String.utf8EncodeChar]
      simp only [hval]
      rw [if_pos (by omega)]
      simp
    rw [asciiText, List.map_cons, utf8Bytes_cons, hencode]
    exact congrArg (c :: ·) (ih hbytes)

theorem wide_asciiText (h : ∀ c ∈ bytes, c ≤ 0x7E) :
    wide (String.ofList (asciiText bytes)) = asciiToWide bytes := by
  rw [wide, Engine.utf16Units, String.toList_ofList]
  induction bytes with
  | nil => rfl
  | cons c bytes ih =>
    obtain ⟨hc, hbytes⟩ := List.forall_mem_cons.mp h
    have hlow : c.toNat ≤ 0xFFFF := c.toNat_lt.le.trans (by decide)
    have hunit : c.toNat.toUInt16 = c.toUInt16 := by
      rw [← UInt16.toNat_inj, UInt8.toNat_toUInt16, Nat.toUInt16, UInt16.toNat_ofNat',
        Nat.mod_eq_of_lt (by omega)]
    rw [asciiText, List.map_cons, List.flatMap_cons, toNat_asciiText hc, if_pos hlow, hunit]
    exact congrArg (c.toUInt16 :: ·) (ih hbytes)

theorem decodeStrict_ascii (h : ∀ c ∈ bytes, c ≤ 0x7E) :
    runtime.decodeStrict bytes = some (asciiToWide bytes) := by
  have hdecoded : String.fromUTF8? bytes.toByteArray = some (String.ofList (asciiText bytes)) := by
    rw [fromUTF8?_eq_some_iff, String.toList_ofList, utf8Bytes_asciiText h]
  rw [Runtime.decodeStrict, isMarked_eq_false h, if_neg Bool.false_ne_true, unmarked_eq h, hdecoded,
    Option.map_some, wide_asciiText h]

theorem decodeReplacing_ascii (h : ∀ c ∈ bytes, c ≤ 0x7E) :
    runtime.decodeReplacing bytes = some (asciiToWide bytes) := by
  have hdecoded := decodeReplace_utf8Bytes (asciiText bytes)
  rw [utf8Bytes_asciiText h] at hdecoded
  rw [Runtime.decodeReplacing, isMarked_eq_false h, if_neg Bool.false_ne_true, unmarked_eq h, hdecoded,
    wide_asciiText h]

end Decoding

section Lines
variable {row : Row} {rows : List Row} {text : List UInt8}

theorem readLinesFrom_append {line : WString} (h : ∀ c ∈ line, c ≠ wideReturn ∧ c ≠ wideFeed)
    (start rest : WString) :
    readLinesFrom false start (line ++ rest) = readLinesFrom false (start ++ line) rest := by
  induction line generalizing start with
  | nil => rw [List.nil_append, List.append_nil]
  | cons c line ih =>
    obtain ⟨hc, hline⟩ := List.forall_mem_cons.mp h
    rw [List.cons_append, readLinesFrom, Bool.and_false, if_neg Bool.false_ne_true, if_neg hc.1,
      if_neg hc.2, ih hline, List.append_assoc, List.singleton_append]

theorem row_free (h : row.Valid) :
    ∀ c ∈ asciiToWide row.text, c ≠ wideReturn ∧ c ≠ wideFeed := by
  intro c hc
  obtain ⟨byte, hbyte, rfl⟩ := List.mem_map.mp hc
  have hle := UInt8.le_iff_toNat_le.mp (h.graphic byte hbyte)
  have hnat : byte.toUInt16.toNat = byte.toNat := UInt8.toNat_toUInt16 byte
  simp only [UInt8.reduceToNat] at hle
  constructor
  · intro heq
    rw [heq] at hnat
    simp only [wideReturn, UInt16.reduceToNat] at hnat
    omega
  · intro heq
    rw [heq] at hnat
    simp only [wideFeed, UInt16.reduceToNat] at hnat
    omega

theorem asciiToWide_append (left right : List UInt8) :
    asciiToWide (left ++ right) = asciiToWide left ++ asciiToWide right := List.map_append

theorem readLines_document (h : Document openTails text rows) (hvalid : ∀ row ∈ rows, row.Valid) :
    readLines (asciiToWide text) = rows.map fun row => asciiToWide row.text := by
  induction h with
  | nil => rfl
  | last row tail htail hne =>
    have hrow := hvalid row List.mem_cons_self
    rw [readLines, asciiToWide_append, readLinesFrom_append (row_free hrow), List.nil_append]
    simp only [openTails, List.mem_cons, List.not_mem_nil, or_false] at htail
    cases htail with
    | inl hnil =>
      rw [hnil, List.append_nil] at hne
      have hline : (asciiToWide row.text).isEmpty = false := by
        rw [List.isEmpty_eq_false_iff]
        exact fun heq => hne (List.map_eq_nil_iff.mp heq)
      have hend : asciiToWide ([] : List UInt8) = [] := rfl
      rw [hnil, hend, readLinesFrom, hline]
      rfl
    | inr hcr =>
      rw [hcr]
      rfl
  | line row lineEnd hrest ih =>
    obtain ⟨hrow, hrows⟩ := List.forall_mem_cons.mp hvalid
    rw [readLines, asciiToWide_append, readLinesFrom_append (row_free hrow), List.nil_append,
      asciiToWide_append, List.map_cons, ← ih hrows]
    cases lineEnd with
    | lf => rfl
    | crlf => rfl

theorem isHexCharacter_le {c : UInt8} (h : isHexCharacter c = true) : c ≤ 0x7E := by
  simp only [isHexCharacter, Bool.or_eq_true, Bool.and_eq_true, decide_eq_true_eq] at h
  obtain (h | h) | h := h
  · exact UInt8.le_trans h.2 (by decide)
  · exact UInt8.le_trans h.2 (by decide)
  · exact UInt8.le_trans h.2 (by decide)

theorem ascii_bytes {path : PathText} (h : path.Safe) : ∀ c ∈ path.bytes, c ≤ 0x7E := by
  intro c hc
  rw [PathText.bytes, List.mem_append, List.mem_flatMap] at hc
  cases hc with
  | inl hfirst => exact (h.first.printable c hfirst).2
  | inr hmore =>
    obtain ⟨next, hnext, hmem⟩ := hmore
    obtain ⟨hseparator, hsegment⟩ := h.more next hnext
    cases List.mem_cons.mp hmem with
    | inr hin => exact (hsegment.printable c hin).2
    | inl hself =>
      rw [hself]
      cases hseparator with
      | inl hslash => exact hslash ▸ by decide
      | inr hbackslash => exact hbackslash ▸ by decide

theorem ascii_row (h : row.Valid) : ∀ c ∈ row.text, c ≤ 0x7E := by
  cases row with
  | blank => exact fun c hc => absurd hc List.not_mem_nil
  | entry digest path =>
    obtain ⟨-, hdigest, hpath⟩ := h
    intro c hc
    rw [Row.text, List.mem_append, List.mem_append] at hc
    obtain hc | hc | hc := hc
    · exact isHexCharacter_le (hdigest c hc)
    · simp only [List.mem_cons, List.not_mem_nil, or_false, or_self] at hc
      exact hc ▸ by decide
    · exact ascii_bytes hpath c hc

theorem ascii_document (h : Document openTails text rows) (hvalid : ∀ row ∈ rows, row.Valid) :
    ∀ c ∈ text, c ≤ 0x7E := by
  induction h with
  | nil => exact fun c hc => absurd hc List.not_mem_nil
  | last row tail htail hne =>
    intro c hc
    cases List.mem_append.mp hc with
    | inl hin => exact ascii_row (hvalid row List.mem_cons_self) c hin
    | inr hin =>
      simp only [openTails, List.mem_cons, List.not_mem_nil, or_false] at htail
      cases htail with
      | inl hnil => exact absurd hin (hnil ▸ List.not_mem_nil)
      | inr hcr =>
        rw [hcr, List.mem_singleton] at hin
        exact hin ▸ by decide
  | line row lineEnd hrest ih =>
    obtain ⟨hrow, hrows⟩ := List.forall_mem_cons.mp hvalid
    intro c hc
    rcases List.mem_append.mp hc with hc | hc
    · exact ascii_row hrow c hc
    · rcases List.mem_append.mp hc with hc | hc
      · have hends : ∀ e ∈ lineEnd.bytes, e ≤ 0x7E := by
          cases lineEnd with
          | lf => decide +kernel
          | crlf => decide +kernel
        exact hends c hc
      · exact ih hrows c hc

end Lines

end FfbInterceptor.Installer
