import FfbInterceptor.Release.BuildPolicy

/-! The check of the build policy accepts exactly the images whose one marker is constant data of one
section, and it reads no byte outside the file. -/
namespace FfbInterceptor.Release
open FfbInterceptor.Library
open FfbInterceptor.Manager (ascii)

section Image

variable (bytes : List UInt8)

def peOffset : Nat := (word32At bytes 0x3C).toNat

def sectionCount : Nat := (word16At bytes (peOffset bytes + 6)).toNat

def optionalHeaderSize : Nat := (word16At bytes (peOffset bytes + 20)).toNat

def optionalMagic : Nat := (word16At bytes (peOffset bytes + 24)).toNat

def sectionTableOffset : Nat := peOffset bytes + 24 + optionalHeaderSize bytes

def sectionOffset (index : Nat) : Nat := sectionTableOffset bytes + index * 40

/-- The headers of an image lie in its file, up to the end of the section table. -/
structure ImageHeaders : Prop where
  dos : 64 ≤ bytes.length ∧ ascii "MZ" <+: bytes
  signature : peOffset bytes + 24 ≤ bytes.length ∧ ascii "PE" ++ [0, 0] <+: bytes.drop (peOffset bytes)
  count : 1 ≤ sectionCount bytes ∧ sectionCount bytes ≤ 96
  optional : 2 ≤ optionalHeaderSize bytes ∧ sectionTableOffset bytes ≤ bytes.length
  magic : optionalMagic bytes = 0x10B ∨ optionalMagic bytes = 0x20B
  table : sectionOffset bytes (sectionCount bytes) ≤ bytes.length

def sectionHeaderAt (offset : Nat) : SectionHeader where
  name := sectionNameAt bytes offset
  virtualSize := (word32At bytes (offset + 8)).toNat
  rawSize := (word32At bytes (offset + 16)).toNat
  rawOffset := (word32At bytes (offset + 20)).toNat
  characteristics := (word32At bytes (offset + 36)).toNat

end Image

/-- Each position of the raw range is one of the file. -/
def SectionHeader.RawInside (header : SectionHeader) (size : Nat) : Prop :=
  ∀ position, header.rawOffset ≤ position → position < header.rawOffset + header.rawSize →
    position < size

/-- The whole marker lies within the raw and within the virtual size. -/
def SectionHeader.HoldsMarker (header : SectionHeader) (place : Nat) : Prop :=
  header.rawOffset ≤ place ∧ place + markerLength ≤ header.rawOffset + header.rawSize ∧
    place + markerLength ≤ header.rawOffset + header.virtualSize

structure SectionHeader.ReadOnlyData (header : SectionHeader) : Prop where
  initialized : header.characteristics &&& imageScnCntInitializedData ≠ 0
  readable : header.characteristics &&& imageScnMemRead ≠ 0
  notWritable : header.characteristics &&& imageScnMemWrite = 0
  notExecutable : header.characteristics &&& imageScnMemExecute = 0

structure OnlyMarker (bytes signer : List UInt8) (place : Nat) : Prop where
  once : ∀ other, policyPrefix <+: bytes.drop other ↔ other = place
  wellFormed : markerText signer <+: bytes.drop place
  digits : signer.length = 64 ∧ ∀ c ∈ signer, isUpperHex c

/-- All that is asked of an image but the name of the section. -/
structure PolicyImage (bytes signer : List UInt8) (place index : Nat) : Prop where
  size : 0 < bytes.length ∧ bytes.length ≤ 33554432
  marker : OnlyMarker bytes signer place
  headers : ImageHeaders bytes
  ranges : ∀ i < sectionCount bytes,
    (sectionHeaderAt bytes (sectionOffset bytes i)).RawInside bytes.length
  only : ∀ i, (i < sectionCount bytes ∧
    (sectionHeaderAt bytes (sectionOffset bytes i)).HoldsMarker place) ↔ i = index
  constant : (sectionHeaderAt bytes (sectionOffset bytes index)).ReadOnlyData

def RdataAt (bytes : List UInt8) (offset : Nat) : Prop :=
  sliceAt bytes offset 8 = ascii ".rdata" ++ [0, 0]

def PolicyEmbedded (bytes signer : List UInt8) : Prop :=
  ∃ place index, PolicyImage bytes signer place index ∧ RdataAt bytes (sectionOffset bytes index)

/-- The name of the section that holds the marker is another one than `.rdata`, but the comparison does
not tell them apart. -/
def Masquerades (ceq : List UInt8 → List UInt8 → Bool) (bytes : List UInt8) : Prop :=
  ∃ signer place index, PolicyImage bytes signer place index ∧
    ¬ RdataAt bytes (sectionOffset bytes index) ∧
      ceq (sectionNameAt bytes (sectionOffset bytes index)) (ascii ".rdata")

/-- An error of the script's own. -/
def Refused (error : PolicyError) : Prop := error ≠ .outside

variable {bytes text signer : List UInt8} {offset place index : Nat}

section Reads

theorem refused (refusal : PolicyRefusal) : Refused (.refused refusal) := nofun

theorem require_decides (condition : Prop) [Decidable condition] (refusal : PolicyRefusal) :
    Decides Refused (require condition refusal) fun a => condition ∧ a = () :=
  Decides.guarded (refused refusal)

theorem readFFBUInt16_eq (h : offset + 2 ≤ bytes.length) :
    readFFBUInt16 bytes offset = .ok (word16At bytes offset).toNat := by
  rw [readFFBUInt16, if_neg (by omega), Int.toNat_natCast]

theorem readFFBUInt32_eq (h : offset + 4 ≤ bytes.length) :
    readFFBUInt32 bytes offset = .ok (word32At bytes offset).toNat := by
  rw [readFFBUInt32, if_neg (by omega), Int.toNat_natCast]

theorem byteAt_eq (h : offset < bytes.length) : byteAt bytes offset = .ok (bytes.getD offset 0) := by
  rw [byteAt, if_pos (by omega), Int.toNat_natCast]

theorem readSectionName_eq (h : offset + 8 ≤ bytes.length) :
    readSectionName bytes offset = .ok (sectionNameAt bytes offset) := by
  rw [readSectionName, if_pos (by omega), Int.toNat_natCast]

theorem readSection_eq (h : offset + 40 ≤ bytes.length) :
    readSection bytes offset = .ok (sectionHeaderAt bytes offset) := by
  have hvirtual := @readFFBUInt32_eq bytes (offset + 8) (by omega)
  have hsize := @readFFBUInt32_eq bytes (offset + 16) (by omega)
  have hraw := @readFFBUInt32_eq bytes (offset + 20) (by omega)
  have hflags := @readFFBUInt32_eq bytes (offset + 36) (by omega)
  rw [Nat.cast_add] at hvirtual hsize hraw hflags
  rw [Nat.cast_ofNat] at hvirtual hsize hraw hflags
  rw [readSection, readSectionName_eq (by omega)]
  simp only [hvirtual, hsize, hraw, hflags]
  rfl

end Reads

section Markers

/-- A byte that the ASCII text keeps, and that stands for no other byte in it. -/
def Faithful (c : UInt8) : Prop := c < 0x80 ∧ c ≠ 0x3F

theorem asciiByte_eq_iff {c : UInt8} (h : Faithful c) (byte : UInt8) :
    c = (if byte < 0x80 then byte else 0x3F) ↔ c = byte := by
  split
  · exact Iff.rfl
  next hlarge =>
    refine ⟨fun heq => absurd heq h.2, fun heq => absurd (heq ▸ h.1) hlarge⟩

theorem pattern_asciiString_iff {pattern : List UInt8} (h : ∀ c ∈ pattern, Faithful c) :
    pattern <+: (asciiString bytes).drop place ↔ pattern <+: bytes.drop place := by
  rw [asciiString, ← List.map_drop]
  generalize bytes.drop place = text
  induction pattern generalizing text with
  | nil => simp only [ List.nil_prefix]
  | cons c pattern ih =>
    cases text with
    | nil => exact Iff.rfl
    | cons byte text =>
      rw [List.map_cons, List.cons_prefix_cons, List.cons_prefix_cons,
        asciiByte_eq_iff (h c List.mem_cons_self), ih fun c hc => h c (List.mem_cons_of_mem _ hc)]

instance : DecidablePred Faithful := fun c => inferInstanceAs (Decidable (c < 0x80 ∧ c ≠ 0x3F))

theorem faithful_of_isUpperHex {c : UInt8} (h : isUpperHex c) : Faithful c := by
  simp only [isUpperHex, Bool.or_eq_true, Bool.and_eq_true, decide_eq_true_eq,
    UInt8.le_iff_toNat_le] at h
  simp only [Faithful, UInt8.lt_iff_toNat_lt, ne_eq, ← UInt8.toNat_inj]
  change (0x41 ≤ c.toNat ∧ c.toNat ≤ 0x46) ∨ (0x30 ≤ c.toNat ∧ c.toNat ≤ 0x39) at h
  change c.toNat < 0x80 ∧ ¬ c.toNat = 0x3F
  omega

theorem faithful_markerText (h : ∀ c ∈ signer, isUpperHex c) : ∀ c ∈ markerText signer, Faithful c := by
  have hfixed : ∀ c ∈ markerHead ++ markerTail, Faithful c := by decide +kernel
  intro c hc
  rw [markerText, List.append_assoc] at hc
  cases List.mem_append.mp hc with
  | inl hc => exact hfixed c (List.mem_append_left _ hc)
  | inr hc =>
    cases List.mem_append.mp hc with
    | inl hc => exact faithful_of_isUpperHex (h c hc)
    | inr hc => exact hfixed c (List.mem_append_right _ hc)

theorem matchPrefix_eq_some_iff (found : Unit) :
    matchPrefix text = some found ↔ policyPrefix <+: text := by
  rw [matchPrefix, ← List.isPrefixOf_iff_prefix]
  split
  next h => simp only [h]
  next h => simp only [h, reduceCtorEq]

theorem matchMarker_eq_some_iff : matchMarker text = some signer ↔
    markerText signer <+: text ∧ signer.length = 64 ∧ ∀ c ∈ signer, isUpperHex c := by
  simp only [matchMarker, Bool.and_eq_true, List.isPrefixOf_iff_prefix, decide_eq_true_eq,
    List.all_eq_true, and_assoc]
  constructor
  · intro h
    split at h
    next hmatch =>
      cases h
      exact hmatch
    next => cases h
  · intro h
    have hsigner : sliceAt text markerHead.length 64 = signer := by
      obtain ⟨rest, hrest⟩ := h.1
      rw [← hrest, markerText, sliceAt, List.append_assoc, List.append_assoc, List.drop_left, ← h.2.1,
        List.take_left]
    rw [hsigner, if_pos h]

theorem policyPrefix_of_markerText (h : markerText signer <+: text) : policyPrefix <+: text := by
  refine List.IsPrefix.trans ?_ h
  rw [markerText, markerHead, List.append_assoc, List.append_assoc]
  exact List.prefix_append _ _

theorem policyPrefix_apart (text : List UInt8) :
    Scanning.Apart matchPrefix policyPrefix.length text := by
  have hword : policyPrefix = ascii "FFB_MANAGER_BUILD_POLICY_V1" ++ [0x7C] := by decide
  have hlength : policyPrefix.length = (ascii "FFB_MANAGER_BUILD_POLICY_V1").length + 1 := by decide
  rw [hlength]
  have hlast : (0x7C : UInt8) ∉ ascii "FFB_MANAGER_BUILD_POLICY_V1" := by decide
  refine Scanning.apart_of_last hlast fun text found h => ?_
  rw [← hword]
  exact (matchPrefix_eq_some_iff found).mp h

theorem prefixMatches_iff : Scanning.MatchesAt matchPrefix (asciiString bytes) place () ↔
    policyPrefix <+: bytes.drop place := by
  have hfaithful : ∀ c ∈ policyPrefix, Faithful c := by decide +kernel
  rw [Scanning.MatchesAt, matchPrefix_eq_some_iff, pattern_asciiString_iff hfaithful]

theorem markerMatches_iff : Scanning.MatchesAt matchMarker (asciiString bytes) place signer ↔
    markerText signer <+: bytes.drop place ∧ signer.length = 64 ∧ ∀ c ∈ signer, isUpperHex c := by
  rw [Scanning.MatchesAt, matchMarker_eq_some_iff]
  exact and_congr_left fun h => pattern_asciiString_iff (faithful_markerText h.2)

theorem onePrefix_iff :
    Scanning.allMatches matchPrefix policyPrefix.length 0 0 (asciiString bytes) = [(place, ())] ↔
      ∀ other, policyPrefix <+: bytes.drop other ↔ other = place := by
  rw [Scanning.allMatches_eq_singleton_iff rfl (policyPrefix_apart _), prefixMatches_iff]
  constructor
  · intro h other
    refine ⟨fun hother => h.2 other () (Iff.mpr prefixMatches_iff hother), fun heq => ?_⟩
    rw [heq]
    exact h.1
  · intro h
    exact ⟨(h place).mpr rfl, fun other _ hother => (h other).mp (Iff.mp prefixMatches_iff hother)⟩

/-- A marker starts where the one prefix is. -/
theorem markerMatches_place (honce : ∀ other, policyPrefix <+: bytes.drop other ↔ other = place)
    {found : Nat} (h : Scanning.MatchesAt matchMarker (asciiString bytes) found signer) :
    found = place :=
  (honce found).mp (policyPrefix_of_markerText (Iff.mp markerMatches_iff h).1)

theorem oneMarker_iff (honce : ∀ other, policyPrefix <+: bytes.drop other ↔ other = place)
    {found : Nat} :
    Scanning.allMatches matchMarker markerLength 0 0 (asciiString bytes) = [(found, signer)] ↔
      OnlyMarker bytes signer found := by
  have hapart : Scanning.Apart matchMarker markerLength (asciiString bytes) := by
    intro first second signer signer' hfirst hsecond hlt
    rw [markerMatches_place honce hfirst, markerMatches_place honce hsecond] at hlt
    exact absurd hlt (lt_irrefl place)
  rw [Scanning.allMatches_eq_singleton_iff rfl hapart]
  constructor
  · intro h
    obtain rfl := markerMatches_place honce h.1
    have hmarker := Iff.mp markerMatches_iff h.1
    exact ⟨honce, hmarker.1, hmarker.2⟩
  · intro h
    have hmatch := Iff.mpr markerMatches_iff ⟨h.wellFormed, h.digits⟩
    refine ⟨hmatch, fun other signer' hother => ?_⟩
    rw [markerMatches_place honce hother, markerMatches_place honce hmatch]

theorem findMarker_decides (bytes : List UInt8) :
    Decides Refused (findMarker bytes) fun a => OnlyMarker bytes a.2 a.1 := by
  have hplaced : ∀ a : Nat × List UInt8, OnlyMarker bytes a.2 a.1 →
      Scanning.allMatches matchPrefix policyPrefix.length 0 0 (asciiString bytes) = [(a.1, ())] :=
    fun a ha => Iff.mpr onePrefix_iff ha.once
  rw [findMarker]
  cases hplaces : Scanning.allMatches matchPrefix policyPrefix.length 0 0 (asciiString bytes) with
  | nil => exact Decides.error (refused _) fun a ha => by cases hplaces ▸ hplaced a ha
  | cons first places =>
    cases places with
    | cons second places => exact Decides.error (refused _) fun a ha => by cases hplaces ▸ hplaced a ha
    | nil =>
      have honce := Iff.mp onePrefix_iff hplaces
      have hmarker : ∀ a : Nat × List UInt8, OnlyMarker bytes a.2 a.1 →
          Scanning.allMatches matchMarker markerLength 0 0 (asciiString bytes) = [(a.1, a.2)] :=
        fun a ha => (oneMarker_iff honce).mpr ha
      cases hfound : Scanning.allMatches matchMarker markerLength 0 0 (asciiString bytes) with
      | nil => exact Decides.error (refused _) fun a ha => by cases hfound ▸ hmarker a ha
      | cons found markers =>
        cases markers with
        | cons other markers =>
          exact Decides.error (refused _) fun a ha => by cases hfound ▸ hmarker a ha
        | nil =>
          have honly : OnlyMarker bytes found.2 found.1 := (oneMarker_iff honce).mp hfound
          have hplace : found.1 = first.1 := (honce found.1).mp ((honly.once found.1).mpr rfl)
          simp only [hplace, if_true]
          refine (Decides.ok _).congr fun a => ?_
          constructor
          · intro ha
            rw [ha, ← hplace]
            exact honly
          · intro ha
            cases hfound ▸ hmarker a ha
            rw [← hplace]

end Markers

section Headers

theorem readFFBUInt16_add {delta : Nat} (h : offset + delta + 2 ≤ bytes.length) :
    readFFBUInt16 bytes (offset + delta) = .ok (word16At bytes (offset + delta)).toNat := by
  rw [← Nat.cast_add]
  exact readFFBUInt16_eq h

theorem byteAt_add {delta : Nat} (h : offset + delta < bytes.length) :
    byteAt bytes (offset + delta) = .ok (bytes.getD (offset + delta) 0) := by
  rw [← Nat.cast_add]
  exact byteAt_eq h

theorem cons_isPrefix_drop {c : UInt8} {rest : List UInt8} (h : offset < bytes.length) :
    c :: rest <+: bytes.drop offset ↔ bytes.getD offset 0 = c ∧ rest <+: bytes.drop (offset + 1) := by
  rw [drop_eq_cons h, List.cons_prefix_cons, eq_comm]

theorem startsMz_iff (h : 64 ≤ bytes.length) :
    ascii "MZ" <+: bytes ↔ bytes.getD 0 0 = 0x4D ∧ bytes.getD 1 0 = 0x5A := by
  change 0x4D :: 0x5A :: [] <+: bytes.drop 0 ↔ _
  rw [cons_isPrefix_drop (by omega), cons_isPrefix_drop (by omega)]
  simp only [ List.nil_prefix, and_true]

theorem signature_iff (h : offset + 24 ≤ bytes.length) :
    ascii "PE" ++ [0, 0] <+: bytes.drop offset ↔
      bytes.getD offset 0 = 0x50 ∧ bytes.getD (offset + 1) 0 = 0x45 ∧
        bytes.getD (offset + 2) 0 = 0 ∧ bytes.getD (offset + 3) 0 = 0 := by
  change 0x50 :: 0x45 :: 0 :: 0 :: [] <+: _ ↔ _
  rw [cons_isPrefix_drop (by omega), cons_isPrefix_drop (by omega), cons_isPrefix_drop (by omega),
    cons_isPrefix_drop (by omega)]
  simp only [ List.nil_prefix, and_true]

theorem readHeaders_decides (bytes : List UInt8) :
    Decides Refused (readHeaders bytes) fun a => ImageHeaders bytes ∧
      a = (sectionCount bytes, (sectionTableOffset bytes : Int)) := by
  rw [readHeaders]
  refine (require_decides _ _).bind_need (fun b hb => hb.1.dos.1) fun hlength => ?_
  refine Decides.bind_ok (@byteAt_eq bytes 0 (by omega)) ?_
  refine Decides.bind_ok (@byteAt_eq bytes 1 (by omega)) ?_
  refine (require_decides _ _).bind_need (fun b hb => (startsMz_iff hlength).mp hb.1.dos.2)
    fun hdos => ?_
  have hpe : readFFBUInt32 bytes 0x3C = .ok (peOffset bytes) := @readFFBUInt32_eq bytes 0x3C (by omega)
  refine Decides.bind_ok hpe ?_
  refine (require_decides _ _).bind_need (fun b hb => ?_) fun hinside => ?_
  · have hsignature := hb.1.signature.1
    omega
  have hfixed : peOffset bytes + 24 ≤ bytes.length := by omega
  refine Decides.bind_ok (@byteAt_eq bytes (peOffset bytes) (by omega)) ?_
  refine Decides.bind_ok (@byteAt_add bytes (peOffset bytes) 1 (by omega)) ?_
  refine Decides.bind_ok (@byteAt_add bytes (peOffset bytes) 2 (by omega)) ?_
  refine Decides.bind_ok (@byteAt_add bytes (peOffset bytes) 3 (by omega)) ?_
  refine (require_decides _ _).bind_need (fun b hb => (signature_iff hfixed).mp hb.1.signature.2)
    fun hsignature => ?_
  have hsections : readFFBUInt16 bytes (peOffset bytes + 6) = .ok (sectionCount bytes) :=
    @readFFBUInt16_add bytes (peOffset bytes) 6 (by omega)
  refine Decides.bind_ok hsections ?_
  refine (require_decides _ _).bind_need (fun b hb => hb.1.count) fun hcount => ?_
  have hsize : readFFBUInt16 bytes (peOffset bytes + 20) = .ok (optionalHeaderSize bytes) :=
    @readFFBUInt16_add bytes (peOffset bytes) 20 (by omega)
  refine Decides.bind_ok hsize ?_
  refine (require_decides _ _).bind_need (fun b hb => ?_) fun hoptional => ?_
  · have htable := hb.1.optional
    rw [sectionTableOffset] at htable
    omega
  have hmagic : readFFBUInt16 bytes (peOffset bytes + 24) = .ok (optionalMagic bytes) :=
    @readFFBUInt16_add bytes (peOffset bytes) 24 (by omega)
  refine Decides.bind_ok hmagic ?_
  refine (require_decides _ _).bind_need (fun b hb => hb.1.magic) fun hpe32 => ?_
  refine (require_decides _ _).bind_need (fun b hb => ?_) fun htable => ?_
  · have htable := hb.1.table
    rw [sectionOffset, sectionTableOffset] at htable
    omega
  have hheaders : ImageHeaders bytes := by
    refine ⟨⟨hlength, (startsMz_iff hlength).mpr hdos⟩, ⟨hfixed, (signature_iff hfixed).mpr hsignature⟩,
      hcount, ⟨hoptional.1, ?_⟩, hpe32, ?_⟩
    · rw [sectionTableOffset]
      omega
    · rw [sectionOffset, sectionTableOffset]
      omega
  refine (Decides.ok _).congr fun a => ⟨fun ha => ⟨hheaders, ha⟩, fun ha => ha.2⟩

end Headers

section Sections

theorem rawInside_iff (header : SectionHeader) (size : Nat) :
    header.RawInside size ↔ header.rawSize = 0 ∨ (header.rawOffset : Int) ≤ size - header.rawSize := by
  constructor
  · intro h
    by_cases hempty : header.rawSize = 0
    · exact Or.inl hempty
    · have hlast := h (header.rawOffset + header.rawSize - 1) (by omega) (by omega)
      omega
  · intro h position hle hlt
    omega

theorem markerLength_pos : 0 < markerLength := by decide

theorem contains_iff (header : SectionHeader) (place : Nat) :
    header.contains place (place + markerLength) ↔ header.HoldsMarker place := by
  have hpos := markerLength_pos
  simp only [SectionHeader.contains, SectionHeader.HoldsMarker, Bool.and_eq_true, decide_eq_true_eq]
  omega

variable {markerOffset markerEnd : Int}

def holders (bytes : List UInt8) (markerOffset markerEnd : Int) (count offset : Nat) : List Nat :=
  (List.range count).filter fun i =>
    (sectionHeaderAt bytes (offset + i * 40)).contains markerOffset markerEnd

theorem holders_succ (count : Nat) :
    (holders bytes markerOffset markerEnd (count + 1) offset).map
        (fun i => sectionHeaderAt bytes (offset + i * 40)) =
      let rest := (holders bytes markerOffset markerEnd count (offset + 40)).map
        fun i => sectionHeaderAt bytes (offset + 40 + i * 40)
      if (sectionHeaderAt bytes offset).contains markerOffset markerEnd then
        sectionHeaderAt bytes offset :: rest else rest := by
  have hshift : ∀ i, offset + (i + 1) * 40 = offset + 40 + i * 40 := by omega
  rw [holders, holders, List.range_succ_eq_map, List.filter_cons, Nat.zero_mul, Nat.add_zero]
  simp only [List.filter_map, Function.comp_def, Nat.succ_eq_add_one, hshift]
  split
  · rw [List.map_cons, List.map_map, Nat.zero_mul, Nat.add_zero]
    simp only [Function.comp_def, hshift]
  · rw [List.map_map]
    simp only [Function.comp_def, hshift]

theorem containingSections_decides (count : Nat) (h : offset + count * 40 ≤ bytes.length) :
    Decides Refused (containingSections bytes markerOffset markerEnd count offset) fun a =>
      (∀ i < count, (sectionHeaderAt bytes (offset + i * 40)).RawInside bytes.length) ∧
        a = (holders bytes markerOffset markerEnd count offset).map
          fun i => sectionHeaderAt bytes (offset + i * 40) := by
  induction count generalizing offset with
  | zero => exact (Decides.ok _).congr fun a => ⟨fun ha => ⟨nofun, ha⟩, fun ha => ha.2⟩
  | succ count ih =>
    rw [containingSections]
    refine Decides.bind_ok (readSection_eq (by omega)) ?_
    refine (require_decides _ _).bind_need (fun b hb => ?_) fun hfirst => ?_
    · have hinside := hb.1 0 (Nat.succ_pos count)
      rw [Nat.zero_mul, Nat.add_zero] at hinside
      exact (rawInside_iff _ _).mp hinside
    have hrest := @ih (offset + 40) (by omega)
    rw [Nat.cast_add] at hrest
    refine hrest.bind_need (fun b hb i hi => ?_) fun hranges => ?_
    · have hinside := hb.1 (i + 1) (by omega)
      rwa [show offset + (i + 1) * 40 = offset + 40 + i * 40 by omega] at hinside
    · rw [holders_succ]
      refine (Decides.ok _).congr fun a => ⟨fun ha => ⟨fun i hi => ?_, ha⟩, fun ha => ha.2⟩
      cases i with
      | zero =>
        rw [Nat.zero_mul, Nat.add_zero]
        exact (rawInside_iff _ _).mpr hfirst
      | succ i =>
        rw [show offset + (i + 1) * 40 = offset + 40 + i * 40 by omega]
        exact hranges i (by omega)

theorem filter_range_eq_singleton_iff (p : Nat → Bool) (count : Nat) :
    (List.range count).filter p = [index] ↔ ∀ i, (i < count ∧ p i) ↔ i = index := by
  have hmem : ∀ i, i ∈ (List.range count).filter p ↔ i < count ∧ p i := by
    intro i
    rw [List.mem_filter, List.mem_range]
  constructor
  · intro h i
    rw [← hmem, h, List.mem_singleton]
  · intro h
    have hnodup : ((List.range count).filter p).Nodup := List.nodup_range.filter _
    have hsame := List.perm_ext_iff_of_nodup hnodup (List.nodup_singleton index)
    refine List.perm_singleton.mp (hsame.mpr ?_)
    intro i
    rw [hmem, h, List.mem_singleton]

theorem constantData_iff (ceq : List UInt8 → List UInt8 → Bool) (header : SectionHeader) :
    header.constantData ceq ↔ ceq header.name (ascii ".rdata") ∧ header.ReadOnlyData := by
  simp only [SectionHeader.constantData, Bool.and_eq_true, decide_eq_true_eq, Nat.and_or_distrib_left,
    Nat.or_eq_zero_iff, and_assoc]
  exact and_congr_right fun _ => ⟨fun h => ⟨h.1, h.2.1, h.2.2.1, h.2.2.2⟩,
    fun h => ⟨h.initialized, h.readable, h.notWritable, h.notExecutable⟩⟩

end Sections

section Policy

variable {ceq : List UInt8 → List UInt8 → Bool}

/-- The sections that hold the marker are one section exactly where the image asks for it. -/
theorem holders_eq_singleton_iff :
    holders bytes place (place + markerLength) (sectionCount bytes) (sectionTableOffset bytes) =
      [index] ↔ ∀ i, (i < sectionCount bytes ∧
        (sectionHeaderAt bytes (sectionOffset bytes i)).HoldsMarker place) ↔ i = index := by
  rw [holders, filter_range_eq_singleton_iff]
  simp only [contains_iff, sectionOffset]

theorem acceptPolicySection_decides (hsize : 0 < bytes.length ∧ bytes.length ≤ 33554432)
    (hmarker : OnlyMarker bytes signer place) (hheaders : ImageHeaders bytes)
    (hranges : ∀ i < sectionCount bytes,
      (sectionHeaderAt bytes (sectionOffset bytes i)).RawInside bytes.length) :
    Decides Refused (acceptPolicySection ceq signer
        ((holders bytes place (place + markerLength) (sectionCount bytes) (sectionTableOffset bytes)).map
          fun i => sectionHeaderAt bytes (sectionOffset bytes i)))
      fun result => signer = result ∧ ∃ index, PolicyImage bytes result place index ∧
        ceq (sectionNameAt bytes (sectionOffset bytes index)) (ascii ".rdata") := by
  have hone : ∀ result, (signer = result ∧ ∃ index, PolicyImage bytes result place index ∧
      ceq (sectionNameAt bytes (sectionOffset bytes index)) (ascii ".rdata")) →
      ∃ index, holders bytes place (place + markerLength) (sectionCount bytes)
        (sectionTableOffset bytes) = [index] := by
    intro result hresult
    obtain ⟨-, index, himage, -⟩ := hresult
    exact ⟨index, Iff.mpr holders_eq_singleton_iff himage.only⟩
  cases hholders : holders bytes place (place + markerLength) (sectionCount bytes)
      (sectionTableOffset bytes) with
  | nil =>
    refine Decides.error (refused _) fun result hresult => ?_
    obtain ⟨index, hindex⟩ := hone result hresult
    cases hholders ▸ hindex
  | cons index others =>
    cases others with
    | cons other others =>
      refine Decides.error (refused _) fun result hresult => ?_
      obtain ⟨index, hindex⟩ := hone result hresult
      cases hholders ▸ hindex
    | nil =>
      have honly := Iff.mp holders_eq_singleton_iff hholders
      refine (require_decides _ _).bind_need (fun result hresult => ?_) fun hconstant => ?_
      · obtain ⟨-, index', himage, hname⟩ := hresult
        have hsame : index' = index := (honly index').mp ((himage.only index').mpr rfl)
        rw [← hsame]
        exact (constantData_iff _ _).mpr ⟨hname, himage.constant⟩
      · have hdata := (constantData_iff _ _).mp hconstant
        refine (Decides.ok _).congr fun result => ⟨fun heq => ?_, fun heq => heq.1.symm⟩
        rw [heq]
        exact ⟨rfl, index, ⟨hsize, hmarker, hheaders, hranges, honly, hdata.2⟩, hdata.1⟩

theorem acceptImage_decides (hsize : 0 < bytes.length ∧ bytes.length ≤ 33554432)
    (hmarker : OnlyMarker bytes signer place) :
    Decides Refused (acceptImage ceq bytes place signer) fun result =>
      signer = result ∧ ∃ index, PolicyImage bytes result place index ∧
        ceq (sectionNameAt bytes (sectionOffset bytes index)) (ascii ".rdata") := by
  rw [acceptImage]
  refine (readHeaders_decides bytes).bind_need (fun result hresult => ?_) fun hheaders => ?_
  · obtain ⟨-, index, himage, -⟩ := hresult
    exact himage.headers
  refine (containingSections_decides _ hheaders.table).bind_need (fun result hresult => ?_)
    fun hranges => acceptPolicySection_decides hsize hmarker hheaders hranges
  obtain ⟨-, index, himage, -⟩ := hresult
  exact himage.ranges

/-- The script accepts an image whose one marker is constant data, with a name of its section that
compares as `.rdata`. -/
theorem testManagerBuildPolicy_decides (ceq : List UInt8 → List UInt8 → Bool) (bytes : List UInt8) :
    Decides Refused (testManagerBuildPolicy ceq bytes) fun signer =>
      ∃ place index, PolicyImage bytes signer place index ∧
        ceq (sectionNameAt bytes (sectionOffset bytes index)) (ascii ".rdata") := by
  rw [testManagerBuildPolicy]
  refine (require_decides _ _).bind_need (fun signer hsigner => ?_) fun hsize => ?_
  · obtain ⟨place, index, himage, -⟩ := hsigner
    exact himage.size
  refine ((findMarker_decides bytes).bind fun found => acceptImage_decides hsize).congr fun signer => ?_
  constructor
  · intro h
    obtain ⟨found, -, rfl, index, h⟩ := h
    exact ⟨found.1, index, h⟩
  · intro h
    obtain ⟨place, index, himage, hname⟩ := h
    exact ⟨(place, signer), himage.marker, rfl, index, himage, hname⟩

theorem InvariantCulture.ceq_rdata (culture : InvariantCulture) {name : List UInt8}
    (h : name.filter (· ≠ 0) = ascii ".rdata") : culture.ceq name (ascii ".rdata") := by
  have hkept : (ascii ".rdata").filter (· ≠ 0) = ascii ".rdata" := by decide
  have hprintable : ∀ c ∈ ascii ".rdata" ++ ascii ".rdata", 0x20 ≤ c ∧ c ≤ 0x7E := by decide +kernel
  rw [culture.ignoresNul, h, hkept]
  exact (culture.printable _ _ hprintable).mpr rfl

theorem PolicyImage.unique {signer signer' : List UInt8} {place' index' : Nat}
    (h : PolicyImage bytes signer place index) (h' : PolicyImage bytes signer' place' index') :
    index' = index := by
  have hplace : place' = place := (h.marker.once place').mp ((h'.marker.once place').mpr rfl)
  have hholds := (h'.only index').mpr rfl
  rw [hplace] at hholds
  exact (h.only index').mp hholds

/-- The check is exact and in bounds, but for images whose section has a name with NULs in it. -/
theorem build_policy_exact_iff (culture : InvariantCulture) (bytes : List UInt8) :
    (testManagerBuildPolicy culture.ceq bytes ≠ .error .outside ∧
      ∀ signer, testManagerBuildPolicy culture.ceq bytes = .ok signer ↔ PolicyEmbedded bytes signer) ↔
      ¬ Masquerades culture.ceq bytes := by
  have hdecides := testManagerBuildPolicy_decides culture.ceq bytes
  constructor
  · intro h hmasquerades
    obtain ⟨signer, place, index, himage, hname, hceq⟩ := hmasquerades
    have haccepted := (hdecides.accepts signer).mpr ⟨place, index, himage, hceq⟩
    obtain ⟨place', index', himage', hrdata⟩ := (h.2 signer).mp haccepted
    rw [himage.unique himage'] at hrdata
    exact hname hrdata
  · intro hhonest
    refine ⟨fun houtside => hdecides.refuses _ houtside rfl, fun signer => ?_⟩
    rw [hdecides.accepts]
    constructor
    · intro h
      obtain ⟨place, index, himage, hceq⟩ := h
      refine ⟨place, index, himage, ?_⟩
      by_contra hname
      exact hhonest ⟨signer, place, index, himage, hname, hceq⟩
    · intro h
      obtain ⟨place, index, himage, hname⟩ := h
      refine ⟨place, index, himage, culture.ceq_rdata ?_⟩
      rw [sectionNameAt, hname]
      decide

def nulsDropped : InvariantCulture where
  ceq a b := a.filter (· ≠ 0) = b.filter (· ≠ 0)
  ignoresNul a b := by simp only [List.filter_filter, Bool.and_self]
  printable a b h := by
    have hkept : ∀ text : List UInt8, (∀ c ∈ text, c ∈ a ++ b) → text.filter (· ≠ 0) = text := by
      intro text htext
      refine List.filter_eq_self.mpr fun c hc => decide_eq_true fun hzero => ?_
      have hprintable := (h c (htext c hc)).1
      rw [hzero] at hprintable
      exact absurd hprintable (by decide)
    rw [decide_eq_true_eq, hkept a fun c hc => List.mem_append_left b hc,
      hkept b fun c hc => List.mem_append_right a hc]

def oneSectionImage (name signer : List UInt8) : List UInt8 :=
  ascii "MZ" ++ List.replicate 58 0 ++ [64, 0, 0, 0] ++
    ascii "PE" ++ [0, 0, 0x64, 0x86, 1, 0] ++ List.replicate 12 0 ++ [2, 0, 0x22, 0, 0x0B, 0x02] ++
      name ++ [123, 0, 0, 0, 0, 0x10, 0, 0, 123, 0, 0, 0, 130, 0, 0, 0] ++ List.replicate 12 0 ++
        [0x40, 0, 0, 0x40] ++ markerText signer

def maskedImage : List UInt8 := oneSectionImage (ascii ".rd" ++ [0] ++ ascii "ata" ++ [0])
  (List.replicate 64 0x41)

theorem maskedImage_accepted :
    testManagerBuildPolicy nulsDropped.ceq maskedImage = .ok (List.replicate 64 0x41) ∧
      ¬ PolicyEmbedded maskedImage (List.replicate 64 0x41) := by
  obtain ⟨haccepted, hcount, hother⟩ : testManagerBuildPolicy nulsDropped.ceq maskedImage =
      .ok (List.replicate 64 0x41) ∧ sectionCount maskedImage = 1 ∧
        sliceAt maskedImage (sectionOffset maskedImage 0) 8 ≠ ascii ".rdata" ++ [0, 0] := by
    decide +kernel
  refine ⟨haccepted, fun h => ?_⟩
  obtain ⟨place, index, himage, hname⟩ := h
  have hindex := ((himage.only index).mpr rfl).1
  rw [hcount] at hindex
  obtain rfl := Nat.lt_one_iff.mp hindex
  exact hother hname

end Policy
end FfbInterceptor.Release
