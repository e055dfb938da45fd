import FfbInterceptor.Release.Archive

/-! The archives that the verifier accepts are those that the writer writes. -/
namespace FfbInterceptor.Release
open FfbInterceptor.Library

section Crc

theorem flatten_streamReads {size : Nat} (hsize : 0 < size) {fuel : Nat} {data : List UInt8}
    (h : data.length ≤ fuel) : (streamReads size fuel data).flatten = data := by
  induction fuel generalizing data with
  | zero =>
    have hnil : data = [] := List.length_eq_zero_iff.mp (Nat.le_zero.mp h)
    rw [streamReads, hnil]
    rfl
  | succ fuel ih =>
    by_cases hnil : data = []
    · rw [streamReads, if_pos hnil, hnil]
      rfl
    · have hpos : 0 < data.length := List.length_pos_iff.mpr hnil
      have hrest : (data.drop size).length ≤ fuel := by
        rw [List.length_drop]
        omega
      rw [streamReads, if_neg hnil, List.flatten_cons, ih hrest, List.take_append_drop]

theorem archiveCrc32_eq (data : List UInt8) :
    ArchiveCrc32.compute data = ReleaseArchiveCrc32.compute data := by
  rw [ArchiveCrc32.compute, ReleaseArchiveCrc32.compute, ← List.foldl_flatten,
    flatten_streamReads (by decide) (Nat.le_refl _)]

example : ArchiveCrc32.compute [0x31, 0x32, 0x33, 0x34, 0x35, 0x36, 0x37, 0x38, 0x39] = 0xCBF43926 := by
  decide +kernel

end Crc

section Format

def centralOf (offset : Nat) (entry : Entry) : CentralEntry where
  nameBytes := utf8Bytes entry.name.toList
  crc32 := ReleaseArchiveCrc32.compute entry.content
  size := entry.content.length.toUInt32
  localOffset := offset.toUInt32

/-- The local record of an entry; its offset is not part of it. -/
def entryBytes (entry : Entry) : List UInt8 := localRecord (centralOf 0 entry) entry.content

def centralsOf : Nat → List Entry → List CentralEntry
  | _, [] => []
  | offset, entry :: entries =>
    centralOf offset entry :: centralsOf (offset + (entryBytes entry).length) entries

def localBytes (entries : List Entry) : List UInt8 := entries.flatMap entryBytes

def centralBytes (entries : List Entry) : List UInt8 := (centralsOf 0 entries).flatMap centralRecord

def archiveBytes (entries : List Entry) : List UInt8 :=
  localBytes entries ++ centralBytes entries ++
    endRecord entries.length.toUInt16 (centralBytes entries).length.toUInt32
      (localBytes entries).length.toUInt32

/-- What the verifier's limits ask of one entry. -/
structure Entry.Fits (entry : Entry) : Prop where
  named : 1 ≤ (utf8Bytes entry.name.toList).length
  nameLength : (utf8Bytes entry.name.toList).length ≤ uint16MaxValue
  size : entry.content.length ≤ 134217728

instance (entry : Entry) : Decidable entry.Fits :=
  decidable_of_iff (1 ≤ (utf8Bytes entry.name.toList).length ∧
      (utf8Bytes entry.name.toList).length ≤ uint16MaxValue ∧ entry.content.length ≤ 134217728)
    ⟨fun h => ⟨h.1, h.2.1, h.2.2⟩, fun h => ⟨h.named, h.nameLength, h.size⟩⟩

/-- What the verifier's limits ask of a list of entries. -/
structure Fits (entries : List Entry) : Prop where
  count : 1 ≤ entries.length ∧ entries.length ≤ 64
  entry : ∀ entry ∈ entries, entry.Fits
  size : (archiveBytes entries).length ≤ 268435456

def localOf (offset : Nat) (entry : Entry) : Local where
  name := entry.name
  nameBytes := utf8Bytes entry.name.toList
  crc32 := ReleaseArchiveCrc32.compute entry.content
  size := entry.content.length.toUInt32
  offset := offset.toUInt32
  data := entry.content

def localsOf : Nat → List Entry → List Local
  | _, [] => []
  | offset, entry :: entries =>
    localOf offset entry :: localsOf (offset + (entryBytes entry).length) entries

@[simp] theorem length_entryBytes (entry : Entry) : (entryBytes entry).length =
    30 + (utf8Bytes entry.name.toList).length + entry.content.length := by
  simp only [entryBytes, localRecord, centralOf, List.length_append, length_uint32Bytes,
    length_uint16Bytes]

@[simp] theorem length_centralRecord (entry : CentralEntry) :
    (centralRecord entry).length = 46 + entry.nameBytes.length := by
  simp only [centralRecord, List.length_append, length_uint32Bytes, length_uint16Bytes]

@[simp] theorem length_endRecord (entryCount : UInt16) (centralSize centralOffset : UInt32) :
    (endRecord entryCount centralSize centralOffset).length = 22 := by
  simp only [endRecord, List.length_append, length_uint32Bytes, length_uint16Bytes]

@[simp] theorem localBytes_cons (entry : Entry) (entries : List Entry) :
    localBytes (entry :: entries) = entryBytes entry ++ localBytes entries := List.flatMap_cons

@[simp] theorem length_centralsOf (offset : Nat) (entries : List Entry) :
    (centralsOf offset entries).length = entries.length := by
  induction entries generalizing offset with
  | nil => rfl
  | cons entry entries ih => rw [centralsOf, List.length_cons, ih, List.length_cons]

@[simp] theorem length_localsOf (offset : Nat) (entries : List Entry) :
    (localsOf offset entries).length = entries.length := by
  induction entries generalizing offset with
  | nil => rfl
  | cons entry entries ih => rw [localsOf, List.length_cons, ih, List.length_cons]

theorem map_entry_localsOf (offset : Nat) (entries : List Entry) :
    (localsOf offset entries).map Local.entry = entries := by
  induction entries generalizing offset with
  | nil => rfl
  | cons entry entries ih =>
    rw [localsOf, List.map_cons, ih]
    rfl

theorem length_archiveBytes (entries : List Entry) : (archiveBytes entries).length =
    (localBytes entries).length + (centralBytes entries).length + 22 := by
  rw [archiveBytes, List.length_append, List.length_append, length_endRecord]

end Format

section Writing

theorem writeEntry_eq {entry : Entry} (hfits : entry.Fits) (written : Written)
    (hroom : written.fileStream.length < uint32MaxValue) :
    writeEntry written entry = .ok ⟨written.fileStream ++ entryBytes entry,
      written.centralEntries ++ [centralOf written.fileStream.length entry]⟩ := by
  have hname := hfits.nameLength
  have hsize := hfits.size
  have hcontent : entry.content.length < uint32MaxValue := by
    rw [uint32MaxValue]
    omega
  rw [writeEntry]
  simp only [Nat.not_lt.mpr hname, Nat.not_le.mpr hroom, Nat.not_le.mpr hcontent, ↓reduceIte,
    archiveCrc32_eq]
  rfl

theorem writeEntries_eq {entries : List Entry} (hfits : ∀ entry ∈ entries, entry.Fits)
    (written : Written)
    (hroom : written.fileStream.length + (localBytes entries).length < uint32MaxValue) :
    writeEntries entries written = .ok ⟨written.fileStream ++ localBytes entries,
      written.centralEntries ++ centralsOf written.fileStream.length entries⟩ := by
  induction entries generalizing written with
  | nil => simp [writeEntries, localBytes, centralsOf]
  | cons entry entries ih =>
    rw [localBytes_cons, List.length_append] at hroom
    have hfirst := writeEntry_eq (hfits entry List.mem_cons_self) written (by omega)
    have hrest := ih (fun e he => hfits e (List.mem_cons_of_mem _ he))
      ⟨written.fileStream ++ entryBytes entry,
        written.centralEntries ++ [centralOf written.fileStream.length entry]⟩
      (by
        rw [List.length_append]
        omega)
    rw [writeEntries, hfirst]
    simp only [hrest, localBytes_cons, centralsOf, List.append_assoc, List.length_append,
      List.singleton_append]

theorem foldl_centralRecord (centrals : List CentralEntry) (out : List UInt8) :
    centrals.foldl (fun out entry => out ++ centralRecord entry) out =
      out ++ centrals.flatMap centralRecord := by
  induction centrals generalizing out with
  | nil => simp
  | cons entry centrals ih => rw [List.foldl_cons, ih, List.flatMap_cons, List.append_assoc]

theorem writeArchive_eq {entries : List Entry} (hfits : Fits entries) :
    writeArchive entries = .ok (archiveBytes entries) := by
  have hsize := hfits.size
  rw [length_archiveBytes] at hsize
  have hlocal : (localBytes entries).length < uint32MaxValue := by
    rw [uint32MaxValue]
    omega
  have hwritten := writeEntries_eq hfits.entry {} (by simpa using hlocal)
  have hcount : entries.length < uint16MaxValue := by
    rw [uint16MaxValue]
    have := hfits.count.2
    omega
  have hoffset : (localBytes entries).length.toUInt32.toNat = (localBytes entries).length := by
    rw [Nat.toUInt32, UInt32.toNat_ofNat', Nat.mod_eq_of_lt]
    omega
  have hcentral : (centralBytes entries).length < uint32MaxValue := by
    rw [uint32MaxValue]
    omega
  simp only [List.nil_append, List.length_nil] at hwritten
  rw [writeArchive, hwritten]
  simp only [length_centralsOf, Nat.not_le.mpr hcount, Nat.not_le.mpr hlocal, ↓reduceIte,
    foldl_centralRecord, hoffset, List.length_append, Nat.add_sub_cancel_left]
  rw [← centralBytes, if_neg (Nat.not_le.mpr hcentral), archiveBytes]

end Writing

section Reading

variable {input rest : List UInt8}

theorem run_readUInt16_ok_iff {value : UInt16} :
    readUInt16.run input = .ok (value, rest) ↔ input = uint16Bytes value ++ rest :=
  mirrors_word16Reader _ input value rest

theorem run_readUInt32_ok_iff {value : UInt32} :
    readUInt32.run input = .ok (value, rest) ↔ input = uint32Bytes value ++ rest :=
  mirrors_word32Reader _ input value rest

@[irreducible]
def EndRecord.bytes (record : EndRecord) : List UInt8 :=
  uint16Bytes record.entriesOnDisk ++ uint16Bytes record.entryCount ++
    uint32Bytes record.centralSize ++ uint32Bytes record.centralOffset ++
    uint16Bytes record.commentLength

@[irreducible]
def LocalHeader.bytes (header : LocalHeader) : List UInt8 :=
  uint16Bytes header.versionNeeded ++ uint16Bytes header.flags ++ uint16Bytes header.method ++
    uint16Bytes header.dosTime ++ uint16Bytes header.dosDate ++ uint32Bytes header.crc32 ++
    uint32Bytes header.compressedSize ++ uint32Bytes header.uncompressedSize ++
    uint16Bytes header.nameLength ++ uint16Bytes header.extraLength

@[irreducible]
def CentralHeader.bytes (header : CentralHeader) : List UInt8 :=
  uint16Bytes header.versionMadeBy ++ uint16Bytes header.versionNeeded ++ uint16Bytes header.flags ++
    uint16Bytes header.method ++ uint16Bytes header.dosTime ++ uint16Bytes header.dosDate ++
    uint32Bytes header.crc32 ++ uint32Bytes header.compressedSize ++
    uint32Bytes header.uncompressedSize ++ uint16Bytes header.nameLength ++
    uint16Bytes header.extraLength ++ uint16Bytes header.entryCommentLength ++
    uint16Bytes header.diskNumber ++ uint16Bytes header.internalAttributes ++
    uint32Bytes header.externalAttributes ++ uint32Bytes header.localOffset

theorem mirrors_readEndRecord : Mirrors readEndRecord EndRecord.bytes := by
  intro input record rest
  simp only [readEndRecord, run_bind_ok_iff, run_pure_ok_iff, run_readUInt16_ok_iff,
    run_readUInt32_ok_iff, EndRecord.bytes, List.append_assoc]
  constructor
  · rintro ⟨_, _, rfl, _, _, rfl, _, _, rfl, _, _, rfl, _, _, rfl, rfl, rfl⟩
    rfl
  · rintro rfl
    exact ⟨_, _, rfl, _, _, rfl, _, _, rfl, _, _, rfl, _, _, rfl, rfl, rfl⟩

theorem mirrors_readLocalHeader : Mirrors readLocalHeader LocalHeader.bytes := by
  intro input header rest
  simp only [readLocalHeader, run_bind_ok_iff, run_pure_ok_iff, run_readUInt16_ok_iff,
    run_readUInt32_ok_iff, LocalHeader.bytes, List.append_assoc]
  constructor
  · rintro ⟨_, _, rfl, _, _, rfl, _, _, rfl, _, _, rfl, _, _, rfl, _, _, rfl, _, _, rfl, _, _, rfl, _, _,
      rfl, _, _, rfl, rfl, rfl⟩
    rfl
  · rintro rfl
    exact ⟨_, _, rfl, _, _, rfl, _, _, rfl, _, _, rfl, _, _, rfl, _, _, rfl, _, _, rfl, _, _, rfl, _, _,
      rfl, _, _, rfl, rfl, rfl⟩

theorem mirrors_readCentralHeader : Mirrors readCentralHeader CentralHeader.bytes := by
  intro input header rest
  simp only [readCentralHeader, run_bind_ok_iff, run_pure_ok_iff, run_readUInt16_ok_iff,
    run_readUInt32_ok_iff, CentralHeader.bytes, List.append_assoc]
  constructor
  · rintro ⟨_, _, rfl, _, _, rfl, _, _, rfl, _, _, rfl, _, _, rfl, _, _, rfl, _, _, rfl, _, _, rfl, _, _,
      rfl, _, _, rfl, _, _, rfl, _, _, rfl, _, _, rfl, _, _, rfl, _, _, rfl, _, _, rfl, rfl, rfl⟩
    rfl
  · rintro rfl
    exact ⟨_, _, rfl, _, _, rfl, _, _, rfl, _, _, rfl, _, _, rfl, _, _, rfl, _, _, rfl, _, _, rfl, _, _,
      rfl, _, _, rfl, _, _, rfl, _, _, rfl, _, _, rfl, _, _, rfl, _, _, rfl, _, _, rfl, rfl, rfl⟩

theorem run_getString_ok_iff {bytes : List UInt8} {name : String} :
    (getString bytes).run input = .ok (name, rest) ↔ bytes = utf8Bytes name.toList ∧ rest = input := by
  rw [← fromUTF8?_eq_some_iff, getString]
  cases h : String.fromUTF8? bytes.toByteArray with
  | none => simp [throw, throwThe, MonadExceptOf.throw]
  | some text =>
    simp only [run_pure_ok_iff, Option.some.injEq]
    constructor
    · rintro ⟨rfl, rfl⟩
      exact ⟨rfl, rfl⟩
    · rintro ⟨rfl, rfl⟩
      exact ⟨rfl, rfl⟩

end Reading

section Locals

variable {length : Nat} {centralOffset : UInt32} {input rest : List UInt8}

theorem toNat_length_toUInt16 {items : List UInt8} (h : items.length ≤ uint16MaxValue) :
    items.length.toUInt16.toNat = items.length := by
  rw [uint16MaxValue] at h
  rw [Nat.toUInt16, UInt16.toNat_ofNat', Nat.mod_eq_of_lt]
  omega

theorem toNat_length_toUInt32 {items : List UInt8} (h : items.length < uint32MaxValue) :
    items.length.toUInt32.toNat = items.length := by
  rw [uint32MaxValue] at h
  rw [Nat.toUInt32, UInt32.toNat_ofNat', Nat.mod_eq_of_lt]
  omega

theorem toUInt16_of_toNat {value : UInt16} {n : Nat} (h : n = value.toNat) : value = n.toUInt16 := by
  rw [h, Nat.toUInt16, UInt16.ofNat_toNat]

theorem toUInt32_of_toNat {value : UInt32} {n : Nat} (h : n = value.toNat) : value = n.toUInt32 := by
  rw [h, Nat.toUInt32, UInt32.ofNat_toNat]

theorem Entry.Fits.toNat_nameLength {entry : Entry} (h : entry.Fits) :
    (utf8Bytes entry.name.toList).length.toUInt16.toNat = (utf8Bytes entry.name.toList).length :=
  toNat_length_toUInt16 h.nameLength

theorem Entry.Fits.toNat_size {entry : Entry} (h : entry.Fits) :
    entry.content.length.toUInt32.toNat = entry.content.length := by
  have hsize := h.size
  apply toNat_length_toUInt32
  rw [uint32MaxValue]
  omega

def localHeaderOf (entry : Entry) : LocalHeader where
  versionNeeded := 20
  flags := 0x0800
  method := 0
  dosTime := 0
  dosDate := 0x2821
  crc32 := ReleaseArchiveCrc32.compute entry.content
  compressedSize := entry.content.length.toUInt32
  uncompressedSize := entry.content.length.toUInt32
  nameLength := (utf8Bytes entry.name.toList).length.toUInt16
  extraLength := 0

theorem entryBytes_eq (entry : Entry) : entryBytes entry =
    uint32Bytes 0x04034B50 ++ ((localHeaderOf entry).bytes ++
      (utf8Bytes entry.name.toList ++ entry.content)) := by
  simp only [entryBytes, localRecord, centralOf, localHeaderOf, LocalHeader.bytes, dosTime, dosDate,
    List.append_assoc]

theorem readLocal_ok {totalPayload : Nat} {l : Local}
    (h : (readLocal length centralOffset totalPayload).run input = .ok (l, rest)) :
    ∃ entry : Entry, entry.Fits ∧ input = entryBytes entry ++ rest ∧
      l = localOf (length - input.length) entry ∧ length - rest.length ≤ centralOffset.toNat := by
  simp only [readLocal, run_bind_ok_iff, run_position_ok_iff, run_throwIf_ok_iff, run_pure_ok_iff,
    run_readUInt32_ok_iff, mirrors_readLocalHeader _ _ _, run_getString_ok_iff] at h
  obtain ⟨_, _, ⟨rfl, rfl⟩, _, _, ⟨-, rfl⟩, signature, _, hinput, _, _, ⟨hsignature, rfl⟩, header, _,
    rfl, _, _, ⟨hheader, rfl⟩, nameBytes, _, hname, _, _, ⟨hnameLength, rfl⟩, name, _, ⟨hutf8, rfl⟩,
    data, _, hdata, _, _, ⟨rfl, rfl⟩, _, _, ⟨hpayload, rfl⟩, _, _, ⟨hcrc, rfl⟩, rfl, rfl⟩ := h
  simp only [not_or, ne_eq, not_not, not_lt] at hsignature hheader hnameLength hpayload hcrc
  obtain ⟨hversion, hflags, hmethod, htime, hdate, hsizes, hsize, hnamed, hextra⟩ := hheader
  obtain ⟨rfl, -⟩ := run_upTo_ok_iff.mp ⟨hname, hnameLength⟩
  obtain ⟨rfl, -⟩ := run_upTo_ok_iff.mp ⟨hdata, hpayload.1⟩
  have hcompressed : header.compressedSize = data.length.toUInt32 := toUInt32_of_toNat hpayload.1
  have hlength : header.nameLength = nameBytes.length.toUInt16 := toUInt16_of_toNat hnameLength
  have hentry : header = localHeaderOf ⟨name, data⟩ := by
    cases header
    simp only [localHeaderOf, LocalHeader.mk.injEq] at *
    exact ⟨hversion, hflags, hmethod, htime, hdate, hcrc.2.symm, hcompressed,
      hsizes.symm.trans hcompressed, by rw [hlength, hutf8], hextra⟩
  refine ⟨⟨name, data⟩, ⟨?_, ?_, ?_⟩, ?_, ?_, hpayload.2⟩
  · rw [UInt16.lt_iff_toNat_lt, ← hnameLength, hutf8] at hnamed
    exact Nat.not_lt.mp hnamed
  · have hbound := header.nameLength.toNat_lt
    rw [← hnameLength, hutf8] at hbound
    exact Nat.le_of_lt_succ hbound
  · rwa [hpayload.1]
  · rw [hinput, hsignature, hentry, entryBytes_eq, hutf8]
    simp only [List.append_assoc]
  · simp only [localOf, hutf8, hcompressed, hcrc.2]

theorem run_readLocal (totalPayload : Nat) {entry : Entry} (hfits : entry.Fits)
    (hinput : input = entryBytes entry ++ rest) (hlength : input.length ≤ length)
    (hcentral : length - rest.length ≤ centralOffset.toNat)
    (htotal : totalPayload + entry.content.length ≤ 536870912) :
    (readLocal length centralOffset totalPayload).run input =
      .ok (localOf (length - input.length) entry, rest) := by
  have hsize : input.length = (entryBytes entry).length + rest.length := by
    rw [hinput, List.length_append]
  rw [length_entryBytes] at hsize
  have hname := hfits.toNat_nameLength
  have hcontent := hfits.toNat_size
  have hnamed := hfits.named
  have hbound := hfits.size
  simp only [readLocal, run_bind_ok_iff, run_position_ok_iff, run_throwIf_ok_iff, run_pure_ok_iff,
    run_readUInt32_ok_iff, mirrors_readLocalHeader _ _ _, run_getString_ok_iff]
  have hone : ¬ (localHeaderOf entry).nameLength < 1 := by
    rw [UInt16.lt_iff_toNat_lt, localHeaderOf, hname]
    exact Nat.not_lt.mpr hnamed
  refine ⟨_, _, ⟨rfl, rfl⟩, ⟨⟩, _, ⟨?_, rfl⟩, 0x04034B50, _, ?_, ⟨⟩, _, ⟨?_, rfl⟩, localHeaderOf entry,
    _, rfl, ⟨⟩, _, ⟨?_, rfl⟩, utf8Bytes entry.name.toList, _, (run_upTo_ok_iff.mpr ⟨rfl, ?_⟩).1, ⟨⟩, _,
    ⟨?_, rfl⟩, entry.name, _, ⟨rfl, rfl⟩, entry.content, rest, (run_upTo_ok_iff.mpr ⟨rfl, ?_⟩).1, _, _,
    ⟨rfl, rfl⟩, ⟨⟩, _, ⟨?_, rfl⟩, ⟨⟩, _, ⟨?_, rfl⟩, ?_, rfl⟩
  · omega
  · rw [hinput, entryBytes_eq]
    simp only [List.append_assoc]
  · simp
  · simp only [localHeaderOf, hcontent] at hone ⊢
    simp [hone, hbound]
  · exact hname.symm
  · exact not_not.mpr hname.symm
  · exact hcontent.symm
  · simp only [localHeaderOf, hcontent]
    omega
  · simp only [localHeaderOf, hcontent]
    simp [htotal]
  · rfl

end Locals

section Loops

variable {length : Nat} {centralOffset : UInt32} {input rest : List UInt8}

theorem readLocals_ok {count totalPayload : Nat} {locals : List Local} (hlength : input.length ≤ length)
    (h : (readLocals length centralOffset count totalPayload).run input = .ok (locals, rest)) :
    ∃ entries : List Entry, entries.length = count ∧ (∀ entry ∈ entries, entry.Fits) ∧
      input = localBytes entries ++ rest ∧ locals = localsOf (length - input.length) entries := by
  induction count generalizing totalPayload locals input with
  | zero =>
    rw [readLocals, run_pure_ok_iff] at h
    obtain ⟨rfl, rfl⟩ := h
    exact ⟨[], rfl, by simp, rfl, rfl⟩
  | succ count ih =>
    simp only [readLocals, run_bind_ok_iff, run_pure_ok_iff] at h
    obtain ⟨l, next, hfirst, locals, _, hrest, rfl, rfl⟩ := h
    obtain ⟨entry, hfits, hinput, rfl, -⟩ := readLocal_ok hfirst
    have hsize : input.length = (entryBytes entry).length + next.length := by
      rw [hinput, List.length_append]
    obtain ⟨entries, hcount, hall, hnext, rfl⟩ := ih (by omega) hrest
    refine ⟨entry :: entries, by rw [List.length_cons, hcount], ?_, ?_, ?_⟩
    · intro e he
      rcases List.mem_cons.mp he with rfl | he
      · exact hfits
      · exact hall e he
    · rw [localBytes_cons, List.append_assoc, ← hnext, hinput]
    · have hplace : length - input.length + (entryBytes entry).length = length - next.length := by omega
      rw [localsOf, hplace]

theorem run_readLocals (totalPayload : Nat) {entries : List Entry}
    (hfits : ∀ entry ∈ entries, entry.Fits) (hinput : input = localBytes entries ++ rest)
    (hlength : input.length ≤ length)
    (hcentral : length - rest.length ≤ centralOffset.toNat)
    (htotal : totalPayload + (localBytes entries).length ≤ 536870912) :
    (readLocals length centralOffset entries.length totalPayload).run input =
      .ok (localsOf (length - input.length) entries, rest) := by
  induction entries generalizing totalPayload input with
  | nil =>
    rw [hinput]
    rfl
  | cons entry entries ih =>
    rw [localBytes_cons, List.append_assoc] at hinput
    rw [localBytes_cons, List.length_append, length_entryBytes] at htotal
    have hfirst := hfits entry List.mem_cons_self
    have hcontent := hfirst.toNat_size
    have hsize : input.length = (entryBytes entry).length + (localBytes entries ++ rest).length := by
      rw [hinput, List.length_append]
    have hrest : rest.length ≤ (localBytes entries ++ rest).length := by simp
    have hlocal := run_readLocal totalPayload hfirst hinput hlength
      (Nat.le_trans (by omega) hcentral) (by omega)
    have hlocals := @ih (localBytes entries ++ rest)
      (totalPayload + (localOf (length - input.length) entry).size.toNat)
      (fun e he => hfits e (List.mem_cons_of_mem _ he)) rfl (by omega) (by
        rw [localOf, hcontent]
        omega)
    have hplace : length - input.length + (entryBytes entry).length =
        length - (localBytes entries ++ rest).length := by omega
    simp only [readLocals, List.length_cons, run_bind_ok_iff, run_pure_ok_iff]
    exact ⟨_, _, hlocal, _, _, hlocals, by rw [localsOf, hplace], rfl⟩

def centralHeaderOf (offset : Nat) (entry : Entry) : CentralHeader where
  versionMadeBy := 20
  versionNeeded := 20
  flags := 0x0800
  method := 0
  dosTime := 0
  dosDate := 0x2821
  crc32 := ReleaseArchiveCrc32.compute entry.content
  compressedSize := entry.content.length.toUInt32
  uncompressedSize := entry.content.length.toUInt32
  nameLength := (utf8Bytes entry.name.toList).length.toUInt16
  extraLength := 0
  entryCommentLength := 0
  diskNumber := 0
  internalAttributes := 0
  externalAttributes := 0
  localOffset := offset.toUInt32

theorem centralRecord_eq (offset : Nat) (entry : Entry) : centralRecord (centralOf offset entry) =
    uint32Bytes 0x02014B50 ++ ((centralHeaderOf offset entry).bytes ++ utf8Bytes entry.name.toList) := by
  simp only [centralRecord, centralOf, centralHeaderOf, CentralHeader.bytes, dosTime, dosDate,
    List.append_assoc]

/-- Behind a local record only its own central record passes the checks. -/
theorem run_readCentral_ok_iff {entry : Entry} (hfits : entry.Fits) {offset : Nat} {u : PUnit} :
    (readCentral (localOf offset entry)).run input = .ok (u, rest) ↔
      input = centralRecord (centralOf offset entry) ++ rest := by
  have hname := hfits.toNat_nameLength
  simp only [readCentral, run_bind_ok_iff, run_throwIf_ok_iff, run_readUInt32_ok_iff,
    mirrors_readCentralHeader _ _ _, centralRecord_eq, List.append_assoc]
  constructor
  · rintro ⟨signature, _, rfl, _, _, ⟨hsignature, rfl⟩, header, _, rfl, _, _, ⟨hheader, rfl⟩, nameBytes,
      _, hread, hcheck, rfl⟩
    simp only [not_or, ne_eq, not_not] at hsignature hheader hcheck
    obtain ⟨-, hlength, rfl⟩ := hcheck
    obtain ⟨rfl, -⟩ := run_upTo_ok_iff.mp ⟨hread, hlength⟩
    have hentry : header = centralHeaderOf offset entry := by
      have hnameLength : header.nameLength = (utf8Bytes entry.name.toList).length.toUInt16 :=
        toUInt16_of_toNat hlength
      cases header
      simp only [centralHeaderOf, CentralHeader.mk.injEq, localOf] at *
      simp only [hheader, hnameLength, and_self]
    rw [hsignature, hentry]
    rfl
  · rintro rfl
    have hone : ¬ (centralHeaderOf offset entry).nameLength < 1 := by
      rw [UInt16.lt_iff_toNat_lt, centralHeaderOf, hname]
      exact Nat.not_lt.mpr hfits.named
    refine ⟨0x02014B50, _, rfl, ⟨⟩, _, ⟨?_, rfl⟩, centralHeaderOf offset entry, _, rfl, ⟨⟩, _, ⟨?_, rfl⟩,
      utf8Bytes entry.name.toList, _, (run_upTo_ok_iff.mpr ⟨rfl, hname.symm⟩).1, ?_, rfl⟩
    · simp
    · simp [centralHeaderOf, localOf]
    · simp only [not_or, ne_eq, not_not]
      exact ⟨hone, hname.symm, rfl⟩

theorem run_readCentrals_ok_iff {entries : List Entry} (hfits : ∀ entry ∈ entries, entry.Fits)
    {offset : Nat} {u : PUnit} : (readCentrals (localsOf offset entries)).run input = .ok (u, rest) ↔
      input = (centralsOf offset entries).flatMap centralRecord ++ rest := by
  induction entries generalizing input offset with
  | nil =>
    simp only [localsOf, readCentrals, centralsOf, run_pure_ok_iff, List.flatMap_nil, List.nil_append]
    exact ⟨fun h => h.2.symm, fun h => ⟨trivial, h.symm⟩⟩
  | cons entry entries ih =>
    have hall : ∀ e ∈ entries, e.Fits := fun e he => hfits e (List.mem_cons_of_mem _ he)
    simp only [localsOf, readCentrals, run_bind_ok_iff,
      run_readCentral_ok_iff (hfits entry List.mem_cons_self), ih hall, centralsOf, List.flatMap_cons,
      List.append_assoc]
    constructor
    · rintro ⟨_, _, rfl, rfl⟩
      rfl
    · rintro rfl
      exact ⟨⟨⟩, _, rfl, rfl⟩

theorem run_readEnd_ok_iff {eocdOffset : Nat} {record : EndRecord} :
    (readEnd eocdOffset).run input = .ok (record, rest) ↔
      input = endRecord record.entryCount record.centralSize record.centralOffset ++ rest ∧
        1 ≤ record.entryCount.toNat ∧ record.entryCount.toNat ≤ 64 ∧
        record.entriesOnDisk = record.entryCount ∧ record.commentLength = 0 ∧
        record.centralOffset.toNat + record.centralSize.toNat = eocdOffset := by
  simp only [readEnd, run_bind_ok_iff, run_throwIf_ok_iff, run_pure_ok_iff, run_readUInt16_ok_iff,
    run_readUInt32_ok_iff, mirrors_readEndRecord _ _ _, not_or, ne_eq, not_not, UInt16.lt_iff_toNat_lt,
    Nat.not_lt]
  constructor
  · rintro ⟨_, _, rfl, _, _, rfl, _, _, rfl, _, _, ⟨⟨rfl, rfl, rfl⟩, rfl⟩, _, _, rfl, _, _,
      ⟨⟨hone, hmany, hdisk, hcomment, hoffset⟩, rfl⟩, rfl, rfl⟩
    refine ⟨?_, hone, hmany, hdisk, hcomment, hoffset⟩
    rw [EndRecord.bytes, hdisk, hcomment]
    simp only [endRecord, List.append_assoc]
  · rintro ⟨rfl, hone, hmany, hdisk, hcomment, hoffset⟩
    refine ⟨0x06054B50, _, ?_, 0, _, rfl, 0, record.bytes ++ rest, rfl, ⟨⟩, _, ⟨⟨rfl, rfl, rfl⟩, rfl⟩,
      record, rest, rfl, ⟨⟩, _, ⟨⟨hone, hmany, hdisk, hcomment, hoffset⟩, rfl⟩, rfl, rfl⟩
    rw [EndRecord.bytes, hdisk, hcomment]
    simp only [endRecord, List.append_assoc]

end Loops

section Archive

variable {bytes : List UInt8} {locals : List Local}

/-- What passes the two loops: the records of entries within the limits, one behind the other. -/
theorem readRecords_ok {eocdOffset : Nat} {record : EndRecord} {rest : List UInt8}
    (h : (readRecords bytes.length eocdOffset record).run bytes = .ok (locals, rest)) :
    ∃ entries : List Entry, entries.length = record.entryCount.toNat ∧
      (∀ entry ∈ entries, entry.Fits) ∧
      bytes = localBytes entries ++ (centralBytes entries ++ rest) ∧ locals = localsOf 0 entries ∧
      (localBytes entries).length = record.centralOffset.toNat ∧
      bytes.length - rest.length = eocdOffset := by
  simp only [readRecords, run_bind_ok_iff, run_position_ok_iff, run_throwIf_ok_iff, run_pure_ok_iff,
    ne_eq, not_not] at h
  obtain ⟨_, _, hlocals, _, _, ⟨rfl, rfl⟩, _, _, ⟨hoffset, rfl⟩, _, _, hcentrals, _, _, ⟨rfl, rfl⟩, _, _,
    ⟨hend, rfl⟩, rfl, rfl⟩ := h
  obtain ⟨entries, hcount, hfits, hbytes, rfl⟩ := readLocals_ok (Nat.le_refl _) hlocals
  rw [Nat.sub_self] at hcentrals ⊢
  rw [run_readCentrals_ok_iff hfits] at hcentrals
  have hlength := congrArg List.length hbytes
  rw [List.length_append] at hlength
  refine ⟨entries, hcount, hfits, ?_, rfl, by omega, hend⟩
  rw [centralBytes, ← hcentrals]
  exact hbytes

theorem run_readRecords {entries : List Entry} {record : EndRecord} {rest : List UInt8}
    (hfits : ∀ entry ∈ entries, entry.Fits)
    (hbytes : bytes = localBytes entries ++ (centralBytes entries ++ rest))
    (hcount : record.entryCount.toNat = entries.length)
    (hoffset : record.centralOffset.toNat = (localBytes entries).length)
    (htotal : (localBytes entries).length ≤ 536870912) :
    (readRecords bytes.length (bytes.length - rest.length) record).run bytes =
      .ok (localsOf 0 entries, rest) := by
  have hlength : bytes.length = (localBytes entries).length + (centralBytes entries ++ rest).length := by
    rw [hbytes, List.length_append]
  have hlocals := @run_readLocals bytes.length record.centralOffset bytes
    (centralBytes entries ++ rest) 0 entries hfits hbytes (Nat.le_refl _) (by omega) (by omega)
  rw [Nat.sub_self, ← hcount] at hlocals
  have hcentrals : (readCentrals (localsOf 0 entries)).run (centralBytes entries ++ rest) =
      .ok (⟨⟩, rest) := (run_readCentrals_ok_iff hfits).mpr rfl
  simp only [readRecords, run_bind_ok_iff, run_position_ok_iff, run_throwIf_ok_iff, run_pure_ok_iff,
    ne_eq, not_not]
  exact ⟨_, _, hlocals, _, _, ⟨rfl, rfl⟩, ⟨⟩, _, ⟨by omega, rfl⟩, _, _, hcentrals, _, _, ⟨rfl, rfl⟩, ⟨⟩,
    _, ⟨rfl, rfl⟩, rfl, rfl⟩

theorem endRecord_eq {entries : List Entry} {record : EndRecord} {rest behind : List UInt8}
    (hbytes : bytes = localBytes entries ++ (centralBytes entries ++ rest))
    (hcount : entries.length = record.entryCount.toNat)
    (hoffset : (localBytes entries).length = record.centralOffset.toNat)
    (hplaces : record.centralOffset.toNat + record.centralSize.toNat = bytes.length - 22)
    (hsize : 22 ≤ bytes.length) (hrest : bytes.length - rest.length = bytes.length - 22)
    (hdrop : bytes.drop (bytes.length - 22) =
      endRecord record.entryCount record.centralSize record.centralOffset ++ behind) :
    bytes = archiveBytes entries := by
  have hlength : bytes.length =
      (localBytes entries).length + (centralBytes entries).length + rest.length := by
    rw [hbytes, List.length_append, List.length_append, Nat.add_assoc]
  have hcentral : (centralBytes entries).length = record.centralSize.toNat := by omega
  have hrestEq : bytes.drop (bytes.length - 22) = rest := by
    have hfront : bytes.length - 22 = (localBytes entries ++ centralBytes entries).length := by
      rw [List.length_append]
      omega
    rw [hfront, hbytes, ← List.append_assoc, List.drop_left]
  have hbehind : behind = [] := by
    have hshort := congrArg List.length hdrop
    rw [List.length_drop, List.length_append, length_endRecord] at hshort
    exact List.length_eq_zero_iff.mp (by omega)
  rw [hrestEq, hbehind, List.append_nil] at hdrop
  rw [hbytes, hdrop, archiveBytes, List.append_assoc, ← toUInt16_of_toNat hcount,
    ← toUInt32_of_toNat hcentral, ← toUInt32_of_toNat hoffset]

/-- The verifier accepts exactly the canonical archives of entries within its limits. -/
theorem assertFFBCanonicalStoredZip_ok_iff : assertFFBCanonicalStoredZip bytes = .ok locals ↔
    ∃ entries, Fits entries ∧ bytes = archiveBytes entries ∧ locals = localsOf 0 entries := by
  constructor
  · intro h
    rw [assertFFBCanonicalStoredZip] at h
    by_cases hsize : bytes.length < 22 ∨ 268435456 < bytes.length
    · rw [if_pos hsize] at h
      cases h
    · rw [if_neg hsize] at h
      cases hend : (readEnd (bytes.length - 22)).run (bytes.drop (bytes.length - 22)) with
      | error message =>
        simp only [hend] at h
        cases h
      | ok found =>
        obtain ⟨record, behind⟩ := found
        cases hrecords : (readRecords bytes.length (bytes.length - 22) record).run bytes with
        | error message =>
          simp only [hend, hrecords] at h
          cases h
        | ok result =>
          obtain ⟨found, rest⟩ := result
          simp only [hend, hrecords] at h
          cases h
          obtain ⟨entries, hcount, hfits, hbytes, rfl, hoffset, hrest⟩ := readRecords_ok hrecords
          obtain ⟨hdrop, hone, hmany, -, -, hplaces⟩ := run_readEnd_ok_iff.mp hend
          have hlong : 22 ≤ bytes.length := by omega
          have heq := endRecord_eq hbytes hcount hoffset hplaces hlong hrest hdrop
          refine ⟨entries, ⟨by omega, hfits, ?_⟩, heq, rfl⟩
          rw [← heq]
          omega
  · rintro ⟨entries, hfits, rfl, rfl⟩
    have hsize := hfits.size
    have hlength := length_archiveBytes entries
    have hin : ¬ ((archiveBytes entries).length < 22 ∨ 268435456 < (archiveBytes entries).length) := by
      omega
    have hwithin : ∀ {n : Nat}, n ≤ 268435456 → n.toUInt32.toNat = n := by
      intro n hn
      rw [Nat.toUInt32, UInt32.toNat_ofNat', Nat.mod_eq_of_lt]
      omega
    have hcount : entries.length.toUInt16.toNat = entries.length := by
      rw [Nat.toUInt16, UInt16.toNat_ofNat', Nat.mod_eq_of_lt]
      have := hfits.count.2
      omega
    let record : EndRecord := ⟨entries.length.toUInt16, entries.length.toUInt16,
      (centralBytes entries).length.toUInt32, (localBytes entries).length.toUInt32, 0⟩
    have hend : (readEnd ((archiveBytes entries).length - 22)).run
        ((archiveBytes entries).drop ((archiveBytes entries).length - 22)) = .ok (record, []) := by
      rw [run_readEnd_ok_iff]
      refine ⟨?_, ?_, ?_, rfl, rfl, ?_⟩
      · have hfront : (archiveBytes entries).length - 22 =
            (localBytes entries ++ centralBytes entries).length := by
          rw [List.length_append]
          omega
        rw [hfront, archiveBytes, List.drop_left, List.append_nil]
      · exact hcount.symm ▸ hfits.count.1
      · exact hcount.symm ▸ hfits.count.2
      · simp only [record]
        rw [hwithin (by omega), hwithin (by omega)]
        omega
    have hrecords := @run_readRecords (archiveBytes entries) entries record
      (endRecord record.entryCount record.centralSize record.centralOffset) hfits.entry
      (List.append_assoc _ _ _) hcount (hwithin (by omega)) (by omega)
    rw [length_endRecord] at hrecords
    rw [assertFFBCanonicalStoredZip, if_neg hin]
    simp only [hend, hrecords]

end Archive

end FfbInterceptor.Release
