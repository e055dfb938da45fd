import Mathlib.Data.List.GetD
import FfbInterceptor.Manager.ManifestGrammar

/-! The manifest parser accepts exactly the manifests, and reads back what is rendered of them. -/
namespace FfbInterceptor.Manager
open FfbInterceptor.Launcher

section Rows

variable {row : Row} {rows : List Row} {text : List UInt8}

theorem isHexCharacter_ge {c : UInt8} (h : isHexCharacter c = true) : 0x20 ≤ c := by
  simp only [isHexCharacter, Bool.or_eq_true, Bool.and_eq_true, decide_eq_true_eq] at h
  have hdigit : (0x20 : UInt8) ≤ 0x30 := by decide
  have hlower : (0x20 : UInt8) ≤ 0x61 := by decide
  have hupper : (0x20 : UInt8) ≤ 0x41 := by decide
  obtain (h | h) | h := h
  · exact UInt8.le_trans hdigit h.1
  · exact UInt8.le_trans hlower h.1
  · exact UInt8.le_trans hupper h.1

theorem PathText.Safe.graphic {path : PathText} (h : path.Safe) : ∀ c ∈ path.bytes, 0x20 ≤ c := by
  intro c hc
  rw [PathText.bytes, List.mem_append, List.mem_flatMap] at hc
  cases hc with
  | inl hfirst => exact (h.first.printable c hfirst).1
  | inr hmore =>
    obtain ⟨next, hnext, hmem⟩ := hmore
    obtain ⟨hseparator, hsegment⟩ := h.more next hnext
    cases List.mem_cons.mp hmem with
    | inr hin => exact (hsegment.printable c hin).1
    | inl hself =>
      rw [hself]
      cases hseparator with
      | inl hslash => exact hslash ▸ by decide
      | inr hbackslash => exact hbackslash ▸ by decide

theorem Row.Valid.graphic (h : row.Valid) : ∀ c ∈ row.text, 0x20 ≤ c := by
  cases row with
  | blank => exact fun c hc => absurd hc List.not_mem_nil
  | entry digest path =>
    obtain ⟨-, hdigest, hpath⟩ := h
    intro c hc
    rw [Row.text, List.mem_append, List.mem_append] at hc
    obtain hc | hc | hc := hc
    · exact isHexCharacter_ge (hdigest c hc)
    · simp only [List.mem_cons, List.not_mem_nil, or_false, or_self] at hc
      exact hc ▸ by decide
    · exact hpath.graphic c hc

theorem Row.Valid.lineFeed_not_mem (h : row.Valid) : lineFeed ∉ row.text := by
  intro hmem
  have hle := h.graphic lineFeed hmem
  revert hle
  decide

theorem Row.Valid.getLast?_ne (h : row.Valid) : row.text.getLast? ≠ some carriageReturn := by
  intro hlast
  have hle := h.graphic carriageReturn (List.mem_of_getLast? hlast)
  revert hle
  decide

theorem popCarriageReturn_concat (line : List UInt8) :
    popCarriageReturn (line ++ [carriageReturn]) = line := by
  rw [popCarriageReturn, if_pos List.getLast?_concat, List.dropLast_concat]

theorem popCarriageReturn_text (h : row.Valid) : popCarriageReturn row.text = row.text :=
  if_neg h.getLast?_ne

theorem popCarriageReturn_cases (line : List UInt8) :
    popCarriageReturn line = line ∨ line = popCarriageReturn line ++ [carriageReturn] := by
  rw [popCarriageReturn]
  split
  · next hlast =>
    obtain ⟨front, rfl⟩ := List.getLast?_eq_some_iff.mp hlast
    rw [List.dropLast_concat]
    exact Or.inr rfl
  · exact Or.inl rfl

def firstLine (text : List UInt8) : List UInt8 := text.takeWhile (· ≠ lineFeed)

def otherLines (text : List UInt8) : List UInt8 := text.drop ((firstLine text).length + 1)

theorem firstLine_append {line : List UInt8} (h : lineFeed ∉ line) (rest : List UInt8) :
    firstLine (line ++ lineFeed :: rest) = line ∧ otherLines (line ++ lineFeed :: rest) = rest := by
  have hline : firstLine (line ++ lineFeed :: rest) = line := by
    rw [firstLine, List.takeWhile_append_of_pos]
    · simp
    · exact fun c hc => decide_eq_true (fun heq => h (heq ▸ hc))
  refine ⟨hline, ?_⟩
  rw [otherLines, hline, ← List.singleton_append, ← List.append_assoc]
  exact List.drop_left' (by simp)

theorem firstLine_of_not_mem {line : List UInt8} (h : lineFeed ∉ line) :
    firstLine line = line ∧ otherLines line = [] := by
  have hline : firstLine line = line :=
    List.takeWhile_eq_self_iff.mpr fun c hc => decide_eq_true (fun heq => h (heq ▸ hc))
  refine ⟨hline, ?_⟩
  rw [otherLines, hline]
  exact List.drop_eq_nil_of_le (Nat.le_succ _)

theorem otherLines_length (h : text ≠ []) : (otherLines text).length < text.length := by
  have hpos := List.length_pos_iff.mpr h
  rw [otherLines, List.length_drop]
  omega

theorem lines_cases (text : List UInt8) :
    (text = firstLine text ∧ otherLines text = []) ∨
      text = firstLine text ++ lineFeed :: otherLines text := by
  by_cases hmem : lineFeed ∈ text
  · obtain ⟨line, rest, rfl, hfree⟩ := List.eq_append_cons_of_mem hmem
    obtain ⟨hline, hother⟩ := firstLine_append hfree rest
    rw [hline, hother]
    exact Or.inr rfl
  · obtain ⟨hline, hother⟩ := firstLine_of_not_mem hmem
    exact Or.inl ⟨hline.symm, hother⟩

theorem document_nil {tails : List (List UInt8)} (h : Document tails text rows) (hnil : text = []) :
    rows = [] := by
  cases h with
  | nil => rfl
  | last row tail htail hne => exact absurd hnil hne
  | line row lineEnd hrest =>
    have hend := (List.append_eq_nil_iff.mp (List.append_eq_nil_iff.mp hnil).2).1
    cases lineEnd with
    | lf => cases hend
    | crlf => cases hend

theorem document_cons (hne : text ≠ []) (hrow : row.text = popCarriageReturn (firstLine text))
    (hrest : Document openTails (otherLines text) rows) : Document openTails text (row :: rows) := by
  have hpopped := popCarriageReturn_cases (firstLine text)
  rw [← hrow] at hpopped
  obtain ⟨hwhole, hnone⟩ | hsplit := lines_cases text
  · obtain rfl := document_nil hrest hnone
    cases hpopped with
    | inl hline =>
      have htext : text = row.text ++ [] := by rw [List.append_nil, hline, ← hwhole]
      rw [htext] at hne ⊢
      exact .last row [] List.mem_cons_self hne
    | inr hline =>
      have htext : text = row.text ++ [carriageReturn] := by rw [← hline, ← hwhole]
      rw [htext] at hne ⊢
      exact .last row [carriageReturn] (List.mem_cons_of_mem _ List.mem_cons_self) hne
  · cases hpopped with
    | inl hline =>
      have htext : text = row.text ++ (LineEnd.lf.bytes ++ otherLines text) := by
        rw [hline]
        exact hsplit
      rw [htext]
      exact .line row .lf hrest
    | inr hline =>
      have htext : text = row.text ++ (LineEnd.crlf.bytes ++ otherLines text) := by
        rw [LineEnd.bytes, ← List.singleton_append (l := [lineFeed]), List.append_assoc,
          ← List.append_assoc row.text, ← hline]
        exact hsplit
      rw [htext]
      exact .line row .crlf hrest

theorem document_uncons {rows : List Row} (h : Document openTails text rows) (hne : text ≠ [])
    (hvalid : ∀ row ∈ rows, row.Valid) :
    ∃ row rest, rows = row :: rest ∧ row.text = popCarriageReturn (firstLine text) ∧
      Document openTails (otherLines text) rest := by
  cases h with
  | nil => exact absurd rfl hne
  | last row tail htail hne' =>
    have hrow := hvalid row List.mem_cons_self
    have hfree : lineFeed ∉ row.text ++ tail := by
      intro hmem
      cases List.mem_append.mp hmem with
      | inl hin => exact hrow.lineFeed_not_mem hin
      | inr hin =>
        simp only [openTails, List.mem_cons, List.not_mem_nil, or_false] at htail
        cases htail with
        | inl hnil => exact absurd hin (hnil ▸ List.not_mem_nil)
        | inr hcr =>
          rw [hcr] at hin
          exact absurd hin (by decide)
    obtain ⟨hline, hother⟩ := firstLine_of_not_mem hfree
    refine ⟨row, [], rfl, ?_, hother ▸ .nil⟩
    rw [hline]
    simp only [openTails, List.mem_cons, List.not_mem_nil, or_false] at htail
    cases htail with
    | inl hnil => rw [hnil, List.append_nil, popCarriageReturn_text hrow]
    | inr hcr => rw [hcr, popCarriageReturn_concat]
  | line row lineEnd hrest =>
    rename_i rest rows
    have hrow := hvalid row List.mem_cons_self
    cases lineEnd with
    | lf =>
      obtain ⟨hline, hother⟩ := firstLine_append hrow.lineFeed_not_mem rest
      refine ⟨row, rows, rfl, ?_, ?_⟩
      · exact (popCarriageReturn_text hrow).symm.trans (congrArg popCarriageReturn hline.symm)
      · exact hother.symm ▸ hrest
    | crlf =>
      have hfree : lineFeed ∉ row.text ++ [carriageReturn] := by
        intro hmem
        cases List.mem_append.mp hmem with
        | inl hin => exact hrow.lineFeed_not_mem hin
        | inr hin => exact absurd hin (by decide)
      have hassoc : row.text ++ (LineEnd.crlf.bytes ++ rest) =
          row.text ++ [carriageReturn] ++ lineFeed :: rest := by
        rw [List.append_assoc]
        rfl
      obtain ⟨hline, hother⟩ := firstLine_append hfree rest
      refine ⟨row, rows, rfl, ?_, ?_⟩
      · rw [hassoc, hline, popCarriageReturn_concat]
      · rw [hassoc, hother]
        exact hrest

end Rows

section Lines

variable {entries next : List ManifestEntry} {line text : List UInt8}

structure Fits (entries : List ManifestEntry) : Prop where
  count : entries.length ≤ kMaximumManifestEntries
  distinct : (entries.map ManifestEntry.key).Nodup

theorem Fits.initial (h : Fits next) (hinitial : entries <+: next) : Fits entries := by
  obtain ⟨more, rfl⟩ := hinitial
  refine ⟨?_, ?_⟩
  · have hcount := h.count
    rw [List.length_append] at hcount
    omega
  · have hdistinct := h.distinct
    rw [List.map_append] at hdistinct
    exact hdistinct.of_append_left

/-- A line is taken exactly when it is a row of which the entries have room for the entry. -/
theorem parseLine_iff (hfits : Fits entries) : parseLine line entries = .ok next ↔
    ∃ digest path, (Row.entry digest path).Valid ∧ line = (Row.entry digest path).text ∧
      next = entries ++ [⟨path.normalized, (asciiToWide digest).map wideUpper⟩] ∧ Fits next := by
  have hroom : ∀ path sha256, Fits (entries ++ [⟨path, sha256⟩]) ↔
      ¬((entries.map fun entry => lowerCopy entry.relativePath).contains (lowerCopy path) ||
        decide (kMaximumManifestEntries ≤ entries.length)) = true := by
    intro path sha256
    have hkeys : (entries.map fun entry => lowerCopy entry.relativePath) =
      entries.map ManifestEntry.key := rfl
    rw [hkeys]
    simp only [Bool.or_eq_true, List.contains_eq_mem, decide_eq_true_eq, not_or, Nat.not_le]
    constructor
    · intro h
      have hdistinct := h.distinct
      have hcount := h.count
      rw [List.map_append, List.map_singleton, List.nodup_append] at hdistinct
      rw [List.length_append, List.length_singleton] at hcount
      refine ⟨fun hmem => ?_, by omega⟩
      exact hdistinct.2.2 _ hmem _ (List.mem_singleton_self _) rfl
    · intro h
      refine ⟨?_, ?_⟩
      · rw [List.length_append, List.length_singleton]
        omega
      · rw [List.map_append, List.map_singleton, List.nodup_append]
        refine ⟨hfits.distinct, List.nodup_singleton _, fun key hkey other hother heq => ?_⟩
        rw [List.mem_singleton.mp hother] at heq
        have hsame : key = lowerCopy path := heq
        exact h.1 (hsame ▸ hkey)
  rw [parseLine]
  constructor
  · intro h
    split at h
    · cases h
    · next hshape =>
      simp only [Bool.or_eq_true, decide_eq_true_eq, not_or, Nat.not_lt, not_not, Bool.not_eq_true',
        Bool.not_eq_false, List.all_eq_true] at hshape
      obtain ⟨⟨⟨hlength, hfirst⟩, hsecond⟩, hdigest⟩ := hshape
      cases hpath : normalizeManifestPath (line.drop 66) with
      | none =>
        rw [hpath] at h
        cases h
      | some path =>
        rw [hpath] at h
        dsimp only at h
        split at h
        · cases h
        · next hnew =>
          obtain ⟨written, hsafe, hbytes, rfl⟩ := normalizeManifestPath_iff.mp hpath
          have hline : line = line.take 64 ++ ([spaceByte, spaceByte] ++ line.drop 66) := by
            have hnext : ∀ i, i < line.length → line.drop i = line.getD i 0 :: line.drop (i + 1) := by
              intro i hi
              rw [List.getD_eq_getElem line 0 hi]
              exact List.drop_eq_getElem_cons hi
            calc
              line = line.take 64 ++ line.drop 64 := (List.take_append_drop 64 line).symm
              _ = line.take 64 ++ (line.getD 64 0 :: line.getD 65 0 :: line.drop 66) := by
                rw [hnext 64 (by omega), hnext 65 (by omega)]
              _ = line.take 64 ++ ([spaceByte, spaceByte] ++ line.drop 66) := by
                rw [hfirst, hsecond]
                rfl
          refine ⟨line.take 64, written, ⟨?_, hdigest, hsafe⟩, ?_, (Except.ok.inj h).symm, ?_⟩
          · rw [List.length_take]
            omega
          · rw [Row.text, hbytes]
            exact hline
          · rw [← Except.ok.inj h]
            exact (hroom _ _).mpr hnew
  · intro h
    obtain ⟨digest, path, ⟨hlength, hdigest, hsafe⟩, rfl, rfl, hnext⟩ := h
    obtain ⟨c, first, hfirst⟩ := List.exists_cons_of_ne_nil hsafe.first.nonempty
    have hpath : normalizeManifestPath path.bytes = some path.normalized :=
      normalizeManifestPath_iff.mpr ⟨path, hsafe, rfl, rfl⟩
    have htake : (Row.entry digest path).text.take 64 = digest := by
      rw [Row.text, ← hlength, List.take_left]
    have hdrop : (Row.entry digest path).text.drop 66 = path.bytes := by
      rw [Row.text, ← List.append_assoc]
      exact List.drop_left' (by rw [List.length_append, hlength]; rfl)
    have hblanks : (Row.entry digest path).text.getD 64 0 = spaceByte ∧
        (Row.entry digest path).text.getD 65 0 = spaceByte := by
      rw [Row.text, List.getD_append_right digest _ 0 64 (by omega),
        List.getD_append_right digest _ 0 65 (by omega), hlength]
      exact ⟨rfl, rfl⟩
    have hlong : ¬(Row.entry digest path).text.length < 67 := by
      rw [Row.text, List.length_append, List.length_append, hlength, PathText.bytes, hfirst]
      simp only [List.length_cons, List.length_nil, List.length_append]
      omega
    rw [if_neg]
    · rw [hdrop, hpath]
      dsimp only
      rw [if_neg ((hroom _ _).mp hnext), htake]
    · simp only [Bool.or_eq_true, decide_eq_true_eq, not_or, not_not, Bool.not_eq_true',
        Bool.not_eq_false, List.all_eq_true]
      exact ⟨⟨⟨hlong, hblanks.1⟩, hblanks.2⟩, htake.symm ▸ hdigest⟩

theorem filterMap_entry (digest : List UInt8) (path : PathText) (rows : List Row) :
    (Row.entry digest path :: rows).filterMap Row.entry? =
      ⟨path.normalized, (asciiToWide digest).map wideUpper⟩ :: rows.filterMap Row.entry? := rfl

theorem parseLines_succ (fuel : Nat) (entries : List ManifestEntry) (hnil : text ≠ []) :
    parseLines (fuel + 1) text entries =
      if (popCarriageReturn (firstLine text)).isEmpty then parseLines fuel (otherLines text) entries
      else match parseLine (popCarriageReturn (firstLine text)) entries with
        | .error error => .error error
        | .ok entries => parseLines fuel (otherLines text) entries := by
  rw [parseLines, if_neg fun hempty => hnil (List.isEmpty_iff.mp hempty)]
  rfl

/-- The loop takes a text exactly when it is a document of valid rows with room for their entries. -/
theorem parseLines_iff {fuel : Nat} (hfuel : text.length ≤ fuel) (hfits : Fits entries) :
    parseLines fuel text entries = .ok next ↔
      ∃ rows, Document openTails text rows ∧ (∀ row ∈ rows, row.Valid) ∧
        next = entries ++ rows.filterMap Row.entry? ∧ Fits next := by
  induction fuel generalizing text entries with
  | zero =>
    obtain rfl := List.eq_nil_of_length_eq_zero (Nat.le_zero.mp hfuel)
    rw [parseLines]
    constructor
    · intro h
      obtain rfl := Except.ok.inj h
      exact ⟨[], .nil, nofun, (List.append_nil _).symm, hfits⟩
    · intro h
      obtain ⟨rows, hdocument, -, rfl, -⟩ := h
      rw [document_nil hdocument rfl, List.filterMap_nil, List.append_nil]
  | succ fuel ih =>
    by_cases hnil : text = []
    · subst hnil
      rw [parseLines, if_pos (show ([] : List UInt8).isEmpty = true from rfl)]
      constructor
      · intro h
        obtain rfl := Except.ok.inj h
        exact ⟨[], .nil, nofun, (List.append_nil _).symm, hfits⟩
      · intro h
        obtain ⟨rows, hdocument, -, rfl, -⟩ := h
        rw [document_nil hdocument rfl, List.filterMap_nil, List.append_nil]
    · have hless : (otherLines text).length ≤ fuel := by
        have hlt := otherLines_length hnil
        omega
      rw [parseLines_succ fuel entries hnil]
      by_cases hblank : popCarriageReturn (firstLine text) = []
      · rw [if_pos (List.isEmpty_iff.mpr hblank), ih hless hfits]
        constructor
        · intro h
          obtain ⟨rows, hdocument, hvalid, hnext, hall⟩ := h
          refine ⟨.blank :: rows, document_cons hnil hblank.symm hdocument, ?_, hnext, hall⟩
          exact List.forall_mem_cons.mpr ⟨trivial, hvalid⟩
        · intro h
          obtain ⟨rows, hdocument, hvalid, hnext, hall⟩ := h
          obtain ⟨row, rest, rfl, hrow, hrest⟩ := document_uncons hdocument hnil hvalid
          obtain ⟨hfirst, hothers⟩ := List.forall_mem_cons.mp hvalid
          cases row with
          | blank => exact ⟨rest, hrest, hothers, hnext, hall⟩
          | entry digest path =>
            rw [hblank] at hrow
            have hdigest := (List.append_eq_nil_iff.mp hrow).1
            rw [hdigest] at hfirst
            cases hfirst.1
      · rw [if_neg (fun hempty => hblank (List.isEmpty_iff.mp hempty))]
        constructor
        · intro h
          cases hline : parseLine (popCarriageReturn (firstLine text)) entries with
          | error error =>
            rw [hline] at h
            cases h
          | ok entries' =>
            rw [hline] at h
            obtain ⟨digest, path, hvalid, htext, rfl, hfits'⟩ := (parseLine_iff hfits).mp hline
            obtain ⟨rows, hdocument, hothers, rfl, hall⟩ := (ih hless hfits').mp h
            refine ⟨.entry digest path :: rows, document_cons hnil htext.symm hdocument,
              List.forall_mem_cons.mpr ⟨hvalid, hothers⟩, ?_, hall⟩
            rw [filterMap_entry, List.append_assoc, List.singleton_append]
        · intro h
          obtain ⟨rows, hdocument, hvalid, hnext, hall⟩ := h
          obtain ⟨row, rest, rfl, hrow, hrest⟩ := document_uncons hdocument hnil hvalid
          obtain ⟨hfirst, hothers⟩ := List.forall_mem_cons.mp hvalid
          cases row with
          | blank => exact absurd hrow.symm hblank
          | entry digest path =>
            have hentries : next =
                entries ++ [⟨path.normalized, (asciiToWide digest).map wideUpper⟩] ++
                  rest.filterMap Row.entry? := by
              rw [hnext, filterMap_entry, List.append_assoc, List.singleton_append]
            have hfits' := hall.initial (hentries ▸ List.prefix_append _ _)
            have hline := (parseLine_iff hfits).mpr ⟨digest, path, hfirst, hrow.symm, rfl, hfits'⟩
            rw [hline]
            exact (ih hless hfits').mpr ⟨rest, hrest, hothers, hentries, hall⟩

end Lines

section Texts

variable {text : List UInt8} {entries : List ManifestEntry}

theorem parseManifestText_iff : parseManifestText text = ⟨true, entries, none⟩ ↔
    Manifest openTails text entries := by
  have hfits : Fits ([] : List ManifestEntry) := ⟨Nat.zero_le _, List.nodup_nil⟩
  have hlines : ∀ next, parseLines text.length text [] = .ok next ↔
      ∃ rows, Document openTails text rows ∧ (∀ row ∈ rows, row.Valid) ∧
        next = rows.filterMap Row.entry? ∧ Fits next := by
    intro next
    have h := @parseLines_iff [] next text text.length (Nat.le_refl text.length) hfits
    simpa only [List.nil_append] using h
  rw [parseManifestText]
  constructor
  · intro h
    split at h
    · cases h
    · next hsize =>
      simp only [Bool.or_eq_true, List.isEmpty_iff, decide_eq_true_eq, not_or, Nat.not_lt] at hsize
      cases hparsed : parseLines text.length text [] with
      | error error =>
        rw [hparsed] at h
        cases h
      | ok next =>
        rw [hparsed] at h
        obtain ⟨rows, hdocument, hvalid, hnext, hall⟩ := (hlines next).mp hparsed
        cases next with
        | nil => cases h
        | cons first next =>
          obtain rfl := congrArg Parsed.entries h
          refine ⟨⟨List.length_pos_iff.mpr hsize.1, hsize.2⟩, ⟨rows, hdocument, hvalid, hnext⟩,
            ⟨?_, hall.count⟩, hall.distinct⟩
          exact Nat.succ_le_succ (Nat.zero_le _)
  · intro h
    obtain ⟨rows, hdocument, hvalid, hentries⟩ := h.rows
    have hparsed := (hlines entries).mpr ⟨rows, hdocument, hvalid, hentries, h.count.2, h.distinct⟩
    rw [if_neg, hparsed]
    · cases entries with
      | nil => exact absurd h.count.1 (Nat.not_succ_le_zero 0)
      | cons first entries => rfl
    · simp only [Bool.or_eq_true, List.isEmpty_iff, decide_eq_true_eq, not_or, Nat.not_lt]
      exact ⟨List.length_pos_iff.mp h.size.1, h.size.2⟩

theorem entries_of_failed (h : (parseManifestText text).succeeded = false) :
    (parseManifestText text).entries = [] := by
  revert h
  rw [parseManifestText]
  split
  · exact fun _ => rfl
  · split
    · exact fun _ => rfl
    · exact fun _ => rfl
    · exact fun h => Bool.noConfusion h

theorem eq_of_succeeded (h : (parseManifestText text).succeeded = true) :
    parseManifestText text = ⟨true, (parseManifestText text).entries, none⟩ := by
  revert h
  rw [parseManifestText]
  split
  · exact fun h => Bool.noConfusion h
  · split
    · exact fun h => Bool.noConfusion h
    · exact fun h => Bool.noConfusion h
    · exact fun _ => rfl

end Texts

section Rendering

def narrow (value : WString) : List UInt8 := value.map UInt16.toUInt8

def ManifestEntry.line (entry : ManifestEntry) : List UInt8 :=
  narrow entry.sha256 ++ ([spaceByte, spaceByte] ++ narrow entry.relativePath)

def render (lineEnd : LineEnd) (entries : List ManifestEntry) : List UInt8 :=
  entries.flatMap fun entry => entry.line ++ lineEnd.bytes

theorem narrow_asciiToWide (value : List UInt8) : narrow (asciiToWide value) = value := by
  rw [narrow, asciiToWide, List.map_map]
  refine (List.map_congr_left fun c _ => ?_).trans (List.map_id value)
  exact UInt8.toUInt8_toUInt16 c

theorem wideUpper_toUInt16 (c : UInt8) : wideUpper c.toUInt16 = (toUpper c).toUInt16 := by
  have hnat : c.toUInt16.toNat = c.toNat := UInt8.toNat_toUInt16 c
  have hlow : (0x61 : UInt16) ≤ c.toUInt16 ↔ 0x61 ≤ c := by
    rw [UInt16.le_iff_toNat_le, UInt8.le_iff_toNat_le, hnat]
    rfl
  have hhigh : c.toUInt16 ≤ (0x7A : UInt16) ↔ c ≤ 0x7A := by
    rw [UInt16.le_iff_toNat_le, UInt8.le_iff_toNat_le, hnat]
    rfl
  rw [wideUpper, toUpper]
  simp only [hlow, hhigh]
  split
  · next hletter =>
    simp only [Bool.and_eq_true, decide_eq_true_eq] at hletter
    have hle : (0x20 : UInt8) ≤ c := UInt8.le_trans (by decide) hletter.1
    have hle' : (0x20 : UInt16) ≤ c.toUInt16 :=
      UInt16.le_trans (by decide) (hlow.mpr hletter.1)
    apply UInt16.toNat_inj.mp
    rw [UInt16.toNat_sub_of_le _ _ hle', UInt8.toNat_toUInt16 (c - 0x20), UInt8.toNat_sub_of_le _ _ hle,
      hnat]
    rfl
  · rfl

theorem toUpper_of_hex {c : UInt8} (h : isHexCharacter c = true) :
    isHexCharacter (toUpper c) = true ∧ toUpper (toUpper c) = toUpper c := by
  have hall : ∀ n < 256, isHexCharacter (UInt8.ofNat n) = true →
      isHexCharacter (toUpper (UInt8.ofNat n)) = true ∧
        toUpper (toUpper (UInt8.ofNat n)) = toUpper (UInt8.ofNat n) := by decide +kernel
  have hc := hall c.toNat c.toNat_lt
  rw [UInt8.ofNat_toNat] at hc
  exact hc h

def PathText.standard (path : PathText) : PathText :=
  ⟨path.first, path.more.map fun next => (backslashByte, next.2)⟩

theorem PathText.normalized_standard (path : PathText) : path.standard.normalized = path.normalized := by
  rw [PathText.normalized, PathText.normalized, PathText.standard, List.flatMap_map]

theorem PathText.narrow_normalized (path : PathText) : narrow path.normalized = path.standard.bytes := by
  have hmore : narrow (path.more.flatMap fun next => backslash :: asciiToWide next.2) =
      path.more.flatMap fun next => backslashByte :: next.2 := by
    rw [narrow, List.map_flatMap]
    refine List.flatMap_congr fun next _ => ?_
    exact congrArg (backslashByte :: ·) (narrow_asciiToWide next.2)
  have hfirst := narrow_asciiToWide path.first
  rw [PathText.bytes, PathText.standard, List.flatMap_map, ← hmore]
  unfold narrow at hfirst ⊢
  rw [PathText.normalized, List.map_append, hfirst]

theorem PathText.Safe.standard {path : PathText} (h : path.Safe) : path.standard.Safe := by
  refine ⟨h.first, ?_, ?_⟩
  · intro next hnext
    obtain ⟨written, hwritten, rfl⟩ := List.mem_map.mp hnext
    exact ⟨Or.inr rfl, (h.more written hwritten).2⟩
  · have hlength : path.standard.bytes.length = path.bytes.length := by
      simp only [PathText.bytes, PathText.standard, List.flatMap_map, List.length_append,
        List.length_flatMap, List.length_cons]
    exact hlength ▸ h.length_le

def Row.standard : Row → Row
  | .blank => .blank
  | .entry digest path => .entry (digest.map toUpper) path.standard

theorem Row.standard_spec {digest : List UInt8} {path : PathText} (h : (Row.entry digest path).Valid) :
    let entry : ManifestEntry := ⟨path.normalized, (asciiToWide digest).map wideUpper⟩
    (Row.entry digest path).standard.Valid ∧ (Row.entry digest path).standard.entry? = some entry ∧
      (Row.entry digest path).standard.text = entry.line := by
  obtain ⟨hlength, hdigest, hsafe⟩ := h
  have hupper : (asciiToWide digest).map wideUpper = asciiToWide (digest.map toUpper) := by
    rw [asciiToWide, asciiToWide, List.map_map, List.map_map]
    exact List.map_congr_left fun c _ => wideUpper_toUInt16 c
  have hagain : (asciiToWide (digest.map toUpper)).map wideUpper = asciiToWide (digest.map toUpper) := by
    rw [asciiToWide, List.map_map, List.map_map, List.map_map]
    refine List.map_congr_left fun c hc => ?_
    exact (wideUpper_toUInt16 (toUpper c)).trans
      (congrArg UInt8.toUInt16 (toUpper_of_hex (hdigest c hc)).2)
  refine ⟨⟨?_, ?_, hsafe.standard⟩, ?_, ?_⟩
  · rw [List.length_map, hlength]
  · intro c hc
    obtain ⟨written, hwritten, rfl⟩ := List.mem_map.mp hc
    exact (toUpper_of_hex (hdigest written hwritten)).1
  · rw [Row.standard, Row.entry?, path.normalized_standard, hagain, hupper]
  · rw [Row.standard, Row.text, ManifestEntry.line, path.narrow_normalized, hupper, narrow_asciiToWide]

/-- What is rendered of the rows of a document is a document of the same entries. -/
theorem document_render (lineEnd : LineEnd) {rows : List Row} (h : ∀ row ∈ rows, row.Valid) :
    ∃ rows', Document openTails (render lineEnd (rows.filterMap Row.entry?)) rows' ∧
      (∀ row ∈ rows', row.Valid) ∧ rows'.filterMap Row.entry? = rows.filterMap Row.entry? := by
  induction rows with
  | nil => exact ⟨[], .nil, nofun, rfl⟩
  | cons row rows ih =>
    obtain ⟨hrow, hrest⟩ := List.forall_mem_cons.mp h
    obtain ⟨rows', hdocument, hvalid, hentries⟩ := ih hrest
    cases row with
    | blank => exact ⟨rows', hdocument, hvalid, hentries⟩
    | entry digest path =>
      obtain ⟨hstandard, hentry, htext⟩ := Row.standard_spec hrow
      refine ⟨(Row.entry digest path).standard :: rows', ?_,
        List.forall_mem_cons.mpr ⟨hstandard, hvalid⟩, ?_⟩
      · have hrendered : render lineEnd ((Row.entry digest path :: rows).filterMap Row.entry?) =
            (Row.entry digest path).standard.text ++ (lineEnd.bytes ++
              render lineEnd (rows.filterMap Row.entry?)) := by
          rw [filterMap_entry, render, List.flatMap_cons, htext, List.append_assoc]
          rfl
        rw [hrendered]
        exact .line _ lineEnd hdocument
      · rw [List.filterMap_cons, hentry, filterMap_entry, hentries]

theorem line_length_le {digest : List UInt8} {path : PathText} (h : (Row.entry digest path).Valid) :
    (Row.entry digest path).standard.text.length ≤ 1090 := by
  obtain ⟨hlength, -, hsafe⟩ := h
  have hpath := hsafe.standard.length_le
  rw [Row.standard, Row.text, List.length_append, List.length_append, List.length_map, hlength]
  simp only [List.length_cons, List.length_nil]
  omega

theorem render_length_le (lineEnd : LineEnd) {rows : List Row} (h : ∀ row ∈ rows, row.Valid) :
    (render lineEnd (rows.filterMap Row.entry?)).length ≤ (rows.filterMap Row.entry?).length * 1092 := by
  induction rows with
  | nil => exact Nat.zero_le _
  | cons row rows ih =>
    obtain ⟨hrow, hrest⟩ := List.forall_mem_cons.mp h
    have hbound := ih hrest
    cases row with
    | blank => exact hbound
    | entry digest path =>
      have hline := line_length_le hrow
      rw [(Row.standard_spec hrow).2.2] at hline
      have hend : lineEnd.bytes.length ≤ 2 := by
        cases lineEnd with
        | lf => decide
        | crlf => decide
      rw [filterMap_entry]
      simp only [render, List.flatMap_cons, List.length_append, List.length_cons] at hbound hline ⊢
      omega

theorem Manifest.render {text : List UInt8} {entries : List ManifestEntry}
    (h : Manifest openTails text entries) (lineEnd : LineEnd) :
    Manifest openTails (render lineEnd entries) entries := by
  obtain ⟨rows, -, hvalid, rfl⟩ := h.rows
  obtain ⟨rows', hdocument, hvalid', hentries⟩ := document_render lineEnd hvalid
  have hlength := render_length_le lineEnd hvalid
  have hcount := h.count
  refine ⟨⟨?_, ?_⟩, ⟨rows', hdocument, hvalid', hentries.symm⟩, hcount, h.distinct⟩
  · cases hentries : rows.filterMap Row.entry? with
    | nil =>
      rw [hentries] at hcount
      exact absurd hcount.1 (Nat.not_succ_le_zero 0)
    | cons entry entries =>
      simp only [Manager.render, List.flatMap_cons, List.length_append, ManifestEntry.line,
        List.length_cons]
      omega
  · have hroom : kMaximumManifestEntries * 1092 ≤ kMaximumManifestBytes := by decide
    exact (hlength.trans (Nat.mul_le_mul_right 1092 hcount.2)).trans hroom

end Rendering

section Exactness

/-- The parser accepts manifests only and all of them, leaves no entry where it fails, and reads back
what is rendered of its entries. -/
theorem manifest_exact (text : List UInt8) :
    (∀ entries, parseManifestText text = ⟨true, entries, none⟩ ↔ Manifest openTails text entries) ∧
    ((parseManifestText text).succeeded = false → (parseManifestText text).entries = []) ∧
    ∀ lineEnd, (parseManifestText text).succeeded = true →
      parseManifestText (render lineEnd (parseManifestText text).entries) =
        ⟨true, (parseManifestText text).entries, none⟩ := by
  refine ⟨fun entries => parseManifestText_iff, entries_of_failed, ?_⟩
  intro lineEnd hsucceeded
  have hmanifest := parseManifestText_iff.mp (eq_of_succeeded hsucceeded)
  exact parseManifestText_iff.mpr (hmanifest.render lineEnd)

theorem Document.getLast?_ne {text : List UInt8} {rows : List Row} (h : Document [[]] text rows)
    (hvalid : ∀ row ∈ rows, row.Valid) : text.getLast? ≠ some carriageReturn := by
  induction h with
  | nil => exact nofun
  | last row tail htail hne =>
    rw [List.mem_singleton.mp htail, List.append_nil]
    exact (hvalid row List.mem_cons_self).getLast?_ne
  | line row lineEnd hrest ih =>
    rename_i rest rows
    have hlast := ih (List.forall_mem_cons.mp hvalid).2
    cases hcase : rest with
    | nil =>
      rw [List.append_nil]
      cases lineEnd with
      | lf => simp [LineEnd.bytes, lineFeed, carriageReturn]
      | crlf => simp [LineEnd.bytes, lineFeed, carriageReturn]
    | cons c rest =>
      rw [hcase] at hlast
      rwa [List.getLast?_append_of_ne_nil _ (by simp), List.getLast?_append_of_ne_nil _ (by simp)]

/-- One entry, whose line ends in a carriage return without a line feed. -/
def loneCarriageReturn : List UInt8 := List.replicate 64 0x61 ++ ascii "  a" ++ [carriageReturn]

theorem loneCarriageReturn_accepted :
    (parseManifestText loneCarriageReturn).succeeded = true ∧
      ¬∃ entries, Manifest [[]] loneCarriageReturn entries := by
  refine ⟨by decide +kernel, ?_⟩
  intro h
  obtain ⟨entries, hmanifest⟩ := h
  obtain ⟨rows, hdocument, hvalid, -⟩ := hmanifest.rows
  exact hdocument.getLast?_ne hvalid List.getLast?_concat

end Exactness

end FfbInterceptor.Manager
