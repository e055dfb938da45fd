import FfbInterceptor.Manager.Manifest

/-! The manifests of packages as texts, and what the path normaliser accepts of them. -/
namespace FfbInterceptor.Manager
open FfbInterceptor.Launcher

section Grammar

def DeviceName (name : List UInt8) : Prop :=
  name ∈ ["CON", "PRN", "AUX", "NUL", "CONIN$", "CONOUT$"].map ascii ∨
    ∃ digit, 0x31 ≤ digit ∧ digit ≤ 0x39 ∧
      (name = ascii "COM" ++ [digit] ∨ name = ascii "LPT" ++ [digit])

def IsSeparator (c : UInt8) : Prop := c = slash ∨ c = backslashByte

/-- What a segment of a manifest path may be. -/
structure SafeSegment (segment : List UInt8) : Prop where
  nonempty : segment ≠ []
  length_le : segment.length ≤ 255
  printable : ∀ c ∈ segment, 0x20 ≤ c ∧ c ≤ 0x7E
  allowed : ∀ c ∈ segment, ¬IsSeparator c ∧ c ∉ ascii "<>:\"|?*"
  not_dots : segment ≠ [dot] ∧ segment ≠ [dot, dot]
  ending : segment.getLast? ≠ some dot ∧ segment.getLast? ≠ some spaceByte
  not_device : ¬DeviceName (deviceName segment)

/-- A path as it is written: segments with their separators. -/
structure PathText where
  first : List UInt8
  more : List (UInt8 × List UInt8)

def PathText.bytes (path : PathText) : List UInt8 :=
  path.first ++ path.more.flatMap fun next => next.1 :: next.2

/-- The path with separators of Windows. -/
def PathText.normalized (path : PathText) : WString :=
  asciiToWide path.first ++ path.more.flatMap fun next => backslash :: asciiToWide next.2

structure PathText.Safe (path : PathText) : Prop where
  first : SafeSegment path.first
  more : ∀ next ∈ path.more, IsSeparator next.1 ∧ SafeSegment next.2
  length_le : path.bytes.length ≤ 1024

/-- A line without its end. -/
inductive Row where
  | blank
  | entry (digest : List UInt8) (path : PathText)

def Row.text : Row → List UInt8
  | .blank => []
  | .entry digest path => digest ++ ([spaceByte, spaceByte] ++ path.bytes)

def Row.Valid : Row → Prop
  | .blank => True
  | .entry digest path => digest.length = 64 ∧ (∀ c ∈ digest, isHexCharacter c = true) ∧ path.Safe

def Row.entry? : Row → Option ManifestEntry
  | .blank => none
  | .entry digest path => some ⟨path.normalized, (asciiToWide digest).map wideUpper⟩

inductive LineEnd where
  | lf
  | crlf

def LineEnd.bytes : LineEnd → List UInt8
  | .lf => [lineFeed]
  | .crlf => [carriageReturn, lineFeed]

/-- Lines with their ends; the last line may end in one of the `tails` instead. -/
inductive Document (tails : List (List UInt8)) : List UInt8 → List Row → Prop
  | nil : Document tails [] []
  | last (row : Row) (tail : List UInt8) : tail ∈ tails → row.text ++ tail ≠ [] →
      Document tails (row.text ++ tail) [row]
  | line (row : Row) (lineEnd : LineEnd) {rest : List UInt8} {rows : List Row} :
      Document tails rest rows → Document tails (row.text ++ (lineEnd.bytes ++ rest)) (row :: rows)

/-- The tails of the code: no end at all, or a carriage return without a line feed. -/
def openTails : List (List UInt8) := [[], [carriageReturn]]

/-- The name under which two paths count as the same. -/
def ManifestEntry.key (entry : ManifestEntry) : WString := lowerCopy entry.relativePath

/-- The text is a manifest of these entries. -/
structure Manifest (tails : List (List UInt8)) (text : List UInt8) (entries : List ManifestEntry) :
    Prop where
  size : 1 ≤ text.length ∧ text.length ≤ kMaximumManifestBytes
  rows : ∃ rows, Document tails text rows ∧ (∀ row ∈ rows, row.Valid) ∧
    entries = rows.filterMap Row.entry?
  count : 1 ≤ entries.length ∧ entries.length ≤ kMaximumManifestEntries
  distinct : (entries.map ManifestEntry.key).Nodup

end Grammar

section Segments

variable {segment input : List UInt8} {output out : WString}

theorem isNumberedDevice_iff (name : List UInt8) : isNumberedDevice name = true ↔
    ∃ digit, 0x31 ≤ digit ∧ digit ≤ 0x39 ∧
      (name = ascii "COM" ++ [digit] ∨ name = ascii "LPT" ++ [digit]) := by
  have hcom : ascii "COM" = [0x43, 0x4F, 0x4D] := by decide
  have hlpt : ascii "LPT" = [0x4C, 0x50, 0x54] := by decide
  rw [isNumberedDevice, hcom, hlpt]
  simp only [Bool.and_eq_true, Bool.or_eq_true, decide_eq_true_eq, List.isPrefixOf_iff_prefix]
  constructor
  · intro h
    obtain ⟨⟨⟨hlength, hname⟩, hlow⟩, hhigh⟩ := h
    have hdigit : ∀ front : List UInt8, front.length = 3 → front <+: name →
        name = front ++ [name.getD 3 0] := by
      intro front hfront hpre
      obtain ⟨rest, rfl⟩ := hpre
      rw [List.length_append, hfront] at hlength
      obtain ⟨last, rfl⟩ := List.length_eq_one_iff.mp (show rest.length = 1 by omega)
      simp [List.getD, ← hfront]
    refine ⟨name.getD 3 0, hlow, hhigh, ?_⟩
    exact hname.imp (hdigit _ rfl) (hdigit _ rfl)
  · intro h
    obtain ⟨digit, hlow, hhigh, rfl | rfl⟩ := h
    · exact ⟨⟨⟨rfl, Or.inl ⟨[digit], rfl⟩⟩, hlow⟩, hhigh⟩
    · exact ⟨⟨⟨rfl, Or.inr ⟨[digit], rfl⟩⟩, hlow⟩, hhigh⟩

theorem isDevice_iff (name : List UInt8) : isDevice name = true ↔ DeviceName name := by
  rw [isDevice, DeviceName, Bool.or_eq_true, isNumberedDevice_iff]
  refine or_congr_left ?_
  simp only [Bool.or_eq_true, decide_eq_true_eq, List.map_cons, List.map_nil, List.mem_cons,
    List.not_mem_nil, or_false, or_assoc]

theorem isForbidden_iff (c : UInt8) (hseparator : ¬IsSeparator c) (hcolon : c ≠ colon) :
    isForbidden c = false ↔ (0x20 ≤ c ∧ c ≤ 0x7E) ∧ ¬IsSeparator c ∧ c ∉ ascii "<>:\"|?*" := by
  have hlist : ascii "<>:\"|?*" = [0x3C, 0x3E, 0x3A, 0x22, 0x7C, 0x3F, 0x2A] := by decide
  have hcolon' : c ≠ 0x3A := hcolon
  rw [hlist, isForbidden]
  simp only [hseparator, not_false_eq_true, true_and, List.mem_cons, List.not_mem_nil, or_false,
    not_or, Bool.or_eq_false_iff, decide_eq_false_iff_not]
  have hlow : ¬c < 0x20 ↔ 0x20 ≤ c := UInt8.not_lt
  have hhigh : ¬0x7F ≤ c ↔ c ≤ 0x7E := by
    rw [UInt8.le_iff_toNat_le, UInt8.le_iff_toNat_le]
    have h7F : (0x7F : UInt8).toNat = 127 := rfl
    have h7E : (0x7E : UInt8).toNat = 126 := rfl
    omega
  rw [hlow, hhigh]
  tauto

/-- The output before the next segment. -/
def separated (output : WString) : WString :=
  if output.isEmpty then output else output ++ [backslash]

theorem flushSegment_iff (hseparator : ∀ c ∈ segment, ¬IsSeparator c) (hcolon : colon ∉ segment) :
    flushSegment output segment = some out ↔
      SafeSegment segment ∧ out = separated output ++ asciiToWide segment := by
  have hforbidden : segment.any isForbidden = false ↔
      ∀ c ∈ segment, (0x20 ≤ c ∧ c ≤ 0x7E) ∧ ¬IsSeparator c ∧ c ∉ ascii "<>:\"|?*" := by
    rw [List.any_eq_false]
    refine forall₂_congr fun c hc => ?_
    rw [Bool.not_eq_true, isForbidden_iff c (hseparator c hc) (fun heq => hcolon (heq ▸ hc))]
  rw [flushSegment]
  constructor
  · intro h
    split at h
    · cases h
    · next hshape =>
      split at h
      · cases h
      · next hdevice =>
        split at h
        · cases h
        · next hcharacters =>
          simp only [Bool.or_eq_true, List.isEmpty_iff, decide_eq_true_eq, not_or, Nat.not_lt] at hshape
          obtain ⟨⟨⟨⟨⟨hempty, hlength⟩, hdot⟩, hdots⟩, hlast⟩, hblank⟩ := hshape
          have hall := hforbidden.mp (Bool.eq_false_iff.mpr hcharacters)
          refine ⟨⟨hempty, hlength, fun c hc => (hall c hc).1, fun c hc => (hall c hc).2,
            ⟨hdot, hdots⟩, ⟨hlast, hblank⟩, fun hname => hdevice ((isDevice_iff _).mpr hname)⟩, ?_⟩
          exact (Option.some.inj h).symm
  · intro h
    obtain ⟨hsafe, rfl⟩ := h
    have hall := hforbidden.mpr fun c hc => ⟨hsafe.printable c hc, hsafe.allowed c hc⟩
    have hdevice : ¬isDevice (deviceName segment) = true := fun hname =>
      hsafe.not_device ((isDevice_iff _).mp hname)
    have hlength := Nat.not_lt.mpr hsafe.length_le
    rw [if_neg, if_neg hdevice, if_neg (Bool.eq_false_iff.mp hall)]
    · rfl
    · simp only [Bool.or_eq_true, List.isEmpty_iff, decide_eq_true_eq, not_or]
      exact ⟨⟨⟨⟨⟨hsafe.nonempty, hlength⟩, hsafe.not_dots.1⟩, hsafe.not_dots.2⟩, hsafe.ending.1⟩,
        hsafe.ending.2⟩

theorem separated_of_ne {output : WString} (h : output ≠ []) :
    separated output = output ++ [backslash] :=
  if_neg (fun hempty => h (List.isEmpty_iff.mp hempty))

theorem split_at_separator {xs xs' ys ys' : List UInt8} {a a' : UInt8}
    (hxs : ∀ c ∈ xs, ¬IsSeparator c) (hxs' : ∀ c ∈ xs', ¬IsSeparator c) (ha : IsSeparator a)
    (ha' : IsSeparator a') (h : xs ++ a :: ys = xs' ++ a' :: ys') : xs = xs' ∧ a = a' ∧ ys = ys' := by
  induction xs generalizing xs' with
  | nil =>
    cases xs' with
    | nil => exact ⟨rfl, List.cons.inj h⟩
    | cons c xs' =>
      obtain ⟨rfl, -⟩ := List.cons.inj h
      exact absurd ha (hxs' a List.mem_cons_self)
  | cons c xs ih =>
    cases xs' with
    | nil =>
      obtain ⟨rfl, -⟩ := List.cons.inj h
      exact absurd ha' (hxs c List.mem_cons_self)
    | cons c' xs' =>
      obtain ⟨rfl, htail⟩ := List.cons.inj h
      obtain ⟨hsame, hrest⟩ := ih (fun d hd => hxs d (List.mem_cons_of_mem c hd))
        (fun d hd => hxs' d (List.mem_cons_of_mem c hd)) htail
      exact ⟨congrArg (c :: ·) hsame, hrest⟩

theorem separator_nil : ∀ c ∈ ([] : List UInt8), ¬IsSeparator c := fun _ hc => absurd hc List.not_mem_nil

/-- The loop cuts the segments of a path one by one. -/
theorem normalizeLoop_iff (hseparator : ∀ c ∈ segment, ¬IsSeparator c)
    (hcolon : colon ∉ segment ++ input) :
    normalizeLoop output segment input = some out ↔
      ∃ path : PathText, SafeSegment path.first ∧
        (∀ next ∈ path.more, IsSeparator next.1 ∧ SafeSegment next.2) ∧
        path.bytes = segment ++ input ∧ out = separated output ++ path.normalized := by
  have hfree : ∀ path : PathText, SafeSegment path.first → ∀ c ∈ path.first, ¬IsSeparator c :=
    fun path hsafe c hc => (hsafe.allowed c hc).1
  induction input generalizing segment output with
  | nil =>
    rw [List.append_nil] at hcolon ⊢
    rw [normalizeLoop, flushSegment_iff hseparator hcolon]
    constructor
    · intro h
      refine ⟨⟨segment, []⟩, h.1, nofun, List.append_nil segment, ?_⟩
      rw [h.2]
      exact congrArg (separated output ++ ·) (List.append_nil _).symm
    · intro h
      obtain ⟨⟨first, more⟩, hfirst, hmore, hbytes, rfl⟩ := h
      cases more with
      | nil =>
        have hsame : first = segment := by
          rwa [PathText.bytes, List.flatMap_nil, List.append_nil] at hbytes
        subst hsame
        refine ⟨hfirst, ?_⟩
        rw [PathText.normalized, List.flatMap_nil, List.append_nil]
      | cons next more =>
        have hmem : next.1 ∈ segment := by
          rw [← hbytes, PathText.bytes, List.flatMap_cons]
          simp
        exact absurd (hmore next List.mem_cons_self).1 (hseparator _ hmem)
  | cons c rest ih =>
    have hcolonSegment : colon ∉ segment := fun hmem => hcolon (List.mem_append_left _ hmem)
    have hcolonRest : colon ∉ ([] : List UInt8) ++ rest := fun hmem =>
      hcolon (List.mem_append_right _ (List.mem_cons_of_mem c hmem))
    rw [normalizeLoop]
    by_cases hc : IsSeparator c
    · have htest : (decide (c = slash) || decide (c = backslashByte)) = true := by
        simpa [IsSeparator] using hc
      rw [if_pos htest]
      constructor
      · intro h
        cases hflush : flushSegment output segment with
        | none =>
          rw [hflush] at h
          cases h
        | some flushed =>
          rw [hflush] at h
          obtain ⟨hsafe, rfl⟩ := (flushSegment_iff hseparator hcolonSegment).mp hflush
          obtain ⟨path, hfirst, hmore, hbytes, rfl⟩ := (ih separator_nil hcolonRest).mp h
          refine ⟨⟨segment, (c, path.first) :: path.more⟩, hsafe, ?_, ?_, ?_⟩
          · intro next hnext
            cases List.mem_cons.mp hnext with
            | inl hhead => exact hhead ▸ ⟨hc, hfirst⟩
            | inr htail => exact hmore next htail
          · rw [List.nil_append] at hbytes
            rw [← hbytes, PathText.bytes, PathText.bytes, List.flatMap_cons, List.cons_append]
          · have hne : separated output ++ asciiToWide segment ≠ [] := by
              apply List.append_ne_nil_of_right_ne_nil
              exact fun hnil => hsafe.nonempty (List.map_eq_nil_iff.mp hnil)
            rw [separated_of_ne hne, PathText.normalized, PathText.normalized, List.flatMap_cons]
            simp only [List.append_assoc, List.cons_append, List.nil_append]
      · intro h
        obtain ⟨⟨first, more⟩, hfirst, hmore, hbytes, rfl⟩ := h
        cases more with
        | nil =>
          have hmem : c ∈ first := by
            have hall : first = segment ++ c :: rest := by
              rwa [PathText.bytes, List.flatMap_nil, List.append_nil] at hbytes
            rw [hall]
            exact List.mem_append_right _ List.mem_cons_self
          exact absurd hc (hfirst.allowed c hmem).1
        | cons next more =>
          obtain ⟨hnext, hsegment⟩ := hmore next List.mem_cons_self
          rw [PathText.bytes, List.flatMap_cons, List.cons_append] at hbytes
          obtain ⟨rfl, rfl, hrest⟩ :=
            split_at_separator (hfree ⟨first, []⟩ hfirst) hseparator hnext hc hbytes
          have hflush : flushSegment output first = some (separated output ++ asciiToWide first) :=
            (flushSegment_iff hseparator hcolonSegment).mpr ⟨hfirst, rfl⟩
          rw [hflush]
          dsimp only
          refine (ih separator_nil hcolonRest).mpr ⟨⟨next.2, more⟩, hsegment,
            fun other hother => hmore other (List.mem_cons_of_mem next hother), hrest, ?_⟩
          have hne : separated output ++ asciiToWide first ≠ [] := by
            apply List.append_ne_nil_of_right_ne_nil
            exact fun hnil => hfirst.nonempty (List.map_eq_nil_iff.mp hnil)
          rw [separated_of_ne hne, PathText.normalized, PathText.normalized, List.flatMap_cons]
          simp only [List.append_assoc, List.cons_append, List.nil_append]
    · have htest : ¬(decide (c = slash) || decide (c = backslashByte)) = true := by
        simpa [IsSeparator] using hc
      rw [if_neg htest]
      have hseparator' : ∀ d ∈ segment ++ [c], ¬IsSeparator d := by
        intro d hd
        cases List.mem_append.mp hd with
        | inl hold => exact hseparator d hold
        | inr hnew => exact List.mem_singleton.mp hnew ▸ hc
      have hassoc : segment ++ [c] ++ rest = segment ++ c :: rest := by
        rw [List.append_assoc, List.singleton_append]
      have hstep : normalizeLoop output (segment ++ [c]) rest = some out ↔ _ :=
        ih hseparator' (hassoc.symm ▸ hcolon)
      rwa [hassoc] at hstep

theorem normalizeManifestPath_iff : normalizeManifestPath input = some out ↔
    ∃ path : PathText, path.Safe ∧ path.bytes = input ∧ out = path.normalized := by
  have hseparated : ∀ wide : WString, separated [] ++ wide = wide := fun wide => List.nil_append wide
  rw [normalizeManifestPath]
  constructor
  · intro h
    split at h
    · cases h
    · next hshape =>
      simp only [Bool.or_eq_true, List.isEmpty_iff, decide_eq_true_eq, not_or, Nat.not_lt,
        List.contains_eq_mem] at hshape
      have hcolon : colon ∉ ([] : List UInt8) ++ input := hshape.2
      obtain ⟨path, hfirst, hmore, hbytes, rfl⟩ := (normalizeLoop_iff separator_nil hcolon).mp h
      rw [List.nil_append] at hbytes
      refine ⟨path, ⟨hfirst, hmore, ?_⟩, hbytes, hseparated _⟩
      rw [hbytes]
      exact hshape.1.1.1.2
  · intro h
    obtain ⟨path, hsafe, rfl, rfl⟩ := h
    obtain ⟨c, first, hfirst⟩ := List.exists_cons_of_ne_nil hsafe.first.nonempty
    have hbytes : path.bytes = c :: (first ++ path.more.flatMap fun next => next.1 :: next.2) := by
      rw [PathText.bytes, hfirst, List.cons_append]
    have hhead := (hsafe.first.allowed c (hfirst ▸ List.mem_cons_self)).1
    have hcolon : colon ∉ path.bytes := by
      have hcolonList : colon ∈ ascii "<>:\"|?*" := by decide
      intro hmem
      rw [PathText.bytes, List.mem_append, List.mem_flatMap] at hmem
      cases hmem with
      | inl hinFirst => exact (hsafe.first.allowed colon hinFirst).2 hcolonList
      | inr hinMore =>
        obtain ⟨next, hnext, hin⟩ := hinMore
        obtain ⟨hseparator, hsegment⟩ := hsafe.more next hnext
        cases List.mem_cons.mp hin with
        | inl hself =>
          rw [← hself] at hseparator
          revert hseparator
          unfold IsSeparator
          decide
        | inr hinSegment => exact (hsegment.allowed colon hinSegment).2 hcolonList
    rw [if_neg]
    · have hcolon' : colon ∉ ([] : List UInt8) ++ path.bytes := hcolon
      exact (normalizeLoop_iff separator_nil hcolon').mpr
        ⟨path, hsafe.first, hsafe.more, rfl, (hseparated _).symm⟩
    · simp only [Bool.or_eq_true, List.isEmpty_iff, decide_eq_true_eq, not_or, Nat.not_lt,
        List.contains_eq_mem]
      refine ⟨⟨⟨⟨?_, hsafe.length_le⟩, ?_⟩, ?_⟩, hcolon⟩
      · rw [hbytes]
        exact List.cons_ne_nil _ _
      · rw [hbytes]
        exact fun heq => hhead (Or.inl (Option.some.inj heq))
      · rw [hbytes]
        exact fun heq => hhead (Or.inr (Option.some.inj heq))

end Segments

end FfbInterceptor.Manager
