import FfbInterceptor.Library.Framing
import FfbInterceptor.Viewer.Offsets

/-! The frames the viewer drains from its buffer do not depend on the division of the stream. -/
namespace FfbInterceptor.Viewer
open FfbInterceptor.Library

/-- What a consumer of the generator gets: the frames, the buffer behind them, what was raised. -/
structure Drained where
  frames : List Frame
  buffer : List UInt8
  raised : Option Raised
  deriving DecidableEq, Repr

/-- The loop of `iter_frames`. A frame leaves the buffer before it is decoded. Every round removes at
least 32 bytes, so that the buffer's length is fuel enough. -/
def iterFramesFuel : Nat → List UInt8 → Drained
  | 0, buffer => ⟨[], buffer, none⟩
  | fuel + 1, buffer =>
    if buffer.length < headerSize then ⟨[], buffer, none⟩
    else if buffer.take 4 ≠ magic then ⟨[], buffer, some (.protocolError .badMagic)⟩
    else match u32 buffer 8 with
      | .error e => ⟨[], buffer, some e⟩
      | .ok frameSize =>
        if frameSize.toNat < headerSize ∨ maxFrameSize < frameSize.toNat then
          ⟨[], buffer, some (.protocolError .invalidFrameSize)⟩
        else if buffer.length < frameSize.toNat then ⟨[], buffer, none⟩
        else match decodeFrame (buffer.take frameSize.toNat) with
          | .error e => ⟨[], buffer.drop frameSize.toNat, some e⟩
          | .ok frame =>
            let rest := iterFramesFuel fuel (buffer.drop frameSize.toNat)
            ⟨frame :: rest.frames, rest.buffer, rest.raised⟩

def iterFrames (buffer : List UInt8) : Drained := iterFramesFuel buffer.length buffer

/-- One buffer is extended by each chunk and drained, up to the first exception. -/
def drainChunks : List UInt8 → List (List UInt8) → Drained
  | buffer, [] => ⟨[], buffer, none⟩
  | buffer, chunk :: chunks =>
    let drained := iterFrames (buffer ++ chunk)
    match drained.raised with
    | some _ => drained
    | none =>
      let rest := drainChunks drained.buffer chunks
      ⟨drained.frames ++ rest.frames, rest.buffer, rest.raised⟩

section Header

def announcedSize (header : List UInt8) : Except ProtocolError Nat :=
  if header.take 4 ≠ magic then .error .badMagic
  else if (word32At header 8).toNat < headerSize ∨ maxFrameSize < (word32At header 8).toNat then
    .error .invalidFrameSize
  else .ok (word32At header 8).toNat

/-- The decoder's answer without the error that `struct` cannot raise here. -/
def decoded (raw : List UInt8) : Except ProtocolError Frame :=
  match decodeFrame raw with
  | .error (.protocolError e) => .error e
  | .error .structError => .error .truncatedPayload
  | .ok frame => .ok frame

theorem announcedSize_ge {header : List UInt8} {n : Nat} (h : announcedSize header = .ok n) :
    headerSize ≤ n := by
  rw [announcedSize] at h
  split at h
  · cases h
  · split at h
    · cases h
    · cases h
      omega

def framing : Framing UInt8 ProtocolError Frame :=
  Framing.headed headerSize announcedSize decoded (by decide) fun _ _ => announcedSize_ge

theorem check_ne_structError {c : Prop} [Decidable c] {e : ProtocolError} {x : Except Raised Frame}
    (h : x ≠ .error .structError) :
    (if c then .error (.protocolError e) else x) ≠ .error .structError := by
  split
  · simp
  · exact h

theorem decodeFrame_ne_structError (raw : List UInt8) : decodeFrame raw ≠ .error .structError := by
  rw [decodeFrame_eq, decodeAt]
  iterate 10 apply check_ne_structError
  simp

theorem decodeFrame_eq_decoded (raw : List UInt8) :
    decodeFrame raw = (decoded raw).mapError .protocolError := by
  have hnever := decodeFrame_ne_structError raw
  rw [decoded]
  cases hdecode : decodeFrame raw with
  | ok frame => rfl
  | error e =>
    cases e with
    | protocolError e => rfl
    | structError => exact absurd hdecode hnever

theorem announcedSize_take (buffer : List UInt8) :
    announcedSize (buffer.take headerSize) =
      if buffer.take 4 ≠ magic then .error .badMagic
      else if (word32At buffer 8).toNat < headerSize ∨ maxFrameSize < (word32At buffer 8).toNat then
        .error .invalidFrameSize
      else .ok (word32At buffer 8).toNat := by
  have hitem : ∀ k < 32, (buffer.take headerSize).getD k 0 = buffer.getD k 0 := by
    intro k hk
    simp only [List.getD, List.getElem?_take, headerSize, hk, ↓reduceIte]
  have hmagic : (buffer.take headerSize).take 4 = buffer.take 4 := by
    rw [List.take_take]
    rfl
  have hword : word32At (buffer.take headerSize) 8 = word32At buffer 8 := by
    rw [word32At, hitem 8 (by omega), hitem 9 (by omega), hitem 10 (by omega), hitem 11 (by omega),
      word32At]
  rw [announcedSize, hmagic, hword]

end Header

section Runs

/-- The consumer sees these frames, and the rest of the input or the error behind them. -/
def Drained.Shows (d : Drained) (parsed : List Frame × Except ProtocolError (List UInt8)) : Prop :=
  d.frames = parsed.1 ∧
    match parsed.2 with
    | .ok rest => d.raised = none ∧ d.buffer = rest
    | .error e => d.raised = some (.protocolError e)

theorem shows_iterFramesFuel {fuel : Nat} {buffer : List UInt8} (h : buffer.length ≤ fuel) :
    (iterFramesFuel fuel buffer).Shows (framing.parse buffer) := by
  induction fuel generalizing buffer with
  | zero =>
    have hmore : framing.front buffer = .more := by
      apply if_pos
      simp only [headerSize]
      omega
    rw [Framing.parse_more hmore]
    exact ⟨rfl, rfl, rfl⟩
  | succ fuel ih =>
    by_cases hshort : buffer.length < headerSize
    · have hmore : framing.front buffer = .more := if_pos hshort
      rw [Framing.parse_more hmore, iterFramesFuel, if_pos hshort]
      exact ⟨rfl, rfl, rfl⟩
    · have hlong := Nat.not_lt.mp hshort
      have hsize := announcedSize_take buffer
      have hword : u32 buffer 8 = .ok (word32At buffer 8) := by
        apply unpackFrom_word32
        simp only [headerSize] at hlong
        omega
      rw [iterFramesFuel, if_neg hshort, hword]
      by_cases hmagic : buffer.take 4 = magic
      · rw [if_neg (not_not_intro hmagic)] at hsize
        rw [if_neg (not_not_intro hmagic)]
        simp only
        by_cases hrange : (word32At buffer 8).toNat < headerSize ∨
            maxFrameSize < (word32At buffer 8).toNat
        · rw [if_pos hrange] at hsize
          have hfront : framing.front buffer = .malformed .invalidFrameSize :=
            Framing.headedFront_eq_malformed.mpr ⟨hlong, .inl hsize⟩
          rw [Framing.parse_malformed hfront, if_pos hrange]
          exact ⟨rfl, rfl⟩
        · rw [if_neg hrange] at hsize
          rw [if_neg hrange]
          by_cases hwait : buffer.length < (word32At buffer 8).toNat
          · have hmore : framing.front buffer = .more := by
              simp only [framing, Framing.headed, Framing.headedFront, hshort, ↓reduceIte, hsize, hwait]
            rw [Framing.parse_more hmore, if_pos hwait]
            exact ⟨rfl, rfl, rfl⟩
          · have hcomplete := Nat.not_lt.mp hwait
            rw [if_neg hwait, decodeFrame_eq_decoded]
            cases hdecoded : decoded (buffer.take (word32At buffer 8).toNat) with
            | error e =>
              have hfront : framing.front buffer = .malformed e :=
                Framing.headedFront_eq_malformed.mpr
                  ⟨hlong, .inr ⟨_, hsize, hcomplete, hdecoded⟩⟩
              rw [Framing.parse_malformed hfront]
              exact ⟨rfl, rfl⟩
            | ok frame =>
              have hfront : framing.front buffer = .frame frame (word32At buffer 8).toNat :=
                Framing.headedFront_eq_frame.mpr ⟨hlong, hsize, hcomplete, hdecoded⟩
              have hless : (buffer.drop (word32At buffer 8).toNat).length ≤ fuel := by
                simp only [List.length_drop, headerSize] at *
                omega
              have hrest := ih hless
              rw [Framing.parse_frame hfront]
              exact ⟨congrArg (frame :: ·) hrest.1, hrest.2⟩
      · have hfront : framing.front buffer = .malformed .badMagic := by
          apply Framing.headedFront_eq_malformed.mpr
          refine ⟨hlong, .inl ?_⟩
          rw [hsize, if_pos hmagic]
        rw [Framing.parse_malformed hfront, if_pos hmagic]
        exact ⟨rfl, rfl⟩

/-- Draining after each chunk is parsing the whole stream. -/
theorem shows_drainChunks (buffer : List UInt8) (chunks : List (List UInt8)) :
    (drainChunks buffer chunks).Shows (framing.drainAll buffer chunks) := by
  induction chunks generalizing buffer with
  | nil => exact ⟨rfl, rfl, rfl⟩
  | cons chunk chunks ih =>
    have hstep : (iterFrames (buffer ++ chunk)).Shows (framing.parse (buffer ++ chunk)) :=
      shows_iterFramesFuel (Nat.le_refl _)
    simp only [drainChunks, Framing.drainAll]
    cases hparse : framing.parse (buffer ++ chunk) with
    | mk frames result =>
      rw [hparse] at hstep
      cases result with
      | error e =>
        rw [hstep.2]
        exact hstep
      | ok rest =>
        obtain ⟨hframes, hraised, hrest⟩ := hstep
        rw [hraised, hframes, hrest]
        exact ⟨congrArg (frames ++ ·) (ih rest).1, (ih rest).2⟩

end Runs

/-- Two divisions of one stream give the same frames in front of the first `ProtocolError`, raise it
both or not at all, and leave the same tail when they do not. -/
theorem drain_independent_of_chunks (chunks chunks' : List (List UInt8))
    (h : chunks.flatten = chunks'.flatten) :
    (drainChunks [] chunks).frames = (drainChunks [] chunks').frames ∧
    ((∃ e, (drainChunks [] chunks).raised = some (.protocolError e)) ↔
      ∃ e, (drainChunks [] chunks').raised = some (.protocolError e)) ∧
    ((∀ e, (drainChunks [] chunks).raised ≠ some (.protocolError e)) →
      (drainChunks [] chunks).raised = none ∧ (drainChunks [] chunks').raised = none ∧
      (drainChunks [] chunks).buffer = (drainChunks [] chunks').buffer) := by
  have hfresh : framing.parse [] = ([], .ok []) := rfl
  have hwhole : framing.drainAll [] chunks = framing.drainAll [] chunks' := by
    have hleft := Framing.drainAll_eq_parse chunks hfresh
    have hright := Framing.drainAll_eq_parse chunks' hfresh
    rw [h, ← hright] at hleft
    exact hleft
  have hshown := shows_drainChunks [] chunks
  have hshown' := shows_drainChunks [] chunks'
  rw [← hwhole] at hshown'
  obtain ⟨hframes, hend⟩ := hshown
  obtain ⟨hframes', hend'⟩ := hshown'
  refine ⟨hframes.trans hframes'.symm, ?_⟩
  cases hresult : (framing.drainAll [] chunks).2 with
  | error e =>
    rw [hresult] at hend hend'
    refine ⟨⟨fun _ => ⟨e, hend'⟩, fun _ => ⟨e, hend⟩⟩, ?_⟩
    intro hnone
    exact absurd hend (hnone e)
  | ok rest =>
    rw [hresult] at hend hend'
    refine ⟨?_, fun _ => ⟨hend.1, hend'.1, hend.2.trans hend'.2.symm⟩⟩
    rw [hend.1, hend'.1]

/-- A wrong magic, cut in the middle of the header. -/
theorem drain_independent_of_chunks_malformed :
    ∃ e, (drainChunks [] [List.replicate 20 0, List.replicate 12 0]).raised = some (.protocolError e) :=
  (drain_independent_of_chunks [List.replicate 20 0, List.replicate 12 0] [List.replicate 32 0] rfl).2.1.mpr
    ⟨.badMagic, rfl⟩

end FfbInterceptor.Viewer
