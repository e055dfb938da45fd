import FfbInterceptor.Protocol.Accumulator
import FfbInterceptor.Protocol.Grammar

/-! The accumulator's frames do not depend on how the stream was divided into chunks. -/
namespace FfbInterceptor.Protocol
open FfbInterceptor.Library

/-- A fresh accumulator is fed chunk after chunk up to the first exception: the list each `Feed`
returned, and the bytes left or the exception. -/
def feedChunks : List UInt8 → List (List UInt8) →
    List (List ProtocolFrame) × Except ProtocolException (List UInt8)
  | buffer, [] => ([], .ok buffer)
  | buffer, chunk :: chunks =>
    match feed buffer chunk with
    | .error e => ([], .error e)
    | .ok (frames, rest) => (frames :: (feedChunks rest chunks).1, (feedChunks rest chunks).2)

/-- Chunks of at most one frame's size never overrun the buffer, since less than a frame is carried. -/
theorem feedChunks_eq_feedAll {buffer : List UInt8} {chunks : List (List UInt8)}
    (hbuffer : framing.front buffer = .more) (hchunks : ∀ chunk ∈ chunks, chunk.length ≤ 64 * 1024) :
    ((feedChunks buffer chunks).1.flatten, (feedChunks buffer chunks).2) =
      framing.feedAll buffer chunks := by
  induction chunks generalizing buffer with
  | nil => rfl
  | cons chunk chunks ih =>
    have hcarried := length_lt_of_more hbuffer
    have hchunk := hchunks chunk (List.mem_cons_self ..)
    have hlimit : buffer.length + chunk.length ≤ bufferLength := by
      simp only [bufferLength, MaximumFrameSize] at *
      omega
    simp only [feedChunks, Framing.feedAll, feed_eq_parse hlimit]
    cases hparse : framing.parse (buffer ++ chunk) with
    | mk frames result =>
      cases result with
      | error e => rfl
      | ok rest =>
        have hrest := ih (Framing.front_rest hparse) fun c hc => hchunks c (List.mem_cons_of_mem _ hc)
        simp only [Except.map, List.flatten_cons, ← hrest]

theorem accumulatorFront_error {buffer : List UInt8} {e : ProtocolException}
    (h : accumulatorFront buffer = .malformed e) : e ∈ decodeErrors := by
  unfold accumulatorFront at h
  split at h
  · cases h
  · split at h
    · rename_i hheader
      cases h
      unfold validateHeader at hheader
      split at hheader
      · cases hheader
        decide
      · split at hheader
        · cases hheader
          decide
        · split at hheader
          · cases hheader
            decide
          · cases hheader
    · split at h
      · cases h
      · split at h
        · rename_i hdecode
          cases h
          by_cases hgrammar : Grammar (buffer.take (frameSizeField buffer))
          · rw [decode_of_grammar hgrammar] at hdecode
            cases hdecode
          · obtain ⟨e', he', herror⟩ := decode_of_not_grammar hgrammar
            rw [hdecode] at herror
            cases herror
            exact he'
        · cases h

/-- A malformed stream fails with an exception of the decoder. -/
theorem parse_error_mem {stream : List UInt8} {e : ProtocolException}
    (h : (framing.parse stream).2 = .error e) : e ∈ decodeErrors := by
  induction stream using framing.frames_induction with
  | more xs hfront =>
    rw [Framing.parse_more hfront] at h
    cases h
  | malformed xs e' hfront =>
    rw [Framing.parse_malformed hfront] at h
    cases h
    exact accumulatorFront_error hfront
  | frame xs frame n hfront ih =>
    rw [Framing.parse_frame hfront] at h
    exact ih h

/-- However a stream is divided into chunks of at most 64 KiB, feeding it is the parse of the whole:
an exception exactly when the whole meets a malformed frame, else the same frames and the same tail. -/
theorem feed_independent_of_chunks (chunks : List (List UInt8))
    (hchunks : ∀ chunk ∈ chunks, chunk.length ≤ 64 * 1024) :
    ((∃ e, (feedChunks [] chunks).2 = .error e) ↔ ∃ e, (framing.parse chunks.flatten).2 = .error e) ∧
    (∀ buffer, (feedChunks [] chunks).2 = .ok buffer →
      (feedChunks [] chunks).1.flatten = (framing.parse chunks.flatten).1 ∧
      ((∃ e, complete buffer = .error e) ↔
        ∃ tail, (framing.parse chunks.flatten).2 = .ok tail ∧ tail ≠ [])) ∧
    (feedChunks [] chunks).2 ≠ .error .streamBufferExceededLimit := by
  have hfresh : framing.parse [] = ([], .ok []) := rfl
  have hfed := feedChunks_eq_feedAll (Framing.front_rest hfresh) hchunks
  have hresult : (feedChunks [] chunks).2 = (framing.parse chunks.flatten).2 := by
    rw [congrArg Prod.snd hfed]
    exact Framing.feedAll_result chunks hfresh
  refine ⟨by rw [hresult], ?_, ?_⟩
  · intro buffer hbuffer
    have hok : (framing.parse ([] ++ chunks.flatten)).2 = .ok buffer := hresult.symm.trans hbuffer
    have hframes := Framing.feedAll_frames chunks hfresh
    rw [Framing.untilFault_of_ok hok] at hframes
    refine ⟨(congrArg Prod.fst hfed).trans hframes, ?_⟩
    rw [← hresult, hbuffer]
    cases buffer with
    | nil => simp [complete]
    | cons byte buffer => simp [complete]
  · intro hlimit
    rw [hresult] at hlimit
    have hmem := parse_error_mem hlimit
    revert hmem
    decide

/-- A wrong magic, cut in the middle of the header. -/
theorem feed_independent_of_chunks_malformed :
    ∃ e, (feedChunks [] [List.replicate 20 0, List.replicate 12 0]).2 = .error e :=
  (feed_independent_of_chunks [List.replicate 20 0, List.replicate 12 0] (by simp)).1.mpr
    ⟨.badMagic, rfl⟩

end FfbInterceptor.Protocol
