import FfbInterceptor.Library.Framing
import FfbInterceptor.Protocol.RoundTrip

/-! The consumer's frame accumulator: it cuts a stream of chunks into frames. -/
namespace FfbInterceptor.Protocol
open FfbInterceptor.Library

def bufferLength : Nat := MaximumFrameSize * 2

/-- The size field of a header. The buffer is long enough wherever the source reads it. -/
def frameSizeField (buffer : List UInt8) : Nat :=
  (word32 (buffer.getD 8 0) (buffer.getD 9 0) (buffer.getD 10 0) (buffer.getD 11 0)).toNat

def validateHeader (buffer : List UInt8) : Except ProtocolException Unit :=
  if buffer.take 4 ≠ magic then .error .badMagic
  else if word16 (buffer.getD 4 0) (buffer.getD 5 0) ≠ Version then
    .error .unsupportedProtocolVersion
  else if frameSizeField buffer < HeaderSize ∨ MaximumFrameSize < frameSizeField buffer then
    .error .invalidFrameSize
  else .ok ()

/-- The loop of `Feed`. Every round removes a frame of at least 32 bytes, so that the buffer's length
is fuel enough. -/
def feedLoop : Nat → List UInt8 → List ProtocolFrame →
    Except ProtocolException (List ProtocolFrame × List UInt8)
  | 0, buffer, result => .ok (result, buffer)
  | fuel + 1, buffer, result =>
    if buffer.length < HeaderSize then .ok (result, buffer)
    else do
      validateHeader buffer
      let frameSize := frameSizeField buffer
      if buffer.length < frameSize then return (result, buffer)
      let frame ← decode (buffer.take frameSize)
      feedLoop fuel (buffer.drop frameSize) (result ++ [frame])

def feed (buffer data : List UInt8) : Except ProtocolException (List ProtocolFrame × List UInt8) :=
  if bufferLength < buffer.length + data.length then .error .streamBufferExceededLimit
  else feedLoop (buffer.length + data.length) (buffer ++ data) []

def complete (buffer : List UInt8) : Except ProtocolException Unit :=
  if buffer.length ≠ 0 then .error .truncatedFrameAtDisconnect else .ok ()

/-- What the accumulator makes of the front of its buffer. -/
def accumulatorFront (buffer : List UInt8) : Front ProtocolException ProtocolFrame :=
  if buffer.length < HeaderSize then .more
  else match validateHeader buffer with
    | .error e => .malformed e
    | .ok () =>
      if buffer.length < frameSizeField buffer then .more
      else match decode (buffer.take (frameSizeField buffer)) with
        | .error e => .malformed e
        | .ok frame => .frame frame (frameSizeField buffer)

section Front

variable {buffer : List UInt8}

theorem validateHeader_append (more : List UInt8) (h : HeaderSize ≤ buffer.length) :
    frameSizeField (buffer ++ more) = frameSizeField buffer ∧
    validateHeader (buffer ++ more) = validateHeader buffer := by
  have hlong : 32 ≤ buffer.length := h
  have hget : ∀ i < 32, (buffer ++ more).getD i 0 = buffer.getD i 0 := by
    intro i hi
    simp [List.getD, List.getElem?_append_left (show i < buffer.length by omega)]
  have hsize : frameSizeField (buffer ++ more) = frameSizeField buffer := by
    simp only [frameSizeField, hget 8 (by omega), hget 9 (by omega), hget 10 (by omega),
      hget 11 (by omega)]
  have htake : (buffer ++ more).take 4 = buffer.take 4 :=
    List.take_append_of_le_length (by omega)
  refine ⟨hsize, ?_⟩
  simp only [validateHeader, hsize, htake, hget 4 (by omega), hget 5 (by omega)]

theorem frameSizeField_of_valid (h : validateHeader buffer = .ok ()) :
    HeaderSize ≤ frameSizeField buffer ∧ frameSizeField buffer ≤ MaximumFrameSize := by
  simp only [validateHeader] at h
  split at h
  · cases h
  · split at h
    · cases h
    · split at h
      · cases h
      · omega

theorem accumulatorFront_size {frame : ProtocolFrame} {size : Nat}
    (h : accumulatorFront buffer = .frame frame size) :
    size = frameSizeField buffer ∧ HeaderSize ≤ size ∧ size ≤ buffer.length ∧
      validateHeader buffer = .ok () ∧ decode (buffer.take size) = .ok frame := by
  unfold accumulatorFront at h
  split at h
  · cases h
  · split at h
    · cases h
    · rename_i hvalid
      split at h
      · cases h
      · rename_i hcomplete
        split at h
        · cases h
        · rename_i hdecode
          cases h
          exact ⟨rfl, (frameSizeField_of_valid hvalid).1, Nat.not_lt.mp hcomplete, hvalid, hdecode⟩

theorem length_lt_of_more (h : accumulatorFront buffer = .more) : buffer.length < MaximumFrameSize := by
  unfold accumulatorFront at h
  split at h
  · simp only [HeaderSize, MaximumFrameSize] at *
    omega
  · split at h
    · cases h
    · rename_i hvalid
      split at h
      · have hsize := (frameSizeField_of_valid hvalid).2
        omega
      · split at h <;> cases h

theorem accumulatorFront_append_frame {frame : ProtocolFrame} {size : Nat} (more : List UInt8)
    (h : accumulatorFront buffer = .frame frame size) :
    accumulatorFront (buffer ++ more) = .frame frame size := by
  obtain ⟨hsize, hheader, hlength, hvalid, hdecode⟩ := accumulatorFront_size h
  have hlong : HeaderSize ≤ buffer.length := by omega
  obtain ⟨hfield, hvalidate⟩ := validateHeader_append more hlong
  have hshort : ¬ (buffer ++ more).length < HeaderSize := by
    simp only [List.length_append]
    omega
  have hcomplete : ¬ (buffer ++ more).length < size := by
    simp only [List.length_append]
    omega
  have htake : (buffer ++ more).take size = buffer.take size := List.take_append_of_le_length hlength
  simp only [accumulatorFront, hshort, ↓reduceIte, hvalidate, hvalid, hfield, ← hsize, hcomplete,
    htake, hdecode]

theorem accumulatorFront_append_malformed {e : ProtocolException} (more : List UInt8)
    (h : accumulatorFront buffer = .malformed e) :
    accumulatorFront (buffer ++ more) = .malformed e := by
  unfold accumulatorFront at h
  split at h
  · cases h
  · rename_i hlong
    obtain ⟨hfield, hvalidate⟩ := validateHeader_append more (Nat.not_lt.mp hlong)
    have hshort : ¬ (buffer ++ more).length < HeaderSize := by
      simp only [List.length_append]
      omega
    split at h
    · rename_i hvalid
      cases h
      simp only [accumulatorFront, hshort, ↓reduceIte, hvalidate, hvalid]
    · rename_i hvalid
      split at h
      · cases h
      · rename_i hlength
        have hcomplete : ¬ (buffer ++ more).length < frameSizeField buffer := by
          simp only [List.length_append]
          omega
        have htake : (buffer ++ more).take (frameSizeField buffer) =
            buffer.take (frameSizeField buffer) :=
          List.take_append_of_le_length (Nat.not_lt.mp hlength)
        split at h
        · rename_i hdecode
          cases h
          simp only [accumulatorFront, hshort, ↓reduceIte, hvalidate, hvalid, hfield, hcomplete,
            htake, hdecode]
        · cases h

theorem accumulatorFront_frame_size {frame : ProtocolFrame} {size : Nat}
    (h : accumulatorFront buffer = .frame frame size) : 0 < size ∧ size ≤ buffer.length := by
  obtain ⟨-, hheader, hlength, -, -⟩ := accumulatorFront_size h
  simp only [HeaderSize] at hheader
  omega

end Front

/-- Protocol v1 framing: no later byte changes what the accumulator made of the front. -/
def framing : Framing UInt8 ProtocolException ProtocolFrame where
  front := accumulatorFront
  frame_size := accumulatorFront_frame_size
  frame_append := accumulatorFront_append_frame
  malformed_append := accumulatorFront_append_malformed

theorem feedLoop_eq_parse {fuel : Nat} {buffer : List UInt8} (h : buffer.length ≤ fuel)
    (result : List ProtocolFrame) :
    feedLoop fuel buffer result =
      (framing.parse buffer).2.map fun rest => (result ++ (framing.parse buffer).1, rest) := by
  induction fuel generalizing buffer result with
  | zero =>
    have hmore : framing.front buffer = .more := by
      have hshort : buffer.length < HeaderSize := by
        simp only [HeaderSize]
        omega
      exact if_pos hshort
    simp only [Framing.parse_more hmore, feedLoop, Except.map, List.append_nil]
  | succ fuel ih =>
    by_cases hshort : buffer.length < HeaderSize
    · have hmore : framing.front buffer = .more := if_pos hshort
      simp only [Framing.parse_more hmore, feedLoop, hshort, ↓reduceIte, Except.map, List.append_nil]
    · cases hvalid : validateHeader buffer with
      | error e =>
        have hfront : framing.front buffer = .malformed e := by
          simp only [framing, accumulatorFront, hshort, ↓reduceIte, hvalid]
        simp only [Framing.parse_malformed hfront, feedLoop, hshort, ↓reduceIte, hvalid]
        rfl
      | ok u =>
        by_cases hlength : buffer.length < frameSizeField buffer
        · have hfront : framing.front buffer = .more := by
            simp only [framing, accumulatorFront, hshort, ↓reduceIte, hvalid, hlength]
          simp only [Framing.parse_more hfront, feedLoop, hshort, ↓reduceIte, hvalid, hlength,
            List.append_nil]
          rfl
        · cases hdecode : decode (buffer.take (frameSizeField buffer)) with
          | error e =>
            have hfront : framing.front buffer = .malformed e := by
              simp only [framing, accumulatorFront, hshort, ↓reduceIte, hvalid, hlength, hdecode]
            simp only [Framing.parse_malformed hfront, feedLoop, hshort, ↓reduceIte, hvalid, hlength,
              hdecode]
            rfl
          | ok frame =>
            have hfront : framing.front buffer = .frame frame (frameSizeField buffer) := by
              simp only [framing, accumulatorFront, hshort, ↓reduceIte, hvalid, hlength, hdecode]
            have hsize := (frameSizeField_of_valid hvalid).1
            have hdrop : (buffer.drop (frameSizeField buffer)).length ≤ fuel := by
              simp only [List.length_drop, HeaderSize] at *
              omega
            have hloop := ih hdrop (result ++ [frame])
            simp only [List.append_assoc, List.singleton_append] at hloop
            simp only [Framing.parse_frame hfront, ← hloop]
            simp only [feedLoop, hshort, ↓reduceIte, hvalid, hlength, hdecode]
            rfl

/-- Short of its size limit the accumulator parses what it has received so far. -/
theorem feed_eq_parse {buffer data : List UInt8} (h : buffer.length + data.length ≤ bufferLength) :
    feed buffer data = (framing.parse (buffer ++ data)).2.map fun rest =>
      ((framing.parse (buffer ++ data)).1, rest) := by
  have hlimit : ¬ bufferLength < buffer.length + data.length := Nat.not_lt.mpr h
  have hfuel : (buffer ++ data).length ≤ buffer.length + data.length :=
    Nat.le_of_eq List.length_append
  simp only [feed, hlimit, ↓reduceIte, feedLoop_eq_parse hfuel, List.nil_append]

theorem validateHeader_serializeEvent (event : Event) :
    validateHeader (serializeEvent event) = .ok () ∧
      frameSizeField (serializeEvent event) = (serializeEvent event).length := by
  have hsize : frameSizeField (serializeEvent event) = (serializeEvent event).length := by
    rw [← toNat_frameSize, ← word32_bytes (kHeaderSize + event.payload.length).toUInt32]
    rfl
  have hmagic : (serializeEvent event).take 4 = magic := by
    simp only [serializeEvent, Event.header, List.append_assoc]
    rfl
  have hversion : word16 ((serializeEvent event).getD 4 0) ((serializeEvent event).getD 5 0) =
      Version := by
    rw [Version, ← kProtocolVersion, ← word16_bytes kProtocolVersion]
    rfl
  have hlength := length_serializeEvent event
  refine ⟨?_, hsize⟩
  simp only [validateHeader, hmagic, hversion, hsize, ne_eq, not_true_eq_false, ↓reduceIte,
    HeaderSize, MaximumFrameSize]
  rw [if_neg (by omega)]

/-- The accumulator waits for the rest of a frame the proxy has not written to its end. -/
theorem front_of_unfinished (event : Event) {n : Nat} (h : n < (serializeEvent event).length) :
    framing.front ((serializeEvent event).take n) = .more := by
  obtain ⟨hvalid, hsize⟩ := validateHeader_serializeEvent event
  have hlength : ((serializeEvent event).take n).length = n := by
    rw [List.length_take]
    omega
  by_cases hshort : n < HeaderSize
  · simp only [framing, accumulatorFront, hlength, hshort, ↓reduceIte]
  · have hsplit := List.take_append_drop n (serializeEvent event)
    have hlong : HeaderSize ≤ ((serializeEvent event).take n).length := by omega
    obtain ⟨hfield, hheader⟩ := validateHeader_append ((serializeEvent event).drop n) hlong
    rw [hsplit, hsize] at hfield
    rw [hsplit, hvalid] at hheader
    simp only [framing, accumulatorFront, hlength, hshort, ↓reduceIte, ← hheader, ← hfield, h]

theorem front_serializeEvent {event : Event} {build session text : String} (more : List UInt8)
    (haxes : event.axisCount.toNat ≤ kMaxAxes) (hconditions : event.conditionCount.toNat ≤ kMaxAxes)
    (hbuild : HoldsText event.buildVersion build) (hsession : HoldsText event.sessionId session)
    (htext : HoldsText event.text text) :
    framing.front (serializeEvent event ++ more) =
      .frame (event.received build session text) (serializeEvent event).length := by
  have hlength := length_serializeEvent event
  obtain ⟨hvalid, hsize⟩ := validateHeader_serializeEvent event
  have hdecode := decode_serializeEvent haxes hconditions hbuild hsession htext
  have hshort : ¬ (serializeEvent event).length < HeaderSize := Nat.not_lt.mpr hlength.1
  apply framing.frame_append more
  simp only [framing, accumulatorFront, hshort, ↓reduceIte, hvalid, hsize, Nat.lt_irrefl,
    List.take_length, hdecode]

end FfbInterceptor.Protocol
