import LedgerClient.Network.Frame
import LedgerClient.Proofs.Wire.Codec

/-!
# `LedgerClient.Proofs.Network.Framing`: a stream is frames and a remainder

What is read from a stream and what was written to it determine each
other. Every stream is, in one way only, the frames of some messages and
a remainder in front of which no frame stands: the messages are what is
read, and the remainder says with which fault reading stops. So a stream
to which messages were written gives these messages back and then ends,
a stream that was cut anywhere gives the messages that are whole, and no
header makes a reader take more for a message than may be written.

* `read_eq_ok_iff` and `read_eq_error_iff` say for one frame when there
  is a message and when there is a fault.
* `readAll_eq_iff` says the same of a whole stream, by induction on the
  frames it may hold.
* `streams_are_frames` puts both sides of the stream together.
-/

set_option autoImplicit false

namespace LedgerClient

namespace Bytes

/-- Digits, highest first, keep a number that has room in them. -/
theorem bigEndianValue_bigEndian {width n : Nat} (h : n < 256 ^ width) :
    bigEndianValue (bigEndian width n) = n := by
  rw [bigEndianValue, bigEndian, List.reverse_reverse, littleEndianValue_littleEndian,
    Nat.mod_eq_of_lt h]

/-- The digits of the value of digits, highest first, are these digits. -/
theorem bigEndian_bigEndianValue (bytes : Bytes) :
    bigEndian bytes.length (bigEndianValue bytes) = bytes := by
  have h := littleEndian_littleEndianValue bytes.reverse
  rw [List.length_reverse] at h
  rw [bigEndian, bigEndianValue, h, List.reverse_reverse]

/-- There is nothing to split off exactly if the bytes are too few. -/
theorem splitAt?_eq_none_iff {n : Nat} {bytes : Bytes} :
    splitAt? n bytes = none ↔ bytes.length < n := by
  unfold splitAt?
  split <;> simp <;> omega

end Bytes

namespace Frame

/-- The frame of a message: its length, and then the message. -/
def frame (payload : Bytes) : Bytes :=
  Bytes.bigEndian 4 payload.length ++ payload

/-- No frame stands in front of a stream, and this is the fault. What announces too much is refused
whether or not it is there. -/
inductive Stops : Bytes → Fault → Prop
  | headerCut {rest : Bytes} (short : rest.length < 4) : Stops rest .reset
  | bodyCut {header body : Bytes} (width : header.length = 4)
      (allowed : Bytes.bigEndianValue header ≤ maxBytes)
      (short : body.length < Bytes.bigEndianValue header) : Stops (header ++ body) .reset
  | tooLarge {header body : Bytes} (width : header.length = 4)
      (announced : maxBytes < Bytes.bigEndianValue header) :
      Stops (header ++ body) (tooLarge (Bytes.bigEndianValue header))

/-! ### Writing -/

/-- A message that is not too long is written as its frame. -/
theorem write_of_le {payload : Bytes} (h : payload.length ≤ maxBytes) :
    write payload = .ok (frame payload) :=
  if_pos h

/-- A message that is too long is not written. -/
theorem writeTo_of_lt (stream : Bytes) {payload : Bytes} (h : maxBytes < payload.length) :
    writeTo stream payload = (.error (tooLarge payload.length), stream) := by
  have hrefused : write payload = .error (tooLarge payload.length) := if_neg (Nat.not_le.2 h)
  rw [writeTo, hrefused]

/-- Messages that are not too long are written as their frames, one after the other. -/
theorem writeAll_of_le (stream : Bytes) {payloads : List Bytes}
    (h : ∀ p ∈ payloads, p.length ≤ maxBytes) :
    writeAll stream payloads = (.ok (), stream ++ payloads.flatMap frame) := by
  induction payloads generalizing stream with
  | nil => rw [writeAll, List.flatMap_nil, List.append_nil]
  | cons p rest ih =>
    obtain ⟨hp, hrest⟩ := List.forall_mem_cons.1 h
    have hwritten : writeTo stream p = (.ok (), stream ++ frame p) := by
      rw [writeTo, write_of_le hp]
    rw [writeAll, hwritten]
    show writeAll (stream ++ frame p) rest = _
    rw [ih _ hrest, List.flatMap_cons, List.append_assoc]

/-! ### Reading -/

/-- The header of a message that is not too long says how long it is. -/
theorem announced_of_le {payload : Bytes} (h : payload.length ≤ maxBytes) :
    Bytes.bigEndianValue (Bytes.bigEndian 4 payload.length) = payload.length := by
  have hmax : maxBytes = 4194304 := rfl
  exact Bytes.bigEndianValue_bigEndian (by omega)

/-- A message is read exactly if its frame stands in front of the stream, and it is not too long. -/
theorem read_eq_ok_iff {stream payload rest : Bytes} :
    read stream = .ok (payload, rest) ↔
      payload.length ≤ maxBytes ∧ stream = frame payload ++ rest := by
  constructor
  · intro h
    unfold read at h
    split at h
    · cases h
    next header behind hheader =>
      -- The header is what it announces, written with four bytes again.
      obtain ⟨hwidth, rfl⟩ := Bytes.splitAt?_eq_some_iff.1 hheader
      simp only at h
      split at h
      · cases h
      next hallowed =>
        split at h
        · cases h
        next hbody =>
          cases h
          obtain ⟨hlength, rfl⟩ := Bytes.splitAt?_eq_some_iff.1 hbody
          have hback : Bytes.bigEndian 4 payload.length = header := by
            rw [hlength, ← hwidth, Bytes.bigEndian_bigEndianValue]
          rw [frame, hback, List.append_assoc]
          exact ⟨by omega, rfl⟩
  · rintro ⟨hle, rfl⟩
    -- Both cuts of a frame are where it was put together.
    have hheader : Bytes.splitAt? 4 (frame payload ++ rest) =
        some (Bytes.bigEndian 4 payload.length, payload ++ rest) :=
      Bytes.splitAt?_eq_some_iff.2 ⟨Bytes.length_bigEndian 4 _, List.append_assoc _ _ _⟩
    have hbody : Bytes.splitAt? payload.length (payload ++ rest) = some (payload, rest) :=
      Bytes.splitAt?_eq_some_iff.2 ⟨rfl, rfl⟩
    simp only [read, hheader, announced_of_le hle, if_neg (Nat.not_lt.2 hle), hbody]

/-- Reading faults exactly if no frame stands in front of the stream. -/
theorem read_eq_error_iff {stream : Bytes} {fault : Fault} :
    read stream = .error fault ↔ Stops stream fault := by
  constructor
  · intro h
    unfold read at h
    split at h
    next hheader =>
      cases h
      exact .headerCut (Bytes.splitAt?_eq_none_iff.1 hheader)
    next header behind hheader =>
      obtain ⟨hwidth, rfl⟩ := Bytes.splitAt?_eq_some_iff.1 hheader
      simp only at h
      split at h
      next hannounced =>
        -- What is announced is looked at before the body, so an empty body does not matter here.
        cases h
        exact .tooLarge hwidth hannounced
      next hallowed =>
        split at h
        next hbody =>
          cases h
          exact .bodyCut hwidth (Nat.not_lt.1 hallowed) (Bytes.splitAt?_eq_none_iff.1 hbody)
        · cases h
  · intro h
    cases h with
    | headerCut short => rw [read, Bytes.splitAt?_eq_none_iff.2 short]; rfl
    | @bodyCut header body width allowed short =>
      rw [read, Bytes.splitAt?_eq_some_iff.2 ⟨width, rfl⟩]
      simp only [if_neg (Nat.not_lt.2 allowed), Bytes.splitAt?_eq_none_iff.2 short]
      rfl
    | @tooLarge header body width announced =>
      rw [read, Bytes.splitAt?_eq_some_iff.2 ⟨width, rfl⟩]
      simp only [if_pos announced]

/-- A frame is never empty. -/
theorem length_lt_of_read {stream payload rest : Bytes} (h : read stream = .ok (payload, rest)) :
    rest.length < stream.length := by
  rw [(read_eq_ok_iff.1 h).2, frame, List.length_append, List.length_append,
    Bytes.length_bigEndian]
  omega

/-- What is read from a stream, if there is fuel for all of it: the stream is the frames of these
messages, and then what reading stops at. -/
theorem readUpTo_eq_iff {fuel : Nat} {stream : Bytes} (hfuel : stream.length < fuel)
    {payloads : List Bytes} {fault : Fault} :
    readUpTo fuel stream = (payloads, fault) ↔
      (∀ p ∈ payloads, p.length ≤ maxBytes) ∧
        ∃ rest, stream = payloads.flatMap frame ++ rest ∧ Stops rest fault := by
  -- Each message takes its header at least, so the rest of the stream gets by with less fuel.
  induction fuel generalizing stream payloads with
  | zero => omega
  | succ fuel ih =>
    rw [readUpTo]
    cases hread : read stream with
    | error f =>
      have hstops : Stops stream f := read_eq_error_iff.1 hread
      constructor
      · intro h
        cases h
        exact ⟨nofun, stream, rfl, hstops⟩
      · rintro ⟨hle, rest, heq, hrest⟩
        cases payloads with
        | nil =>
          -- Both faults are the one of the whole stream.
          have hsame := read_eq_error_iff.2 hrest
          rw [← (show stream = rest from heq), hread] at hsame
          cases hsame
          rfl
        | cons p ps =>
          have hframe : stream = frame p ++ (ps.flatMap frame ++ rest) := by
            rw [heq, List.flatMap_cons, List.append_assoc]
          have hsome := read_eq_ok_iff.2 ⟨(List.forall_mem_cons.1 hle).1, hframe⟩
          rw [hread] at hsome
          cases hsome
    | ok first =>
      obtain ⟨payload, behind⟩ := first
      have hshort := length_lt_of_read hread
      have hbehind : behind.length < fuel := by omega
      obtain ⟨hpayload, hframe⟩ := read_eq_ok_iff.1 hread
      show (payload :: (readUpTo fuel behind).1, (readUpTo fuel behind).2) = _ ↔ _
      constructor
      · intro h
        cases h
        -- What is read behind the first message is known by induction.
        obtain ⟨hle, rest, heq, hrest⟩ := (ih hbehind).1 (Prod.eta (readUpTo fuel behind)).symm
        refine ⟨List.forall_mem_cons.2 ⟨hpayload, hle⟩, rest, ?_, hrest⟩
        rw [hframe, List.flatMap_cons, List.append_assoc, ← heq]
      · rintro ⟨hle, rest, heq, hrest⟩
        cases payloads with
        | nil =>
          -- Where reading stops there is no frame, but there is one in front of this stream.
          have hnone := read_eq_error_iff.2 hrest
          rw [← (show stream = rest from heq), hread] at hnone
          cases hnone
        | cons p ps =>
          obtain ⟨hp, hps⟩ := List.forall_mem_cons.1 hle
          have hfront : stream = frame p ++ (ps.flatMap frame ++ rest) := by
            rw [heq, List.flatMap_cons, List.append_assoc]
          -- The message in front is the one that was read, so the others are what stands behind it.
          have hfirst := read_eq_ok_iff.2 ⟨hp, hfront⟩
          rw [hread] at hfirst
          cases hfirst
          rw [(ih hbehind).2 ⟨hps, rest, rfl, hrest⟩]

/-- What is read from a stream: it is the frames of these messages, and then what reading stops
at. -/
theorem readAll_eq_iff {stream : Bytes} {payloads : List Bytes} {fault : Fault} :
    readAll stream = (payloads, fault) ↔
      (∀ p ∈ payloads, p.length ≤ maxBytes) ∧
        ∃ rest, stream = payloads.flatMap frame ++ rest ∧ Stops rest fault :=
  readUpTo_eq_iff (Nat.lt_succ_self _)

/-- What is written to a stream and what is read from it determine each other. Messages that are not
too long are written, and are read back in their order before the end of the stream; nothing is
written of a message that is too long. And what is read from any stream are the messages that make
up, written one after another, all of it but a remainder, which is too short for a header or for
what its header announces, or announces more than a message may have; no other messages and no other
fault are read. -/
theorem streams_are_frames (stream : Bytes) (payloads : List Bytes) :
    ((∀ p ∈ payloads, p.length ≤ maxBytes) → ∃ written,
      writeAll [] payloads = (.ok (), written) ∧ readAll written = (payloads, .reset)) ∧
    (∀ payload, maxBytes < payload.length →
      ∃ text, writeTo stream payload = (.error (.io text), stream)) ∧
    (∀ fault, readAll stream = (payloads, fault) ↔
      (∀ p ∈ payloads, p.length ≤ maxBytes) ∧ ∃ written rest,
        writeAll [] payloads = (.ok (), written) ∧ stream = written ++ rest ∧
          Stops rest fault) := by
  refine ⟨fun hle => ?_, fun payload hlong => ⟨_, writeTo_of_lt stream hlong⟩, fun fault => ?_⟩
  · refine ⟨_, writeAll_of_le [] hle, readAll_eq_iff.2 ⟨hle, [], ?_, .headerCut (by decide)⟩⟩
    rw [List.nil_append, List.append_nil]
  · rw [readAll_eq_iff]
    -- What is written is the frames, and so the two descriptions of the stream are one.
    constructor
    · rintro ⟨hle, rest, rfl, hrest⟩
      exact ⟨hle, _, rest, writeAll_of_le [] hle, rfl, hrest⟩
    · rintro ⟨hle, written, rest, hwritten, rfl, hrest⟩
      rw [writeAll_of_le [] hle] at hwritten
      cases hwritten
      exact ⟨hle, rest, rfl, hrest⟩

/-- An empty message, one of a byte, and a frame that is cut. -/
example : readAll [0, 0, 0, 0, 0, 0, 0, 1, 7, 0, 0, 0, 2, 8] = ([[], [7]], .reset) := by decide

end Frame

end LedgerClient
