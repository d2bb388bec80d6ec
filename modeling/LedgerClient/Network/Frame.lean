import LedgerClient.Bytes
import LedgerClient.Network.Fault
import LedgerClient.Text.Decimal

/-!
# `LedgerClient.Network.Frame`: messages on a stream

A stream carries one message after another, each behind its length in
four bytes, highest byte first. A length above `maxBytes` is an error
on both sides: it is never written, and when it is read no byte of
what follows is taken for the message. A stream that ends inside a
frame, or before one, counts as reset.
-/

set_option autoImplicit false

namespace LedgerClient.Frame

/-- The longest message: four mebibytes. -/
def maxBytes : Nat := 4 * 1024 * 1024

/-- The fault of a message that is too long. -/
def tooLarge (length : Nat) : Fault :=
  .io ("frame of " ++ Text.Decimal.natural length ++ " bytes too large")

/-- The frame of a message. -/
def write (payload : Bytes) : Except Fault Bytes :=
  if payload.length ≤ maxBytes then .ok (Bytes.bigEndian 4 payload.length ++ payload)
  else .error (tooLarge payload.length)

/-- Writes a message at the end of a stream. Of one that is too long nothing is written. -/
def writeTo (stream payload : Bytes) : Except Fault Unit × Bytes :=
  match write payload with
  | .ok frame => (.ok (), stream ++ frame)
  | .error fault => (.error fault, stream)

/-- Writes messages at the end of a stream one after another, up to the first that is too
long. -/
def writeAll (stream : Bytes) : List Bytes → Except Fault Unit × Bytes
  | [] => (.ok (), stream)
  | payload :: rest =>
    match writeTo stream payload with
    | (.ok (), stream) => writeAll stream rest
    | stopped => stopped

/-- The fault of a stream that ends too early. -/
def endOfStream : Fault :=
  .ofSystemError .endOfStream "end of stream"

/-- The message of the frame in front of a stream, and what follows the frame. -/
def read (stream : Bytes) : Except Fault (Bytes × Bytes) :=
  match Bytes.splitAt? 4 stream with
  | none => .error endOfStream
  | some (header, rest) =>
    let length := Bytes.bigEndianValue header
    if maxBytes < length then .error (tooLarge length)
    else match Bytes.splitAt? length rest with
      | none => .error endOfStream
      | some frame => .ok frame

/-- The messages of a stream up to the first fault, and that fault. Each frame takes at least
its header from the stream, so `fuel` frames are enough for that many bytes. -/
def readUpTo : Nat → Bytes → List Bytes × Fault
  | 0, _ => ([], endOfStream)
  | fuel + 1, stream =>
    match read stream with
    | .error fault => ([], fault)
    | .ok (payload, rest) =>
      let (payloads, fault) := readUpTo fuel rest
      (payload :: payloads, fault)

/-- The messages of a stream up to the first fault, and that fault. -/
def readAll (stream : Bytes) : List Bytes × Fault :=
  readUpTo (stream.length + 1) stream

end LedgerClient.Frame
