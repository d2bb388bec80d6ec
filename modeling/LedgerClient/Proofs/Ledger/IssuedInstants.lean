import LedgerClient.Ledger.TimestampDate
import LedgerClient.Proofs.Json.Fields
import LedgerClient.Proofs.Ledger.AddedTime
import LedgerClient.Proofs.Ledger.SharedSource
import LedgerClient.Proofs.Ledger.TimestampText

/-!
# `LedgerClient.Proofs.Ledger.IssuedInstants`: all instants are valid

`Issued` is every way to come by an instant: from its fields, a number of
seconds, a message, a text, a moment of the calendar, the clock, one of the
two sources of fresh instants, or from another instant by adding time. Most
of them check their fields in `make`; the others work with a number of
nanoseconds whose quotient and remainder are in range. So all of them are
valid (`Issued.valid`), and what is valid survives being sent
(`ofWire_toWire`).

A fresh start lies a few seconds before what the clock shows. How many is
said exactly by `totalNanos_jittered`, and `jitteredInWords_eq` says that
64 bits with a sign are enough to work it out.
-/

set_option autoImplicit false

namespace LedgerClient

namespace Timestamp

/-- An instant that some reader or source of the library has returned. -/
inductive Issued : Timestamp → Prop
  | made {seconds : Int64} {nanos : Int32} {t : Timestamp} (h : make seconds nanos = .ok t) :
      Issued t
  | ofUnixSeconds {seconds : Int64} {t : Timestamp} (h : ofUnixSeconds seconds = .ok t) : Issued t
  | ofWire {w : Wire.Timestamp} {t : Timestamp} (h : ofWire w = .ok t) : Issued t
  | parsed {text : String} {t : Timestamp} (h : parse text = .ok t) : Issued t
  | ofMoment {moment : Calendar.Moment} {t : Timestamp} (h : ofMoment moment = .ok t) : Issued t
  | parsedDate {text : String} {t : Timestamp} (h : parseDate text = .ok t) : Issued t
  | now (clock : Int) : Issued (now clock)
  | jittered (clock : Int) (draw : Draw) : Issued (jittered (reading clock) draw)
  | shared {s : SharedSource} {t : Timestamp} (h : s.Reached) (ht : t ∈ s.instants) : Issued t
  | later {t : Timestamp} (h : Issued t) (n : UInt64) : Issued (t.plusNanos n)

variable {t : Timestamp}

/-! ### Valid instants -/

/-- An instant that passed its check is valid. -/
theorem valid_of_make {seconds : Int64} {nanos : Int32} (h : make seconds nanos = .ok t) :
    t.Valid :=
  (make_eq_ok_iff.1 h).2

/-- The second of a moment is checked, and the nanoseconds are added, a leap second's too. -/
theorem valid_of_ofMoment {moment : Calendar.Moment} (h : ofMoment moment = .ok t) : t.Valid := by
  obtain ⟨whole, hwhole, rfl⟩ := map_eq_ok.1 h
  exact valid_plusNanos (valid_of_make hwhole) _

/-- An instant that is read from a date is valid: the reader checks it like any other. -/
theorem valid_of_parseDate {text : String} (h : parseDate text = .ok t) : t.Valid := by
  unfold parseDate at h
  split at h
  · exact valid_of_ofMoment h
  · cases h

/-- A reading of the clock has 64 bits, whatever the clock shows. -/
theorem reading_lt_size (clock : Int) : reading clock < UInt64.size :=
  Nat.lt_trans (reading_lt clock) (by decide)

/-- A fresh start is less than a millisecond after a clock that was moved back. -/
theorem jittered_lt_size (clock : Int) (draw : Draw) :
    ((reading clock : Int) - (draw.backdateMs * nanosPerMilli : Nat) + (draw.subMilli : Int)).toNat
      < UInt64.size := by
  have hreading := reading_lt clock
  have hsub := draw.subMilli_lt
  unfold nanosPerMilli at *
  unfold UInt64.size
  omega

/-- However an instant was come by, it is valid. -/
theorem Issued.valid (h : Issued t) : t.Valid := by
  -- Only a sum comes from an instant that was issued before.
  induction h with
  | made h => exact valid_of_make h
  | ofUnixSeconds h => exact valid_of_make h
  | ofWire h => exact valid_of_make h
  | parsed h => exact valid_of_parse h
  | ofMoment h => exact valid_of_ofMoment h
  | parsedDate h => exact valid_of_parseDate h
  | now clock => exact valid_ofNanos (reading_lt_size clock)
  | jittered clock draw => exact valid_ofNanos (jittered_lt_size clock draw)
  | shared _ ht => exact SharedSource.valid_of_mem_instants ht
  | later _ n ih => exact valid_plusNanos ih n

/-! ### Instants that travel -/

/-- An instant is taken from the wire as it stands there, if it is valid. -/
theorem ofWire_eq_ok_iff {w : Wire.Timestamp} : ofWire w = .ok t ↔ t.toWire = w ∧ t.Valid := by
  have hwire : t = ⟨w.seconds, w.nanos⟩ ↔ t.toWire = w := by
    constructor
    · rintro rfl
      rfl
    · rintro rfl
      rfl
  rw [ofWire, make_eq_ok_iff, hwire]

/-- A valid instant is taken back as it was sent. -/
theorem ofWire_toWire (h : t.Valid) : ofWire t.toWire = .ok t :=
  ofWire_eq_ok_iff.2 ⟨rfl, h⟩

/-- Fields that travelled are accepted exactly if they are those of a valid instant. -/
theorem exists_ofWire_eq_ok_iff {w : Wire.Timestamp} : (∃ t, ofWire w = .ok t) ↔
    0 ≤ w.seconds.toInt ∧ 0 ≤ w.nanos.toInt ∧ w.nanos.toInt < nanosPerSecond := by
  constructor
  · rintro ⟨t, h⟩
    obtain ⟨rfl, hvalid⟩ := ofWire_eq_ok_iff.1 h
    exact hvalid
  · intro h
    exact ⟨⟨w.seconds, w.nanos⟩, ofWire_eq_ok_iff.2 ⟨rfl, h⟩⟩

end Timestamp

/-- A transaction that starts at a valid instant is taken back as it was sent. -/
theorem TransactionId.ofWire_toWire {id : TransactionId} (h : id.validStart.Valid) :
    ofWire id.toWire = .ok id := by
  have hstart : Timestamp.ofWire id.toWire.validStart = .ok id.validStart :=
    Timestamp.ofWire_toWire h
  rw [ofWire, hstart]
  rfl

namespace Timestamp

/-! ### Fresh starts -/

/-- A number in 64 bits with a sign, if it has room there. -/
def word? (n : Int) : Option Int64 :=
  if Int64.minValue.toInt ≤ n ∧ n ≤ Int64.maxValue.toInt then some (Int64.ofInt n) else none

/-- A fresh start, worked out in words of 64 bits with a sign. There is none if any of the words is
too short. -/
def jitteredInWords (reading : Nat) (draw : Draw) : Option Timestamp := do
  let now ← word? reading
  let backdate ← word? (draw.backdateMs * nanosPerMilli : Nat)
  let subMilli ← word? draw.subMilli
  let earlier ← word? (now.toInt - backdate.toInt)
  let start ← word? (earlier.toInt + subMilli.toInt)
  return ofNanos (max 0 start.toInt).toNat

/-- A number with room in 64 bits, sign included, is a word. -/
theorem word?_eq_some {n : Int} (hmin : -2 ^ 63 ≤ n) (hlt : n < 2 ^ 63) :
    ∃ w, word? n = some w ∧ w.toInt = n := by
  refine ⟨Int64.ofInt n, if_pos ?_, Int64.toInt_ofInt_of_le hmin hlt⟩
  rw [Int64.toInt_minValue, Int64.toInt_maxValue]
  omega

/-- How many nanoseconds a clock is moved back. -/
theorem Draw.backdate_bounds (draw : Draw) :
    3000000000 ≤ draw.backdateMs * nanosPerMilli ∧
      draw.backdateMs * nanosPerMilli ≤ 8000000000 := by
  have hmin := draw.minBackdate_le
  have hmax := draw.backdate_le_max
  unfold minBackdateMs at hmin
  unfold maxBackdateMs at hmax
  unfold nanosPerMilli
  omega

/-- No step on the way leaves the 64 bits. -/
theorem jitteredInWords_eq (clock : Int) (draw : Draw) :
    jitteredInWords (reading clock) draw = some (jittered (reading clock) draw) := by
  have hreading := reading_lt clock
  have hsub : draw.subMilli < 1000000 := draw.subMilli_lt
  obtain ⟨hleast, hmost⟩ := draw.backdate_bounds
  unfold jitteredInWords jittered
  -- Only the bounds of the product matter from here on.
  generalize draw.backdateMs * nanosPerMilli = back at *
  -- Each word of the program is a number with room in it, and the next is made of it.
  obtain ⟨now, hnow, hnowInt⟩ := word?_eq_some (n := reading clock) (by omega) (by omega)
  obtain ⟨backdate, hbackdate, hbackdateInt⟩ := word?_eq_some (n := back) (by omega) (by omega)
  obtain ⟨subMilli, hsubMilli, hsubMilliInt⟩ :=
    word?_eq_some (n := draw.subMilli) (by omega) (by omega)
  obtain ⟨earlier, hearlier, hearlierInt⟩ :=
    word?_eq_some (n := now.toInt - backdate.toInt) (by omega) (by omega)
  obtain ⟨start, hstart, hstartInt⟩ :=
    word?_eq_some (n := earlier.toInt + subMilli.toInt) (by omega) (by omega)
  -- What is below zero is raised to it, in words and in numbers.
  have hnanos : (max 0 start.toInt).toNat =
      ((reading clock : Int) - back + (draw.subMilli : Int)).toNat := by
    omega
  refine Option.bind_eq_some_iff.2 ⟨now, hnow, ?_⟩
  refine Option.bind_eq_some_iff.2 ⟨backdate, hbackdate, ?_⟩
  refine Option.bind_eq_some_iff.2 ⟨subMilli, hsubMilli, ?_⟩
  refine Option.bind_eq_some_iff.2 ⟨earlier, hearlier, ?_⟩
  refine Option.bind_eq_some_iff.2 ⟨start, hstart, ?_⟩
  exact congrArg (fun n => some (ofNanos n)) hnanos

/-- A fresh start is the clock's reading, moved back, or the epoch if that is before it. -/
theorem totalNanos_jittered (clock : Int) (draw : Draw) :
    (jittered (reading clock) draw).totalNanos = max 0 ((reading clock : Int) -
      (draw.backdateMs * nanosPerMilli : Nat) + (draw.subMilli : Int)) := by
  rw [jittered, totalNanos_ofNanos (jittered_lt_size clock draw)]
  omega

/-- The random choices that lead farthest back. -/
def Draw.farthest : Draw :=
  ⟨8000, 0, by decide, by decide, by decide⟩

/-- The random choices that lead least far back. -/
def Draw.nearest : Draw :=
  ⟨3000, 999999, by decide, by decide, by decide⟩

/-- What is true of fresh starts at a clock reading. The bounds are eight seconds, and three seconds
less all but one of the nanoseconds of a millisecond. -/
structure Backdated (reading : Nat) : Prop where
  exact : ∀ draw, (jittered reading draw).totalNanos = max 0 ((reading : Int) -
    (draw.backdateMs * nanosPerMilli : Nat) + (draw.subMilli : Int))
  bounds : 8000000000 ≤ reading → ∀ draw,
    (reading : Int) - 8000000000 ≤ (jittered reading draw).totalNanos ∧
      (jittered reading draw).totalNanos ≤ (reading : Int) - 2999000001
  attained : 8000000000 ≤ reading →
    (jittered reading .farthest).totalNanos = (reading : Int) - 8000000000 ∧
      (jittered reading .nearest).totalNanos = (reading : Int) - 2999000001
  words : ∀ draw, jitteredInWords reading draw = some (jittered reading draw)

/-- Whatever the clock reads, a fresh start lies as far back as was drawn. -/
theorem backdated (clock : Int) : Backdated (reading clock) where
  exact := totalNanos_jittered clock
  bounds := by
    -- The bounds are those of what was drawn, and so late there is nothing to raise.
    intro hlate draw
    have hback := draw.backdate_bounds
    have hsub : draw.subMilli < 1000000 := draw.subMilli_lt
    rw [totalNanos_jittered]
    omega
  attained := by
    intro hlate
    have hfarthest : Draw.farthest.backdateMs * nanosPerMilli = 8000000000 := rfl
    have hnearest : Draw.nearest.backdateMs * nanosPerMilli = 3000000000 := rfl
    have hnone : Draw.farthest.subMilli = 0 := rfl
    have hall : Draw.nearest.subMilli = 999999 := rfl
    rw [totalNanos_jittered, totalNanos_jittered]
    omega
  words := jitteredInWords_eq clock

/-- Whatever an instant was made from, it is valid; so it is the same instant after it was sent, and
so is the name of a transaction that starts then. What was sent is accepted exactly if the fields
are those of a valid instant, and then it is sent on unchanged. Whatever a clock shows, a fresh
start lies back by what was drawn, within the bounds, but not before the epoch, and no step on the
way leaves the 64 bits. -/
theorem issued_well_formed :
    (∀ t, Issued t → t.Valid ∧ ofWire t.toWire = .ok t ∧ ∀ account,
      TransactionId.ofWire (TransactionId.toWire ⟨account, t⟩) = .ok ⟨account, t⟩) ∧
    (∀ w : Wire.Timestamp, ((∃ t, ofWire w = .ok t) ↔
        0 ≤ w.seconds.toInt ∧ 0 ≤ w.nanos.toInt ∧ w.nanos.toInt < nanosPerSecond) ∧
      ∀ t, ofWire w = .ok t → t.toWire = w) ∧
    ∀ clock, Backdated (reading clock) := by
  refine ⟨fun t h => ?_, fun w => ⟨exists_ofWire_eq_ok_iff, fun t h => ?_⟩, backdated⟩
  · exact ⟨h.valid, ofWire_toWire h.valid, fun account => TransactionId.ofWire_toWire h.valid⟩
  · exact (ofWire_eq_ok_iff.1 h).1

example : (ofMoment ⟨1483228799, 1500000000⟩).toOption = some ⟨1483228800, 500000000⟩ := by decide

end Timestamp

end LedgerClient
