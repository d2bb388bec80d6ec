import LedgerClient.Calendar.Reader
import LedgerClient.Ledger.TimestampReader

/-!
# `LedgerClient.Ledger.TimestampDate`: instants and calendar dates

A date becomes an instant unless it is before the epoch. Its seconds
are checked first and its nanoseconds added afterwards, so a leap
second, whose nanoseconds go beyond one second, runs into the second
that follows it. An instant becomes a date as far as the calendar
goes, which is not as far as instants do.
-/

set_option autoImplicit false

namespace LedgerClient.Timestamp

/-- The instant of a moment, unless that is before the epoch. -/
def ofMoment (m : Calendar.Moment) : Except Error Timestamp :=
  (make (Int64.ofInt m.seconds) 0).map fun t => t.plusNanos (UInt64.ofNat m.nanos)

/-- The instant of a date in text. -/
def parseDate (text : String) : Except Error Timestamp :=
  match Calendar.moment? text with
  | some moment => ofMoment moment
  | none => .error (.invalidArgument (.malformedDate text))

/-- The last second of the calendar: the end of the year 262142. -/
def lastCalendarSecond : Int := 8210266876799

/-- The moment of an instant, as far as the calendar goes. -/
def toMoment (t : Timestamp) : Except Error Calendar.Moment :=
  if t.seconds.toInt ≤ lastCalendarSecond then
    .ok ⟨t.seconds.toInt, t.nanos.toInt.toNat⟩
  else .error (.invalidArgument (.beyondCalendar t))

end LedgerClient.Timestamp
