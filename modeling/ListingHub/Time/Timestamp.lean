import ListingHub.Text.Integer

/-!
# Timestamps

A moment in seconds since 1970 and nanoseconds, and its text in the form of RFC 3339. From a second
of nanoseconds on the moment lies in a leap second, which is the sixtieth of its minute.
-/

namespace ListingHub

/-- A moment: seconds since the start of 1970 and nanoseconds below two seconds. -/
structure Timestamp where
  seconds : Int
  nanos : Nat
  deriving DecidableEq, Repr

namespace Timestamp

/-- A day of the calendar. -/
structure Day where
  year : Int
  month : Nat
  day : Nat

/-- The day of the Gregorian calendar that lies `days` after 1970-01-01. Years are counted from
March in eras of 400 years, so that the leap day comes last. -/
def dayOf (days : Int) : Day :=
  let shifted := days + 719468
  let era := shifted.fdiv 146097
  let dayOfEra := (shifted - era * 146097).toNat
  let yearOfEra := (dayOfEra - dayOfEra / 1460 + dayOfEra / 36524 - dayOfEra / 146096) / 365
  let dayOfYear := dayOfEra - (365 * yearOfEra + yearOfEra / 4 - yearOfEra / 100)
  let marchMonth := (5 * dayOfYear + 2) / 153
  let month := if marchMonth < 10 then marchMonth + 3 else marchMonth - 9
  { year := yearOfEra + era * 400 + (if month ≤ 2 then 1 else 0)
    month
    day := dayOfYear - (153 * marchMonth + 2) / 5 + 1 }

/-- Four digits; a year outside of 0 to 9999 has a sign. -/
def yearText (year : Int) : String :=
  if 0 ≤ year ∧ year ≤ 9999 then Text.padded 4 year.toNat
  else (if year < 0 then "-" else "+") ++ Text.padded 4 year.natAbs

/-- A fraction of a second with no, three, six or nine digits, the fewest that are exact. -/
def fractionText (nanos : Nat) : String :=
  if nanos = 0 then ""
  else if nanos % 1_000_000 = 0 then "." ++ Text.padded 3 (nanos / 1_000_000)
  else if nanos % 1000 = 0 then "." ++ Text.padded 6 (nanos / 1_000)
  else "." ++ Text.padded 9 nanos

/-- The text of a moment without its zone. -/
def localText (t : Timestamp) : String :=
  let day := dayOf (t.seconds.fdiv 86400)
  let second := (t.seconds.fmod 86400).toNat
  yearText day.year ++ "-" ++ Text.padded 2 day.month ++ "-" ++ Text.padded 2 day.day ++ "T" ++
    Text.padded 2 (second / 3600) ++ ":" ++ Text.padded 2 (second / 60 % 60) ++ ":" ++
    Text.padded 2 (second % 60 + t.nanos / 1_000_000_000) ++ fractionText (t.nanos % 1_000_000_000)

/-- The text of a moment in the zone `Z`. -/
def text (t : Timestamp) : String :=
  t.localText ++ "Z"

/-- The text of a moment with the zone as a numeric offset. -/
def offsetText (t : Timestamp) : String :=
  t.localText ++ "+00:00"

/-- The moment `nanos` nanoseconds later. -/
def later (t : Timestamp) (nanos : Nat) : Timestamp :=
  let total := t.nanos + nanos
  ⟨t.seconds + (total / 1_000_000_000 : Nat), total % 1_000_000_000⟩

end Timestamp

end ListingHub
