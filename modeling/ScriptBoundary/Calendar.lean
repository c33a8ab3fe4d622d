/-!
# The calendar

A point in time has a date and a time of day in UTC, which native code counts and scripts read as
text.
-/

namespace ScriptBoundary

/-!
## Instants

A point in time as whole seconds since 1970 in UTC and nanoseconds beyond them. A leap second is
written as the second before it with a thousand million nanoseconds or more, so it can stand only
where a minute ends. The calendar reaches from the year -262143 to the year 262142.
-/

/-- A point in time in UTC. -/
structure Instant where
  seconds : Int
  nanos : Nat
  first_le : -8334601228800 ≤ seconds
  le_last : seconds ≤ 8210266876799
  nanos_lt : nanos < 2000000000
  leap_at_minute_end : 1000000000 ≤ nanos → seconds % 60 = 59
deriving DecidableEq

namespace Instant

@[ext] theorem ext {a b : Instant} (hs : a.seconds = b.seconds) (hn : a.nanos = b.nanos) :
    a = b := by
  cases a; cases b; cases hs; cases hn; rfl

/-- The start of the calendar, which stands for "no date". -/
def earliest : Instant := ⟨-8334601228800, 0, by decide, by decide, by decide, by decide⟩

/-- The instant with the given parts, if the calendar has it. -/
def ofParts? (seconds : Int) (nanos : Nat) : Option Instant :=
  if h : -8334601228800 ≤ seconds ∧ seconds ≤ 8210266876799 ∧ nanos < 2000000000 ∧
      (1000000000 ≤ nanos → seconds % 60 = 59) then
    some ⟨seconds, nanos, h.1, h.2.1, h.2.2.1, h.2.2.2⟩
  else none

/-- The instant a number of milliseconds after the start of 1970, if the calendar has it. -/
def ofMillis? (millis : Int) : Option Instant :=
  ofParts? (millis / 1000) ((millis % 1000).toNat * 1000000)

/-- Whole milliseconds since the start of 1970. -/
def millis (t : Instant) : Int := t.seconds * 1000 + (t.nanos / 1000000 : Nat)

/-- The parts of an instant give it back. -/
@[simp] theorem ofParts?_eq (t : Instant) : ofParts? t.seconds t.nanos = some t :=
  dif_pos ⟨t.first_le, t.le_last, t.nanos_lt, t.leap_at_minute_end⟩

/-- An instant made from milliseconds is that many milliseconds after the start of 1970. -/
theorem millis_of_ofMillis? {m : Int} {t : Instant} (h : ofMillis? m = some t) : t.millis = m := by
  unfold ofMillis? ofParts? at h
  split at h
  · cases h
    have := Int.emod_nonneg m (b := 1000) (by decide)
    have := Int.mul_ediv_add_emod m 1000
    simp only [millis]
    omega
  · cases h

end Instant

/-!
## Their text

Date and time in the form `2023-05-30T12:11:12.120`, followed by a name for UTC. The days are
counted in eras of four hundred years that begin in March, so that the leap day is the last of its
year.
-/

/-- A day of the Gregorian calendar. -/
structure Day where
  year : Int
  month : Nat
  day : Nat
deriving DecidableEq, Repr

namespace Day

/-- The day a number of days after the first of January 1970. -/
def ofDays (days : Int) : Day :=
  let shifted := days + 719468
  let era := shifted / 146097
  let dayOfEra := (shifted % 146097).toNat
  let yearOfEra := (dayOfEra - dayOfEra / 1460 + dayOfEra / 36524 - dayOfEra / 146096) / 365
  let dayOfYear := dayOfEra - (365 * yearOfEra + yearOfEra / 4 - yearOfEra / 100)
  let monthFromMarch := (5 * dayOfYear + 2) / 153
  let month := if monthFromMarch < 10 then monthFromMarch + 3 else monthFromMarch - 9
  { year := era * 400 + yearOfEra + (if month ≤ 2 then 1 else 0)
    month
    day := dayOfYear - (153 * monthFromMarch + 2) / 5 + 1 }

end Day

namespace Instant

/-- A number with zeros in front of it up to a width. -/
def padded (width n : Nat) : List Char :=
  let digits := Nat.toDigits 10 n
  List.replicate (width - digits.length) '0' ++ digits

/-- A year of four digits; outside the years 0 to 9999 it has a sign. -/
def yearText (year : Int) : List Char :=
  if 0 ≤ year ∧ year ≤ 9999 then padded 4 year.toNat
  else (if year < 0 then '-' else '+') :: padded 4 year.natAbs

/-- How much of the fraction of a second is written. -/
inductive Fraction where
  /-- Three digits, always. -/
  | millis
  /-- None, three, six or nine digits, as many as the value needs. -/
  | needed

/-- The fraction of a second behind its point. -/
def fractionText (style : Fraction) (nanos : Nat) : List Char :=
  match style with
  | .millis => '.' :: padded 3 (nanos / 1000000)
  | .needed =>
    if nanos = 0 then []
    else if nanos % 1000000 = 0 then '.' :: padded 3 (nanos / 1000000)
    else if nanos % 1000 = 0 then '.' :: padded 6 (nanos / 1000)
    else '.' :: padded 9 nanos

/-- Date, time and the name for UTC. A leap second is the sixty-first of its minute. -/
def text (style : Fraction) (zone : String) (t : Instant) : String :=
  let day := Day.ofDays (t.seconds / 86400)
  let clock := (t.seconds % 86400).toNat
  let second := clock % 60 + t.nanos / 1000000000
  String.ofList (yearText day.year ++ '-' :: padded 2 day.month ++ '-' :: padded 2 day.day ++
    'T' :: padded 2 (clock / 3600) ++ ':' :: padded 2 (clock / 60 % 60) ++ ':' :: padded 2 second ++
    fractionText style (t.nanos % 1000000000)) ++ zone

end Instant

end ScriptBoundary
