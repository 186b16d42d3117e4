/-!
# Time

Durations are whole milliseconds and are bounded: what would be longer than the longest duration
is that duration. Instants are milliseconds since the start of 1970 and may lie before it, but the
calendar ends in both directions, and an instant beyond its end does not exist.

A clock shows fractions of a millisecond, down to nanoseconds, and a duration may have them. Such
readings, delays, timeouts and lifetimes are left out. Settings are read as whole seconds, so a
timeout or lifetime with fractions is only found in a configuration that a program makes up. The
last millisecond of the calendar and that of the longest duration have fractions behind them; these
are left out as well.

## Main definitions

* `Duration`, `Duration.longest`, `Duration.extend`
* `Instant`, `Instant.after?` — the instant that lies a duration later, if there is one
* `Instant.toText` — how messages show an instant
-/

namespace SignIn

/-- A number of milliseconds. -/
abbrev Duration := Nat

namespace Duration

/-- Seconds are counted with 64 bits, and every second has 1000 milliseconds. -/
def longest : Duration := (UInt64.size - 1) * 1000 + 999

/-- So many seconds. -/
def seconds (n : Nat) : Duration := n * 1000

/-- The sum of two durations, or the longest one. -/
def extend (a b : Duration) : Duration := min (a + b) longest

end Duration

/-- Milliseconds since the start of 1970. -/
abbrev Instant := Int

namespace Instant

/-- The first instant of the calendar. -/
def earliest : Instant := -8334601228800000

/-- The last instant of the calendar. -/
def latest : Instant := 8210266876799999

/-- Whether the calendar has this instant. -/
def isValid (t : Instant) : Bool := earliest ≤ t && t ≤ latest

theorem isValid_iff {t : Instant} : t.isValid = true ↔ earliest ≤ t ∧ t ≤ latest := by
  simp [isValid]

/-- The instant that lies a duration later, if the calendar has it. -/
def after? (t : Instant) (d : Int) : Option Instant :=
  if isValid (t + d) then some (t + d) else none

/-- Whole seconds since the start of 1970. -/
def unixSeconds (t : Instant) : Int := t / 1000

/-- Year, month and day of a number of days since the start of 1970. The calendar repeats itself
every 400 years, which have 146097 days, and a year is counted from March, so that the day that
leap years have more comes last. -/
def civilDate (days : Int) : Int × Int × Int :=
  let shifted := days + 719468
  let era := shifted / 146097
  let day := shifted % 146097
  let year := (day - day / 1460 + day / 36524 - day / 146096) / 365
  let dayOfYear := day - (365 * year + year / 4 - year / 100)
  let month := (5 * dayOfYear + 2) / 153
  let monthOfYear := if month < 10 then month + 3 else month - 9
  (year + era * 400 + if monthOfYear ≤ 2 then 1 else 0, monthOfYear,
    dayOfYear - (153 * month + 2) / 5 + 1)

/-- A number with at least two digits. -/
def twoDigits (n : Int) : String := if n < 10 then s!"0{n}" else s!"{n}"

/-- An instant as messages show it, in universal time: `2024-02-29 23:59:59 UTC`. -/
def toText (t : Instant) : String :=
  let (year, month, day) := civilDate (t / 86400000)
  let seconds := t.unixSeconds % 86400
  let time := String.intercalate ":"
    ([seconds / 3600, seconds / 60 % 60, seconds % 60].map twoDigits)
  s!"{year}-{twoDigits month}-{twoDigits day} {time} UTC"

end Instant

end SignIn
