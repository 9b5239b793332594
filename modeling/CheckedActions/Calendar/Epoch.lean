import CheckedActions.Calendar.DateTime
import CheckedActions.Number.Binary64

/-!
Numbers as instants: milliseconds since the start of 1970. The number is divided in double
precision, and whole seconds and fraction are rounded to microseconds apart from each other.
-/

namespace CheckedActions.DateTime

/-- The microseconds of a count of seconds. -/
def secondsToMicros? : Binary64 → Option Int
  | .finite negative m u =>
    let (whole, fraction) := Binary64.splitWhole negative m u
    let n : Nat := whole * microsPerSecond + fraction.mulRoundWhole microsPerSecond
    some (if negative then -(n : Int) else n)
  | _ => none

/-- The instant a number of milliseconds after the start of 1970, if the calendar covers it. -/
def ofEpochMillis? (x : Binary64) : Option DateTime := do
  let micros ← secondsToMicros? (x.divNat 1000)
  ofMicros? (epochMicros + micros)

end CheckedActions.DateTime
