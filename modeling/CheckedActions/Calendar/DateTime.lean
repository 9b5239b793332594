import CheckedActions.Calendar.Date

/-!
Dates with a time of day and an optional offset from universal time. `localMicros` counts the
microseconds of the fields as written, `toUniversal?` moves the fields to offset zero and fails
where that leaves the years the calendar covers.
-/

namespace CheckedActions

structure DateTime where
  date : Date
  hour : Nat
  minute : Nat
  second : Nat
  microsecond : Nat
  /-- Seconds ahead of universal time; none when the fields say nothing about it. -/
  offset : Option Int
  deriving DecidableEq, Inhabited

namespace DateTime

def microsPerSecond : Nat := 1000000
def microsPerDay : Nat := 86400000000

def TimeValid (t : DateTime) : Prop :=
  t.hour < 24 ∧ t.minute < 60 ∧ t.second < 60 ∧ t.microsecond < microsPerSecond

instance (t : DateTime) : Decidable t.TimeValid := by unfold TimeValid; infer_instance

/-- Fields that exist, and an offset of less than a day. -/
def Valid (t : DateTime) : Prop :=
  t.date.Valid ∧ t.TimeValid ∧ ∀ o ∈ t.offset, -86400 < o ∧ o < 86400

/-- Microseconds since midnight. -/
def timeMicros (t : DateTime) : Nat :=
  ((t.hour * 60 + t.minute) * 60 + t.second) * microsPerSecond + t.microsecond

/-- Microseconds of the fields since 0001-01-01T00:00:00. -/
def localMicros (t : DateTime) : Int :=
  ((t.date.dayNumber - 1) * microsPerDay + t.timeMicros : Nat)

/-- The microseconds up to the instant, local time without an offset being universal time. -/
def instantMicros (t : DateTime) : Int := t.localMicros - t.offset.getD 0 * (microsPerSecond : Int)

/-- The first count of microseconds past the calendar. -/
def endMicros : Nat := Date.lastDay * microsPerDay

/-- The fields of a count of microseconds within the calendar, at offset zero. -/
def ofMicros? (n : Int) : Option DateTime :=
  if 0 ≤ n ∧ n < endMicros then
    let m := n.toNat
    let time := m % microsPerDay
    let seconds := time / microsPerSecond
    some {
      date := Date.ofDayNumber (m / microsPerDay + 1)
      hour := seconds / 3600
      minute := seconds / 60 % 60
      second := seconds % 60
      microsecond := time % microsPerSecond
      offset := some 0 }
  else none

/-- The same instant with fields of universal time; fields without an offset are taken to be so
already. -/
def toUniversal? (t : DateTime) : Option DateTime :=
  match t.offset with
  | none => some { t with offset := some 0 }
  | some o => ofMicros? (t.localMicros - o * (microsPerSecond : Int))

/-- Midnight of a date, in universal time. -/
def ofDate (d : Date) : DateTime := ⟨d, 0, 0, 0, 0, some 0⟩

/-- The count of microseconds at the start of 1970. -/
def epochMicros : Int := ((Date.daysBeforeYear 1970 * microsPerDay : Nat) : Int)

end DateTime
end CheckedActions
