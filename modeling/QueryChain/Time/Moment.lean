import QueryChain.Time.Date

/-!
A moment is a date and a time of day, without a zone. A leap second is the last second of its
minute with a billion or more nanoseconds.
-/

namespace QueryChain.Time

def secondsInDay : Nat := 86400

def nanosInSecond : Nat := 1000000000

structure Moment where
  date : Date
  second : Nat
  nano : Nat
  inDay : second < secondsInDay := by decide
  bounded : nano < 2 * nanosInSecond := by decide
  deriving DecidableEq

namespace Moment

def ofDate (d : Date) : Moment where
  date := d
  second := 0
  nano := 0

/-- The moment at a time of day; the sixtieth second of a minute may hold a leap second. -/
def ofClock? (date : Date) (hour minute second nano : Nat) : Option Moment :=
  if h : hour < 24 ∧ minute < 60 ∧ second < 60 ∧ nano < 2 * nanosInSecond ∧
      (nano < nanosInSecond ∨ second = 59) then
    some ⟨date, hour * 3600 + minute * 60 + second, nano,
      by simp only [secondsInDay]; omega, h.2.2.2.1⟩
  else none

def hour (t : Moment) : Nat := t.second / 3600

def minute (t : Moment) : Nat := t.second / 60 % 60

/-- Whether an excess of nanoseconds stands only in the last second of a minute. -/
def IsRegular (t : Moment) : Prop :=
  t.nano < nanosInSecond ∨ t.second % 60 = 59

instance (t : Moment) : Decidable t.IsRegular := by
  unfold IsRegular
  infer_instance

/-- The moment a number of seconds later. Leap seconds of the span are not counted. -/
def addSeconds? (t : Moment) (seconds : Int) : Option Moment :=
  let total := t.second + seconds
  match Date.ofDayNumber? (t.date.dayNumber + total / 86400) with
  | some date =>
    some ⟨date, (total % 86400).toNat, t.nano, by simp only [secondsInDay]; omega, t.bounded⟩
  | none => none

def ofUnixSeconds? (seconds : Int) : Option Moment :=
  (Date.ofDayNumber? (seconds / 86400)).map fun date =>
    ⟨date, (seconds % 86400).toNat, 0, by simp only [secondsInDay]; omega, by decide⟩

/-- Nanoseconds from 1970-01-01, a leap second counted with the second it extends. -/
def unixNanos (t : Moment) : Int :=
  (t.date.dayNumber * secondsInDay + t.second) * nanosInSecond + t.nano

def order (a b : Moment) : Ordering :=
  (compare a.date.year b.date.year).then <| (compare a.date.month b.date.month).then <|
    (compare a.date.day b.date.day).then <| (compare a.second b.second).then <|
      compare a.nano b.nano

end Moment

end QueryChain.Time
