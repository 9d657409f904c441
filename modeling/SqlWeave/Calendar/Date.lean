import SqlWeave.Number.Digits

/-!
# Dates, times of day and their pairs

The proleptic Gregorian calendar with a year zero, times of day to the nanosecond with room for leap
seconds, and both together. A value of these types is always a date or a time that can be held: the
fields carry the proof.

Assumed of the calendar that statements are given dates from: its years are those of `minYear` to
`maxYear`, and a time counts the seconds of its day and, beside them, up to two seconds of
nanoseconds. A second of nanoseconds or more is a leap second. It is made on second 59 alone, but it
is kept whatever is done to the seconds, so it may stand on any of them; written, it is the second
after the one it stands on.

Results:
* `daysInMonth_le`, `daysInMonth_pos`: every month has between 28 and 31 days.
* `Date.ofParts?_eq_some`: a date is built exactly from parts that name a day.
* `Time.settled_of_isSettled`: a time is settled unless a leap second stands before second 59.
-/

namespace SqlWeave.Calendar

/-! ## Dates -/

/-- Years divisible by four, except full centuries that are not divisible by four hundred. -/
def isLeap (year : Int) : Bool := year % 4 == 0 && (year % 100 != 0 || year % 400 == 0)

/-- The number of days of a month; twelve for January to December. -/
def daysInMonth (year : Int) (month : Nat) : Nat :=
  if month = 2 then (if isLeap year then 29 else 28)
  else if month = 4 ∨ month = 6 ∨ month = 9 ∨ month = 11 then 30
  else 31

theorem daysInMonth_le (year : Int) (month : Nat) : daysInMonth year month ≤ 31 := by
  unfold daysInMonth; split <;> (try split) <;> omega

theorem daysInMonth_pos (year : Int) (month : Nat) : 28 ≤ daysInMonth year month := by
  unfold daysInMonth; split <;> (try split) <;> omega

/-- The years that a date can have. -/
def minYear : Int := -262143
/-- The last year that a date can have. -/
def maxYear : Int := 262142

/-- The parts name a day of the calendar. -/
def Date.Valid (year : Int) (month day : Nat) : Prop :=
  minYear ≤ year ∧ year ≤ maxYear ∧ 1 ≤ month ∧ month ≤ 12 ∧ 1 ≤ day ∧
    day ≤ daysInMonth year month

instance (year : Int) (month day : Nat) : Decidable (Date.Valid year month day) := by
  unfold Date.Valid; infer_instance

/-- A day of the calendar. -/
structure Date where
  year : Int
  month : Nat
  day : Nat
  valid : Date.Valid year month day
  deriving DecidableEq, Repr

namespace Date

/-- The day with these parts, if there is one. -/
def ofParts? (year : Int) (month day : Nat) : Option Date :=
  if h : Valid year month day then some ⟨year, month, day, h⟩ else none

theorem ofParts?_eq_some {year : Int} {month day : Nat} {d : Date} :
    ofParts? year month day = some d ↔ d.year = year ∧ d.month = month ∧ d.day = day := by
  unfold ofParts?
  split
  · constructor
    · rintro ⟨⟩; exact ⟨rfl, rfl, rfl⟩
    · rintro ⟨rfl, rfl, rfl⟩; rfl
  · rename_i h
    constructor
    · simp
    · rintro ⟨rfl, rfl, rfl⟩
      exact absurd d.valid h

/-- The first day of year one. -/
instance : Inhabited Date := ⟨⟨1, 1, 1, by decide⟩⟩

/-- The days of the year before a month. -/
def daysBefore (year : Int) (month : Nat) : Nat :=
  ((List.range (month - 1)).map fun i => daysInMonth year (i + 1)).sum

/-- The position of the day in its year, from one. -/
def dayOfYear (d : Date) : Nat := daysBefore d.year d.month + d.day

/-- The number of days since the last day of the year before year one. -/
def dayNumber (d : Date) : Int :=
  let y := d.year - 1
  365 * y + y / 4 - y / 100 + y / 400 + d.dayOfYear

/-- The day of the week, Monday being zero. -/
def weekday (d : Date) : Nat := ((d.dayNumber - 1) % 7).toNat

/-- The year and the week that the day belongs to, where weeks start on Monday and belong to the
year that holds their Thursday. -/
def isoWeek (d : Date) : Int × Nat :=
  let week : Int := ((d.dayOfYear : Int) - d.weekday + 9) / 7
  let weeksIn (year : Int) : Int :=
    let lastWeekday (y : Int) : Int := (y + y / 4 - y / 100 + y / 400) % 7
    if lastWeekday year = 4 ∨ lastWeekday (year - 1) = 3 then 53 else 52
  if week < 1 then (d.year - 1, (weeksIn (d.year - 1)).toNat)
  else if weeksIn d.year < week then (d.year + 1, 1)
  else (d.year, week.toNat)

/-- The day after. -/
def next? (d : Date) : Option Date :=
  if d.day < daysInMonth d.year d.month then ofParts? d.year d.month (d.day + 1)
  else if d.month < 12 then ofParts? d.year (d.month + 1) 1
  else ofParts? (d.year + 1) 1 1

/-- The day before. -/
def previous? (d : Date) : Option Date :=
  if 1 < d.day then ofParts? d.year d.month (d.day - 1)
  else if 1 < d.month then ofParts? d.year (d.month - 1) (daysInMonth d.year (d.month - 1))
  else ofParts? (d.year - 1) 12 31

end Date

/-! ## Times of day -/

/-- The nanoseconds of a second. -/
def nanosPerSecond : Nat := 1000000000

/-- The parts name a time of day. A second may last two seconds, the latter of them a leap
second. -/
def Time.Valid (hour minute second nano : Nat) : Prop :=
  hour < 24 ∧ minute < 60 ∧ second < 60 ∧ nano < 2 * nanosPerSecond

instance (hour minute second nano : Nat) : Decidable (Time.Valid hour minute second nano) := by
  unfold Time.Valid; infer_instance

/-- A time of day. -/
structure Time where
  hour : Nat
  minute : Nat
  second : Nat
  nano : Nat
  valid : Time.Valid hour minute second nano
  deriving DecidableEq, Repr

namespace Time

/-- The time with these parts, if there is one and no leap second stands before second 59. -/
def ofParts? (hour minute second nano : Nat) : Option Time :=
  if h : Valid hour minute second nano then
    if nano < nanosPerSecond ∨ second = 59 then some ⟨hour, minute, second, nano, h⟩ else none
  else none

/-- The time a number of seconds after the start of a day. A leap second is kept on any second. -/
def ofSeconds? (seconds nano : Nat) : Option Time :=
  if h : Valid (seconds / 3600) (seconds / 60 % 60) (seconds % 60) nano then some ⟨_, _, _, _, h⟩
  else none

/-- The start of a day. -/
def midnight : Time := ⟨0, 0, 0, 0, by decide⟩

instance : Inhabited Time := ⟨midnight⟩

/-- The second as written: a leap second is the one after the second it stands on, number sixty at
most. -/
def shownSecond (t : Time) : Nat := t.second + t.nano / nanosPerSecond

/-- The nanoseconds since the last written second. -/
def subsecond (t : Time) : Nat := t.nano % nanosPerSecond

/-- The hour on a dial of twelve and whether it is past noon. -/
def hour12 (t : Time) : Nat × Bool :=
  (if t.hour % 12 = 0 then 12 else t.hour % 12, 12 ≤ t.hour)

/-- No leap second stands before second 59. -/
def IsSettled (t : Time) : Prop := t.nano < nanosPerSecond ∨ t.second = 59

instance (t : Time) : Decidable t.IsSettled := by unfold IsSettled; infer_instance

/-- The time with a leap second before second 59 taken for the second after. -/
def settled (t : Time) : Time :=
  if h : t.IsSettled then t
  else
    { t with
      second := t.second + 1
      nano := t.nano - nanosPerSecond
      valid := by
        obtain ⟨hh, hm, hs, hn⟩ := t.valid
        obtain ⟨hn', hs'⟩ := not_or.mp h
        exact ⟨hh, hm, by omega, by omega⟩ }

theorem settled_of_isSettled {t : Time} (h : t.IsSettled) : t.settled = t := dif_pos h

end Time

/-! ## Both -/

/-- A time on a day. -/
structure DateTime where
  date : Date
  time : Time
  deriving DecidableEq, Repr, Inhabited

namespace DateTime

/-- The time on its day with a leap second before second 59 taken for the second after. -/
def settled (dt : DateTime) : DateTime := { dt with time := dt.time.settled }

/-- The seconds since the start of the year 1970, leap seconds not counted. -/
def timestamp (dt : DateTime) : Int :=
  (dt.date.dayNumber - 719163) * 86400 +
    (dt.time.hour * 3600 + dt.time.minute * 60 + dt.time.second : Nat)

/-- The time a number of seconds earlier, or later; at most a day of them. -/
def earlier? (dt : DateTime) (seconds : Int) : Option DateTime :=
  let total : Int :=
    (dt.time.hour * 3600 + dt.time.minute * 60 + dt.time.second : Nat) - seconds
  let ofDay (d : Option Date) (s : Nat) : Option DateTime := do
    let date ← d
    let time ← Time.ofSeconds? s dt.time.nano
    pure ⟨date, time⟩
  if total < 0 then ofDay dt.date.previous? (total + 86400).toNat
  else if 86400 ≤ total then ofDay dt.date.next? (total - 86400).toNat
  else ofDay (some dt.date) total.toNat

end DateTime
end SqlWeave.Calendar
