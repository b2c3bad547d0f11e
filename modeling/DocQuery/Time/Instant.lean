/-
  Instants, in milliseconds since 1970-01-01T00:00:00Z.

  1. the proleptic Gregorian calendar: day numbers and dates;
  2. an instant as date and time of day, as far as the calendar reaches;
  3. two written forms;
  4. reading the RFC 3339 form.
-/
import DocQuery.Text.Digits

namespace DocQuery.Time

/-! ## Calendar -/

structure Date where
  year : Int
  month : Nat
  day : Nat
deriving DecidableEq, Repr

/-- Days from 1970-01-01 to a date.  Years start in March, so that the leap day comes last. -/
def dayNumber (d : Date) : Int :=
  let y : Int := if d.month ≤ 2 then d.year - 1 else d.year
  let era := y.fdiv 400
  let yearOfEra := y - era * 400
  let m : Int := if 2 < d.month then (d.month : Int) - 3 else (d.month : Int) + 9
  let dayOfYear := (153 * m + 2) / 5 + (d.day : Int) - 1
  let dayOfEra := yearOfEra * 365 + yearOfEra / 4 - yearOfEra / 100 + dayOfYear
  era * 146097 + dayOfEra - 719468

/-- The date of a day number. -/
def dateOfDay (n : Int) : Date :=
  let z := n + 719468
  let era := z.fdiv 146097
  let dayOfEra := z - era * 146097
  let yearOfEra :=
    (dayOfEra - dayOfEra / 1460 + dayOfEra / 36524 - dayOfEra / 146096) / 365
  let dayOfYear := dayOfEra - (365 * yearOfEra + yearOfEra / 4 - yearOfEra / 100)
  let mp := (5 * dayOfYear + 2) / 153
  let day := dayOfYear - (153 * mp + 2) / 5 + 1
  let month := if mp < 10 then mp + 3 else mp - 9
  let year := yearOfEra + era * 400 + (if month ≤ 2 then 1 else 0)
  ⟨year, month.toNat, day.toNat⟩

def isLeap (year : Int) : Bool :=
  year % 4 = 0 && (year % 100 ≠ 0 || year % 400 = 0)

def daysInMonth (year : Int) (month : Nat) : Nat :=
  if month = 2 then (if isLeap year then 29 else 28)
  else if month = 4 ∨ month = 6 ∨ month = 9 ∨ month = 11 then 30
  else 31

def Date.isValid (d : Date) : Bool :=
  1 ≤ d.month && d.month ≤ 12 && 1 ≤ d.day && d.day ≤ daysInMonth d.year d.month

/-! ## Date and time of day -/

structure Moment where
  date : Date
  hour : Nat
  minute : Nat
  second : Nat
  nanosecond : Nat
deriving DecidableEq, Repr

def msPerDay : Int := 86400000

/-- The years of the calendar reach from `-greatestYear` to `greatestYear`. -/
def greatestYear : Nat := 999999

/-- The moment of an instant; none outside the years of the calendar. -/
def momentOfMs? (ms : Int) : Option Moment :=
  let day := ms.fdiv msPerDay
  let rest := (ms - day * msPerDay).toNat
  let date := dateOfDay day
  if date.year.natAbs ≤ greatestYear then
    some
      { date
        hour := rest / 3600000
        minute := rest / 60000 % 60
        second := rest / 1000 % 60
        nanosecond := rest % 1000 * 1000000 }
  else none

/-! ## Written forms -/

/-- The nine digits of a nanosecond count without trailing zeros. -/
def fractionChars (nanosecond : Nat) : List Char :=
  ((Text.padNat 9 nanosecond).toList.reverse.dropWhile (· == '0')).reverse

/-- Largest year without a plus sign. -/
def lastPlainYear : Nat := 9999

/-- Year of at least four digits, signed if it is negative or has more of them. -/
def yearText (year : Int) : String :=
  (if year < 0 then "-" else if lastPlainYear < year then "+" else "")
    ++ Text.padNat 4 year.natAbs

def dateText (d : Date) : String :=
  yearText d.year ++ "-" ++ Text.padNat 2 d.month ++ "-" ++ Text.padNat 2 d.day

/-- Readable form, such as `1970-01-01 0:00:00.0 +00:00:00`. -/
def Moment.readable (m : Moment) : String :=
  let places := match fractionChars m.nanosecond with
    | [] => ['0']
    | ds => ds
  dateText m.date ++ " " ++ Text.ofNat m.hour ++ ":" ++ Text.padNat 2 m.minute ++ ":"
    ++ Text.padNat 2 m.second ++ "." ++ String.ofList places ++ " +00:00:00"

/-- Readable form of an instant; its milliseconds where the calendar ends. -/
def readable (ms : Int) : String :=
  match momentOfMs? ms with
  | some m => m.readable
  | none => Text.ofInt ms

/-- RFC 3339 form in UTC; the fraction is left out when zero. -/
def Moment.rfc3339 (m : Moment) : String :=
  let places := match fractionChars m.nanosecond with
    | [] => ""
    | ds => "." ++ String.ofList ds
  dateText m.date ++ "T" ++ Text.padNat 2 m.hour ++ ":" ++ Text.padNat 2 m.minute ++ ":"
    ++ Text.padNat 2 m.second ++ places ++ "Z"

/-- RFC 3339 form of an instant; it has none before 1970 or past its greatest year. -/
def rfc3339? (ms : Int) : Option String :=
  match momentOfMs? ms with
  | some m => if 0 ≤ ms ∧ m.date.year ≤ lastPlainYear then some m.rfc3339 else none
  | none => none

/-! ## Reading -/

/-- The next `n` characters as a decimal number. -/
def takeDigits (n : Nat) (cs : List Char) : Option (Nat × List Char) :=
  let ds := cs.take n
  if ds.length = n ∧ ds.all Text.isDigit then some (Text.digitsValue ds, cs.drop n) else none

/-- One given character. -/
def takeChar (c : Char) : List Char → Option (List Char)
  | d :: rest => if d = c then some rest else none
  | [] => none

/-- The fraction after a point in nanoseconds; digits past the ninth are skipped. -/
def takeFraction : List Char → Option (Nat × List Char)
  | '.' :: rest =>
    let ds := rest.takeWhile Text.isDigit
    if ds.isEmpty then none
    else
      let nine := (ds ++ List.replicate 9 '0').take 9
      some (Text.digitsValue nine, rest.dropWhile Text.isDigit)
  | cs => some (0, cs)

/-- `Z`, or a signed offset of hours and minutes; the result is in seconds. -/
def takeOffset : List Char → Option (Int × List Char)
  | [] => none
  | c :: rest =>
    if c = 'Z' ∨ c = 'z' then some (0, rest)
    else if c = '+' ∨ c = '-' then do
      let (hour, rest) ← takeDigits 2 rest
      let rest ← takeChar ':' rest
      let (minute, rest) ← takeDigits 2 rest
      if 23 < hour ∨ 59 < minute then none
      else
        let seconds : Int := hour * 3600 + minute * 60
        some (if c = '-' then -seconds else seconds, rest)
    else none

/-- Milliseconds of an RFC 3339 date and time.  Any ASCII character may separate date and time.
A sixtieth second is taken for the nanosecond before it, and only at the end of a month in UTC.
Fractions of a millisecond are cut off towards the epoch. -/
def msOfRfc3339? (s : String) : Option Int := do
  let (year, cs) ← takeDigits 4 s.toList
  let cs ← takeChar '-' cs
  let (month, cs) ← takeDigits 2 cs
  let cs ← takeChar '-' cs
  let (day, cs) ← takeDigits 2 cs
  let cs ← match cs with
    | c :: rest => if c.toNat < 128 then some rest else none
    | [] => none
  let (hour, cs) ← takeDigits 2 cs
  let cs ← takeChar ':' cs
  let (minute, cs) ← takeDigits 2 cs
  let cs ← takeChar ':' cs
  let (second, cs) ← takeDigits 2 cs
  let (nanosecond, cs) ← takeFraction cs
  let (offset, cs) ← takeOffset cs
  let date : Date := ⟨year, month, day⟩
  let leap := second = 60
  let second := if leap then 59 else second
  let nanosecond := if leap then 999999999 else nanosecond
  if !cs.isEmpty || !date.isValid || 23 < hour || 59 < minute || 59 < second then none
  else
    let seconds : Int :=
      dayNumber date * 86400 + hour * 3600 + minute * 60 + second - offset
    let utc := dateOfDay (seconds.fdiv 86400)
    if leap && !(seconds.fmod 86400 = 86399 && utc.day = daysInMonth utc.year utc.month) then none
    else some ((seconds * 1000000000 + nanosecond).tdiv 1000000)

example : msOfRfc3339? "2020-02-29T12:30:00.250Z" = some 1582979400250 := by decide +kernel
example : readable 0 = "1970-01-01 0:00:00.0 +00:00:00" := by decide +kernel
example : readable 253402300800000 = "+10000-01-01 0:00:00.0 +00:00:00" := by decide +kernel

end DocQuery.Time
