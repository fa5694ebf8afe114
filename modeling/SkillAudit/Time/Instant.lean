import SkillAudit.Text.Blank

/-! Instants of Coordinated Universal Time, to the nanosecond, and their texts. -/
namespace SkillAudit

/-- A date and a time of day. Second 60 is a leap second. -/
structure Civil where
  year : Int
  month : Nat
  day : Nat
  hour : Nat
  minute : Nat
  second : Nat
  nano : Nat
  deriving DecidableEq, Repr

namespace Civil

def isLeapYear (year : Int) : Bool :=
  year % 4 == 0 && (year % 100 != 0 || year % 400 == 0)

def daysIn (year : Int) (month : Nat) : Nat :=
  if month == 2 then (if isLeapYear year then 29 else 28)
  else if month == 4 || month == 6 || month == 9 || month == 11 then 30
  else 31

def isKnownYear (year : Int) : Bool := -262143 ≤ year && year ≤ 262142

def isValid (c : Civil) : Bool :=
  isKnownYear c.year && 1 ≤ c.month && c.month ≤ 12 && 1 ≤ c.day && c.day ≤ daysIn c.year c.month &&
    c.hour < 24 && c.minute < 60 && c.second ≤ 60 && c.nano < 1000000000

def dayNumber (year : Int) (month day : Nat) : Int :=
  let y := if month ≤ 2 then year - 1 else year
  let era := y.fdiv 400
  let yearOfEra := y - era * 400
  let shifted : Int := ((month + 9) % 12 : Nat)
  let dayOfYear := (153 * shifted + 2).fdiv 5 + (day : Int) - 1
  let dayOfEra := yearOfEra * 365 + yearOfEra.fdiv 4 - yearOfEra.fdiv 100 + dayOfYear
  era * 146097 + dayOfEra - 719468

def ofDayNumber (days : Int) : Int × Nat × Nat :=
  let z := days + 719468
  let era := z.fdiv 146097
  let dayOfEra := z - era * 146097
  let yearOfEra :=
    (dayOfEra - dayOfEra.fdiv 1460 + dayOfEra.fdiv 36524 - dayOfEra.fdiv 146096).fdiv 365
  let dayOfYear := dayOfEra - (365 * yearOfEra + yearOfEra.fdiv 4 - yearOfEra.fdiv 100)
  let shifted := (5 * dayOfYear + 2).fdiv 153
  let day := dayOfYear - (153 * shifted + 2).fdiv 5 + 1
  let month := if shifted < 10 then shifted + 3 else shifted - 9
  let year := yearOfEra + era * 400 + (if month ≤ 2 then 1 else 0)
  (year, month.toNat, day.toNat)

def earlierBy (c : Civil) (minutes : Int) : Civil :=
  if minutes == 0 then c
  else
    let total := dayNumber c.year c.month c.day * 1440 + (c.hour * 60 + c.minute : Nat) - minutes
    let (year, month, day) := ofDayNumber (total.fdiv 1440)
    let rest := (total.fmod 1440).toNat
    { c with year, month, day, hour := rest / 60, minute := rest % 60 }

end Civil

structure Instant extends Civil where
  valid : toCivil.isValid = true
  deriving DecidableEq, Repr

namespace Instant

def ofCivil? (c : Civil) : Option Instant :=
  if h : c.isValid = true then some ⟨c, h⟩ else none

def padded (width n : Nat) : String :=
  let ds := Nat.toDigits 10 n
  String.ofList (List.replicate (width - ds.length) '0' ++ ds)

/-- A year in four digits, or with a sign when it has more or is negative. -/
def yearText (year : Int) : String :=
  if 0 ≤ year && year ≤ 9999 then padded 4 year.toNat
  else (if year < 0 then "-" else "+") ++ padded 4 year.natAbs

/-- The fraction of a second in three, six or nine digits, nothing if it is zero. -/
def fractionText (nano : Nat) : String :=
  if nano == 0 then ""
  else if nano % 1000000 == 0 then "." ++ padded 3 (nano / 1000000)
  else if nano % 1000 == 0 then "." ++ padded 6 (nano / 1000)
  else "." ++ padded 9 nano

def isBefore (s t : Instant) : Bool :=
  let key (i : Instant) : List Int :=
    [i.year, i.month, i.day, i.hour, i.minute, i.second, i.nano]
  decide (key s < key t)

def date (t : Instant) : String :=
  yearText t.year ++ "-" ++ padded 2 t.month ++ "-" ++ padded 2 t.day

def dateMinute (t : Instant) : String :=
  t.date ++ " " ++ padded 2 t.hour ++ ":" ++ padded 2 t.minute

def text (t : Instant) : String :=
  t.date ++ "T" ++ padded 2 t.hour ++ ":" ++ padded 2 t.minute ++ ":" ++ padded 2 t.second ++
    fractionText t.nano ++ "Z"

def number? (most : Nat) (cs : List Char) : Option (Nat × List Char) :=
  let ds := (cs.take most).takeWhile Char.isDigit
  if ds.isEmpty then none
  else some (ds.foldl (fun n c => n * 10 + (c.toNat - 48)) 0, cs.drop ds.length)

def skipBlank (cs : List Char) : List Char := cs.dropWhile Text.isBlank

/-- A year: four digits at most, or any number of them after a sign. -/
def year? (cs : List Char) : Option (Int × List Char) :=
  match skipBlank cs with
  | '-' :: rest => (number? rest.length rest).map fun (n, r) => (-(n : Int), r)
  | '+' :: rest => (number? rest.length rest).map fun (n, r) => ((n : Int), r)
  | cs => (number? 4 cs).map fun (n, r) => ((n : Int), r)

/-- Two digits at most, after any blanks. -/
def part? (cs : List Char) : Option (Nat × List Char) := number? 2 (skipBlank cs)

def after? (c : Char) (cs : List Char) : Option (List Char) :=
  match skipBlank cs with
  | d :: rest => if d == c then some rest else none
  | [] => none

/-- The nanoseconds after a decimal point; digits beyond the ninth are skipped. -/
def nano? : List Char → Option (Nat × List Char)
  | '.' :: rest =>
    let ds := rest.takeWhile Char.isDigit
    if ds.isEmpty then none
    else
      let nine := (ds ++ List.replicate 9 '0').take 9
      some (nine.foldl (fun n c => n * 10 + (c.toNat - 48)) 0, rest.dropWhile Char.isDigit)
  | cs => some (0, cs)

/-- The offset from Universal Time in minutes: `Z`, `UTC`, or a sign, hours and minutes. -/
def offset? (cs : List Char) : Option (Int × List Char) :=
  match cs with
  | 'Z' :: rest => some (0, rest)
  | 'z' :: rest => some (0, rest)
  | u :: t :: c :: rest =>
    if [u, t, c].map Char.toUpper == ['U', 'T', 'C'] then some (0, rest) else signed? cs
  | _ => none
where
  signed? : List Char → Option (Int × List Char)
    | '+' :: rest => hoursMinutes? rest
    | '-' :: rest => (hoursMinutes? rest).map fun (m, r) => (-m, r)
    | '−' :: rest => (hoursMinutes? rest).map fun (m, r) => (-m, r)
    | _ => none
  hoursMinutes? : List Char → Option (Int × List Char)
    | a :: b :: rest =>
      if a.isDigit && b.isDigit then
        match rest.dropWhile fun c => c == ':' || Text.isBlank c with
        | c :: d :: rest =>
          if '0' ≤ c && c ≤ '5' && d.isDigit then
            let hours := (a.toNat - 48) * 10 + (b.toNat - 48)
            let minutes := (c.toNat - 48) * 10 + (d.toNat - 48)
            some ((hours * 60 + minutes : Nat), rest)
          else none
        | _ => none
      else none
    | _ => none

/-- The instant a text names: a date, a `T` or a blank, a time of day and an offset from Universal
Time. Blanks may stand between the parts, and the parts of date and time may be short. -/
def parse? (s : String) : Option Instant := do
  let (year, cs) ← year? s.toList
  let (month, cs) ← part? (← after? '-' cs)
  let (day, cs) ← part? (← after? '-' cs)
  let cs ← match cs with
    | 't' :: rest => some rest
    | 'T' :: rest => some rest
    | ' ' :: rest => some rest
    | _ => none
  let (hour, cs) ← part? cs
  let (minute, cs) ← part? (← after? ':' cs)
  let (second, cs) ← part? (← after? ':' cs)
  let (nano, cs) ← nano? cs
  let (offset, cs) ← offset? (skipBlank cs)
  if !(skipBlank cs).isEmpty then none
  else if offset.natAbs ≥ 1440 then none
  else
    let civil : Civil := { year, month, day, hour, minute, second, nano }
    if civil.isValid then ofCivil? (civil.earlierBy offset) else none

end Instant
end SkillAudit
