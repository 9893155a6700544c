import SchemaEditor.Store.Template

/-!
# Time

A moment is a count of milliseconds, or a date and a time of day, or a number of which it is not clear yet what it
counts. A text or a number tells a moment, words change it, and it is shown in different forms. The store has no
clock: for it, it is always the same moment.
-/

namespace SchemaEditor.Store

structure Date where
  year : Int
  month : Int
  day : Int

structure TimeOfDay where
  hour : Int
  minute : Int
  second : Float

/-- A moment as far as it is known. -/
structure Moment where
  /-- The milliseconds since noon of the first Julian day. -/
  count : Option Int := none
  date : Option Date := none
  time : Option TimeOfDay := none
  /-- How many minutes the time of day is ahead. -/
  zone : Int := 0
  /-- The number that was given, as long as it is not clear what it counts. -/
  number : Option Float := none
  /-- By how many days the day is beyond the end of its month. -/
  excess : Int := 0
  showsFractions : Bool := false

namespace Moment

/-! ## Counting -/

def dayLength : Int := 86400000

/-- The moment from which seconds are counted. -/
def epoch : Int := 210866760000000

/-- The last moment there is. -/
def lastCount : Int := 464269060799999

def millisecondsOf (seconds : Float) : Int := Decimal.truncate (seconds * 1000 + 0.5)

/-- The count at the start of a day. -/
def countOf (d : Date) : Option Int :=
  if d.year < -4713 ∨ 9999 < d.year then none
  else
    let (y, m) := if d.month ≤ 2 then (d.year - 1, d.month + 12) else (d.year, d.month)
    let century := (y + 4800) / 100
    let days := 36525 * (y + 4716) / 100 + 306001 * (m + 1) / 10000 + d.day + 38 - century + century / 4
    some ((2 * days - 3049) * (dayLength / 2))

/-- The moment with its count, if it is a moment at all. A time of day of its own is one of the year 2000. -/
def counted (m : Moment) : Option Moment := do
  if m.count.isSome then return m
  if m.number.isSome then none
  let n ← countOf (m.date.getD ⟨2000, 1, 1⟩)
  match m.time with
  | none => return { m with count := some n }
  | some t =>
    let n := n + t.hour * 3600000 + t.minute * 60000 + millisecondsOf t.second
    if m.zone = 0 then return { m with count := some n }
    return { m with count := some (n - m.zone * 60000), date := none, time := none, zone := 0 }

def isValid (count : Int) : Bool := decide (0 ≤ count) && decide (count ≤ lastCount)

/-- The date of a count. -/
def dateOf (count : Int) : Date :=
  let days := (count + dayLength / 2) / dayLength
  let century := (4 * days + 128179) / 146097 - 52
  let a := days + 1 + century - (century + 100) / 4 + 25 + 1524
  let c := (20 * a - 2442) / 7305
  let d := 36525 * (c % 32768) / 100
  let e := (a - d) * 10000 / 306001
  let month := if e < 14 then e - 1 else e - 13
  ⟨if 2 < month then c - 4716 else c - 4715, month, a - d - 306001 * e / 10000⟩

/-- The moment with its date. -/
def dated (m : Moment) : Option Moment := do
  if m.date.isSome then return m
  match m.count with
  | none => return { m with date := some ⟨2000, 1, 1⟩ }
  | some n => if isValid n then return { m with date := some (dateOf n) } else none

/-- The moment with its time of day. -/
def timed (m : Moment) : Option Moment := do
  if m.time.isSome then return m
  let m ← m.counted
  let rest := ((m.count.getD 0) + dayLength / 2) % dayLength
  let minutes := rest / 60000
  return { m with time := some ⟨minutes / 60, minutes % 60, .ofInt (rest % 60000) / 1000⟩, number := none }

/-- The moment with its date and its time of day. -/
def complete (m : Moment) : Option Moment := do (← m.dated).timed

/-- The moment that a count is. -/
def atCount (m : Moment) (count : Int) : Moment := { m with count := some count, date := none, time := none, zone := 0 }

def shift (m : Moment) (milliseconds : Int) : Option Moment := do
  let m ← m.counted
  return m.atCount ((m.count.getD 0) + milliseconds)

/-! ## Reading -/

/-- Reads a number of some digits in a range. -/
def digits? (width least most : Nat) (cs : List Char) : Option (Int × List Char) :=
  let ds := cs.take width
  let n := Numeral.ofDigits ds
  if ds.length = width && ds.all Char.isDigit && least ≤ n && n ≤ most then some (n, cs.drop width) else none

def after? (c : Char) : List Char → Option (List Char)
  | d :: cs => if d = c then some cs else none
  | [] => none

/-- Reads hours and minutes. -/
def hours? (mostHours : Nat) (cs : List Char) : Option (Int × Int × List Char) := do
  let (hour, cs) ← digits? 2 0 mostHours cs
  let (minute, cs) ← digits? 2 0 59 (← after? ':' cs)
  return (hour, minute, cs)

def skipBlanks (cs : List Char) : List Char := cs.dropWhile Numeral.isBlank

/-- Reads a time zone, as minutes, up to the end. -/
def zone? (cs : List Char) : Option Int := do
  match skipBlanks cs with
  | [] => return 0
  | sign :: rest =>
    if sign = 'Z' ∨ sign = 'z' then
      if (skipBlanks rest).isEmpty then return 0 else none
    if sign ≠ '+' ∧ sign ≠ '-' then none
    let (hour, minute, rest) ← hours? 14 rest
    if !(skipBlanks rest).isEmpty then none
    let minutes := hour * 60 + minute
    return if sign = '-' then -minutes else minutes

/-- The part of a second that digits after a point tell. It never makes a whole one. -/
def fractionOf (ds : List Char) : Float :=
  let (n, scale) := ds.foldl (fun (n, scale) c => (n * 10 + .ofNat (c.toNat - '0'.toNat), scale * 10)) ((0, 1) : Float × Float)
  let fraction := n / scale
  if 0.999 < fraction then 0.999 else fraction

/-- Reads seconds after a colon, if there are any. -/
def seconds? (cs : List Char) : Option (Float × List Char) := do
  match cs with
  | ':' :: cs =>
    let (second, cs) ← digits? 2 0 59 cs
    match cs with
    | '.' :: rest =>
      let ds := rest.takeWhile Char.isDigit
      if ds.isEmpty then return (.ofInt second, cs)
      return (.ofInt second + fractionOf ds, rest.drop ds.length)
    | cs => return (.ofInt second, cs)
  | cs => return (0, cs)

/-- Reads a time of day and a time zone. -/
def time? (cs : List Char) : Option Moment := do
  let (hour, minute, cs) ← hours? 24 cs
  let (second, cs) ← seconds? cs
  return { time := some ⟨hour, minute, second⟩, zone := ← zone? cs }

/-- By how many days a day is beyond the end of its month. -/
def excessOf (d : Date) : Int :=
  let isLeap := d.year % 4 == 0 && (d.year % 100 != 0 || d.year % 400 == 0)
  let length : Int :=
    if d.month = 2 then (if isLeap then 29 else 28) else if [4, 6, 9, 11].contains d.month then 30 else 31
  max 0 (d.day - length)

/-- Reads the digits of a year of this width, of a month and of a day. -/
def date? (width : Nat) (leastMonth mostMonth leastDay mostDay : Nat) (cs : List Char) : Option (Date × List Char) := do
  let (year, cs) ← digits? width 0 14712 cs
  let (month, cs) ← digits? 2 leastMonth mostMonth (← after? '-' cs)
  let (day, cs) ← digits? 2 leastDay mostDay (← after? '-' cs)
  return (⟨year, month, day⟩, cs)

/-- Reads a date, which a time of day may follow. -/
def dateTime? (cs : List Char) : Option Moment := do
  let isNegative := cs.head? = some '-'
  let (d, rest) ← date? 4 1 12 1 31 (if isNegative then cs.tail else cs)
  let rest := rest.dropWhile fun c => Numeral.isBlank c || c = 'T'
  let m ← match time? rest with
    | some m => some m
    | none => if rest.isEmpty then some {} else none
  let d := { d with year := if isNegative then -d.year else d.year }
  let m := { m with date := some d, excess := excessOf d }
  if m.zone = 0 then return m else m.counted

/-- The moment that it is. -/
def now : Moment := { count := some (epoch + 946684800000) }

/-- A number as a moment: it counts days, as far as there are so many. -/
def ofNumber (x : Float) : Moment :=
  let count := if 0 ≤ x && x < 5373484.5 then some (Decimal.truncate (x * 86400000 + 0.5)) else none
  { number := some x, count }

/-- The number that a text spells from its start to its end. -/
def number? (cs : List Char) : Option Float := (spelledNumber? (String.ofList cs)).map Value.toFloat

def isWord (words : List String) (cs : List Char) : Bool := words.any (sameName (String.ofList cs))

/-- Reads a moment from a text. -/
def ofText? (cs : List Char) : Option Moment :=
  (dateTime? cs).orElse fun _ => (time? cs).orElse fun _ =>
    if isWord ["now"] cs then some now
    else
      match number? cs with
      | some x => some (ofNumber x)
      | none => if isWord ["subsec", "subsecond"] cs then some { now with showsFractions := true } else none

def ofValue? : Value → Option Moment
  | .null => none
  | .integer n => some (ofNumber (.ofInt n))
  | .real x => some (ofNumber x)
  | v => ofText? (Directive.textOf v)

/-! ## Changing -/

/-- Months and years that are too many or too few, put right. -/
def addMonths (d : Date) (years months : Int) : Date :=
  let month := d.month + months
  let carry := if 0 < month then (month - 1) / 12 else -((12 - month) / 12)
  { d with year := d.year + years + carry, month := month - carry * 12 }

/-- Moves a moment by whole years and months. -/
def moveMonths (m : Moment) (years months : Int) : Option Moment := do
  let m ← m.complete
  let d := addMonths (m.date.getD ⟨2000, 1, 1⟩) years months
  return { m with count := none, date := some d, excess := excessOf d }

/-- Units of time: their lengths in seconds, and the bounds of how many can be added. -/
def units : List (String × Float × Float) :=
  [("second", 1, 4.6427e+14), ("minute", 60, 7.7379e+12), ("hour", 3600, 1.2897e+11), ("day", 86400, 5373485),
    ("month", 2592000, 176546), ("year", 31536000, 14713)]

/-- Moves a moment by so many units. Whole months and years follow the calendar. -/
def moveUnits (m : Moment) (x : Float) (name : List Char) : Option Moment := do
  let length := name.length
  if length < 3 ∨ 10 < length then none
  let name := if name.getLast?.any fun c => c = 's' || c = 'S' then name.dropLast else name
  let m ← m.counted
  let (unit, seconds, bound) ← units.find? fun (unit, _, _) => isWord [unit] name
  if !(-bound < x && x < bound) then none
  let m := { m with excess := 0 }
  let half : Float := if x < 0 then -0.5 else 0.5
  let whole := Decimal.truncate x
  let rest := x - .ofInt whole
  let by_ (m : Moment) (x : Float) : Option Moment := m.shift (Decimal.truncate (x * 1000 * seconds + half))
  if unit = "month" then by_ (← m.moveMonths 0 whole) rest
  else if unit = "year" then by_ (← m.moveMonths whole 0) rest
  else by_ m x

/-- Moves a moment by a time of day, forwards or backwards. -/
def moveTime (m : Moment) (isBack : Bool) (cs : List Char) : Option Moment := do
  let t ← (← time? cs).counted
  let n := ((t.count.getD 0) - dayLength / 2).tmod dayLength
  m.shift (if isBack then -n else n)

/-- Moves a moment by years, months and days, and by a time of day if one follows. -/
def moveDate (m : Moment) (isBack : Bool) (width : Nat) (cs : List Char) : Option Moment := do
  let (d, rest) ← date? width 0 11 0 30 cs
  let sign : Int := if isBack then -1 else 1
  let moved ← (← m.moveMonths (sign * d.year) (sign * d.month)).shift (sign * d.day * dayLength)
  match rest with
  | [] => return moved
  | c :: rest =>
    if !Numeral.isBlank c then none
    let _ ← hours? 24 rest
    moved.moveTime isBack rest

/-- Moves a moment by an amount that begins with a sign or a digit. -/
def move (m : Moment) (cs : List Char) : Option Moment := do
  let first ← cs.head?
  let isSigned := first = '+' || first = '-'
  let isBack := first = '-'
  let unsigned := if isSigned then cs.tail else cs
  let isYear (width : Nat) : Bool := (digits? width 0 14712 cs.tail).any fun (_, rest) => rest.head? == some '-'
  if isSigned && isYear 4 then m.moveDate isBack 4 cs.tail
  else if isSigned && isYear 5 then m.moveDate isBack 5 cs.tail
  else
    let number := first :: cs.tail.takeWhile fun c => c != ':' && !Numeral.isBlank c
    let rest := cs.drop number.length
    let x ← number? number
    if rest.head? = some ':' then m.moveTime isBack unsigned else m.moveUnits x (skipBlanks rest)

/-- Moves a moment to the next day with this number in the week, if it is not there. -/
def moveToWeekday (m : Moment) (cs : List Char) : Option Moment := do
  let x ← number? cs
  let n := Decimal.truncate x
  if !(0 ≤ x && x < 7 && Float.ofInt n == x) then none
  let m ← m.complete
  let m ← { m with count := none, zone := 0 }.counted
  let day := (((m.count.getD 0) + dayLength * 3 / 2) / dayLength) % 7
  m.shift ((n - if n < day then day - 7 else day) * dayLength)

/-- Moves a moment back to the start of a unit. -/
def moveToStart (m : Moment) (unit : List Char) : Option Moment := do
  if m.count.isNone && m.date.isNone && m.time.isNone then none
  let m ← m.dated
  let d := m.date.getD ⟨2000, 1, 1⟩
  let start (d : Date) : Moment := { m with count := none, date := some d, time := some ⟨0, 0, 0⟩, zone := 0, number := none }
  if isWord ["day"] unit then return start d
  if isWord ["month"] unit then return start { d with day := 1 }
  if isWord ["year"] unit then return start { d with month := 1, day := 1 }
  none

/-- Seconds since the epoch as a moment. -/
def ofSeconds (m : Moment) (x : Float) : Moment :=
  { m.atCount (Decimal.truncate (x * 1000 + .ofInt epoch + 0.5)) with number := none }

/-- Says what a number counts. Only the first word after it can. -/
def settle (m : Moment) (place : Nat) (word : String) : Option Moment := do
  if place ≠ 1 then none
  match word, m.number with
  | "auto", none => return m
  | "auto", some x =>
    if m.count.isSome then return { m with number := none }
    if -210866760000 ≤ x && x ≤ 253402300799 then return m.ofSeconds x else none
  | "julianday", some _ => if m.count.isSome then return { m with number := none } else none
  | "unixepoch", some x =>
    let n := x * 1000 + .ofInt epoch
    if 0 ≤ n && n < 464269060800000 then return m.ofSeconds x else none
  | _, _ => none

/-- Changes a moment as a word says that stands at this place. -/
def change (m : Moment) (place : Nat) (cs : List Char) : Option Moment := do
  let word := (String.ofList cs).toLower
  match word with
  | "auto" | "julianday" | "unixepoch" => m.settle place word
  | "localtime" | "utc" => m.counted
  | "ceiling" =>
    let m ← m.shift 0
    return { m with excess := 0 }
  | "floor" => m.shift (-m.excess * dayLength)
  | "subsec" | "subsecond" => return { m with showsFractions := true }
  | _ =>
    if word.startsWith "weekday " then m.moveToWeekday (cs.drop 8)
    else if word.startsWith "start of " then m.moveToStart (cs.drop 9)
    else if (cs.head?).any fun c => c = '+' || c = '-' || c.isDigit then m.move cs
    else none

def changeAll (m : Moment) : Nat → List Value → Option Moment
  | _, [] => some m
  | place, v :: vs => do
    if v = .null then none
    (← m.change place (Directive.textOf v)).changeAll (place + 1) vs

/-- The moment that arguments tell, with its count. -/
def ofValues (vs : List Value) : Option Moment := do
  let m ← match vs with
    | [] => some now
    | v :: vs => (← ofValue? v).changeAll 1 vs
  let m ← m.counted
  if !isValid (m.count.getD 0) then none
  let isLate := m.date.any fun d => 28 < d.day
  return if vs.length = 1 && isLate then { m with date := none } else m

/-! ## Showing -/

def padded (fill : Char) (width : Nat) (n : Int) : String :=
  let digits := toString n.natAbs
  let sign := if n < 0 then "-" else ""
  sign ++ String.ofList (List.replicate (width - sign.length - digits.length) fill) ++ digits

def zeros (width : Nat) (n : Int) : String := padded '0' width n

/-- A count, with its date and its time of day. -/
structure Shown where
  count : Int
  date : Date
  time : TimeOfDay
  showsFractions : Bool

def shown? (m : Moment) : Option Shown := do
  let m ← m.complete
  return ⟨← m.count, ← m.date, ← m.time, m.showsFractions⟩

namespace Shown

/-- Seconds with three digits after the point. -/
def preciseSeconds (x : Float) : String :=
  String.ofList (({ zeros := true, width := 6, precision := some 3 } : Directive).real .plain 'e' x)

def secondsText (s : Shown) : String :=
  if s.showsFractions then preciseSeconds s.time.second else zeros 2 (Decimal.truncate s.time.second)

def dateText (s : Shown) : String :=
  (if s.date.year < 0 then "-" else "") ++ zeros 4 s.date.year.natAbs ++ "-" ++ zeros 2 s.date.month ++ "-"
    ++ zeros 2 s.date.day

def minutesText (s : Shown) : String := zeros 2 s.time.hour ++ ":" ++ zeros 2 s.time.minute

def timeText (s : Shown) : String := s.minutesText ++ ":" ++ s.secondsText

/-- The days since the first of January. -/
def dayOfYear (s : Shown) : Int :=
  let start := (countOf ⟨s.date.year, 1, 1⟩).getD 0
  (s.count - (start + (s.count + dayLength / 2) % dayLength) + dayLength / 2) / dayLength

/-- The days since the last Monday. -/
def sinceMonday (s : Shown) : Int := (s.count + dayLength / 2) / dayLength % 7

/-- The days since the last Sunday. -/
def sinceSunday (s : Shown) : Int := (s.count + dayLength * 3 / 2) / dayLength % 7

/-- The Thursday of the same week, whose year the week belongs to. -/
def thursday (s : Shown) : Shown :=
  let count := s.count + (3 - s.sinceMonday) * dayLength
  { s with count, date := dateOf count }

def julianDay (s : Shown) : Float := .ofInt s.count / 86400000

def seconds (s : Shown) : Value :=
  if s.showsFractions then .real (.ofInt (s.count - epoch) / 1000) else .integer (s.count / 1000 - epoch / 1000)

/-- The hour on a clock of twelve hours. -/
def shortHour (s : Shown) : Int := if s.time.hour % 12 = 0 then 12 else s.time.hour % 12

def field? (s : Shown) : Char → Option String
  | 'd' => some (zeros 2 s.date.day)
  | 'e' => some (padded ' ' 2 s.date.day)
  | 'f' => some (preciseSeconds (if 59.999 < s.time.second then 59.999 else s.time.second))
  | 'F' => some (zeros 4 s.date.year ++ "-" ++ zeros 2 s.date.month ++ "-" ++ zeros 2 s.date.day)
  | 'g' => some (zeros 2 (s.thursday.date.year.tmod 100))
  | 'G' => some (zeros 4 s.thursday.date.year)
  | 'H' => some (zeros 2 s.time.hour)
  | 'k' => some (padded ' ' 2 s.time.hour)
  | 'I' => some (zeros 2 s.shortHour)
  | 'l' => some (padded ' ' 2 s.shortHour)
  | 'j' => some (zeros 3 (s.dayOfYear + 1))
  | 'J' => some (String.ofList (({ precision := some 16 } : Directive).real .general 'e' s.julianDay))
  | 'm' => some (zeros 2 s.date.month)
  | 'M' => some (zeros 2 s.time.minute)
  | 'p' => some (if 12 ≤ s.time.hour then "PM" else "AM")
  | 'P' => some (if 12 ≤ s.time.hour then "pm" else "am")
  | 'R' => some s.minutesText
  | 's' =>
    match s.seconds with
    | .real x => some (String.ofList (({ precision := some 3 } : Directive).real .plain 'e' x))
    | v => some v.shown
  | 'S' => some (zeros 2 (Decimal.truncate s.time.second))
  | 'T' => some (s.minutesText ++ ":" ++ zeros 2 (Decimal.truncate s.time.second))
  | 'u' => some (toString (if s.sinceSunday = 0 then 7 else s.sinceSunday))
  | 'w' => some (toString s.sinceSunday)
  | 'U' => some (zeros 2 ((s.dayOfYear - s.sinceSunday + 7) / 7))
  | 'V' => some (zeros 2 (s.thursday.dayOfYear / 7 + 1))
  | 'W' => some (zeros 2 ((s.dayOfYear - s.sinceMonday + 7) / 7))
  | 'Y' => some (zeros 4 s.date.year)
  | '%' => some "%"
  | _ => none

/-- Fills the fields of a form, each a percent sign and a letter. A letter that means nothing spoils it. -/
def fill? (s : Shown) : List Char → Option String
  | [] => some ""
  | ['%'] => none
  | '%' :: c :: cs => do return (← s.field? c) ++ (← fill? s cs)
  | c :: cs => do return String.singleton c ++ (← fill? s cs)

end Shown

/-! ## The time between two moments -/

/-- Moves a moment by months as long as it is on the wrong side of another, at most `fuel` times. -/
def approach (isPast : Int → Bool) (step : Int) : (fuel : Nat) → (months : Int) → Date → Moment → Option (Int × Int)
  | 0, _, _, _ => none
  | fuel + 1, months, d, m => do
    let n ← { m with count := none, date := some d }.counted >>= Moment.count
    if isPast n then approach isPast step fuel (months - 1) (addMonths d 0 step) m else return (months, n)

/-- The time from a moment to another, as months and milliseconds. -/
def difference? (later earlier : Moment) : Option (Int × Int) := do
  let later ← later.complete
  let earlier ← earlier.complete
  let a ← later.date
  let b ← earlier.date
  let n ← later.count
  let isNegative := n < (← earlier.count)
  let months := (a.year - b.year) * 12 + a.month - b.month
  let start : Date := { b with year := a.year, month := a.month }
  let (months, reached) ← if isNegative then approach (· < n) 1 64 (-months) start earlier
    else approach (n < ·) (-1) 64 months start earlier
  return (months, if isNegative then reached - n else n - reached)

def differenceText? (later earlier : Moment) : Option String := do
  let later ← later.complete
  let earlier ← earlier.complete
  let (months, rest) ← difference? later earlier
  let s ← ({ count := some (rest + 148699540800000) } : Moment).shown?
  let sign := if (← later.count) < (← earlier.count) then "-" else "+"
  return sign ++ zeros 4 (months / 12) ++ "-" ++ zeros 2 (months % 12) ++ "-" ++ zeros 2 (s.date.day - 1) ++ " "
    ++ s.minutesText ++ ":" ++ Shown.preciseSeconds s.time.second

/-! ## Functions -/

/-- Applies a function of time. -/
def apply (name : String) (arguments : List Value) : Value :=
  let shown (vs : List Value) (f : Shown → Value) : Value := (((ofValues vs).bind shown?).map f).getD .null
  match name, arguments with
  | "current_date", vs | "date", vs => shown vs fun s => .text s.dateText
  | "current_time", vs | "time", vs => shown vs fun s => .text s.timeText
  | "current_timestamp", vs | "datetime", vs => shown vs fun s => .text (s.dateText ++ " " ++ s.timeText)
  | "julianday", vs => shown vs fun s => .real s.julianDay
  | "unixepoch", vs => shown vs Shown.seconds
  | "strftime", form :: vs =>
    if form = .null then .null else shown vs fun s => ((s.fill? (Directive.textOf form)).map Value.text).getD .null
  | "timediff", [v, w] =>
    match ofValues [v], ofValues [w] with
    | some m, some n => ((differenceText? m n).map Value.text).getD .null
    | _, _ => .null
  | _, _ => .null

/-- The functions of time. -/
def functions : List String :=
  ["current_date", "current_time", "current_timestamp", "date", "datetime", "julianday", "strftime", "time", "timediff",
    "unixepoch"]

end Moment

end SchemaEditor.Store
