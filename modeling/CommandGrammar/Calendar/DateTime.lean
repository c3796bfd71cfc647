import CommandGrammar.Calendar.Date
import CommandGrammar.Calendar.Time
import CommandGrammar.Duration
import CommandGrammar.Text.Blank

/-!
# Local date-times

A date and a time of day without zone. Text in one of a few forms is read field by field; a form
without a date means the given day, one without a time means midnight.
-/

namespace CommandGrammar

structure DateTime where
  date : Date
  time : TimeOfDay
  deriving DecidableEq, Repr

namespace DateTime

/-- The text with the time after a given separator. -/
def textWith (sep : String) (dt : DateTime) : String :=
  dt.date.text ++ sep ++ dt.time.text

def text (dt : DateTime) : String :=
  dt.textWith "T"

/-- Date, separator and time without the fraction of a second. -/
def clockText (sep : String) (dt : DateTime) : String :=
  dt.date.text ++ sep ++ dt.time.clockText

def wholeSeconds (dt : DateTime) : DateTime :=
  { dt with time := dt.time.wholeSeconds }

/-- The date-time after a duration, if it is in the calendar's range. -/
def add? (dt : DateTime) (d : Duration) : Option DateTime := do
  let dayLength : Int := 86400 * Int.pow 10 9
  let total := dt.date.dayNumber * dayLength + dt.time.toNanos + d.nanos
  let date ← Date.ofDayNumber? (total / dayLength)
  let time ← TimeOfDay.ofNanos? (total % dayLength).toNat
  return ⟨date, time⟩

/-- A part of a written date-time. -/
inductive Field where
  | year
  | month
  | day
  | hour
  | minute
  | second
  | fraction
  | mark (c : Char)
  deriving DecidableEq, Repr

/-- The numbers read so far. -/
structure Parts where
  year : Int := 0
  month : Nat := 0
  day : Nat := 0
  hour : Nat := 0
  minute : Nat := 0
  second : Nat := 0
  nano : Nat := 0

/-- Between one and `width` digits. -/
def digits (width : Nat) (cs : List Char) : Option (Nat × List Char) :=
  let ds := (cs.take width).takeWhile Char.isDigit
  (Numeral.natural 10 ds).map fun n => (n, cs.drop ds.length)

/-- A year: up to four digits, or any number of them after a sign. -/
def readYear (cs : List Char) : Option (Int × List Char) :=
  match cs with
  | '-' :: rest => (digits rest.length rest).map fun (n, rest) => (-(n : Int), rest)
  | '+' :: rest => (digits rest.length rest).map fun (n, rest) => ((n : Int), rest)
  | _ => (digits 4 cs).map fun (n, rest) => ((n : Int), rest)

/-- The digits after a point as nanoseconds: the first nine count, the others are passed over. -/
def readFraction (cs : List Char) : Option (Nat × List Char) :=
  let ds := (cs.take 9).takeWhile Char.isDigit
  (Numeral.natural 10 ds).map fun n =>
    (n * Nat.pow 10 (9 - ds.length), (cs.drop ds.length).dropWhile Char.isDigit)

/-- One field read from the start of a text. Blanks before a number do not count. -/
def readField (p : Parts) (cs : List Char) : Field → Option (Parts × List Char)
  | .year => (readYear (Text.trimStart cs)).map fun (n, rest) => ({ p with year := n }, rest)
  | .month => (digits 2 (Text.trimStart cs)).map fun (n, rest) => ({ p with month := n }, rest)
  | .day => (digits 2 (Text.trimStart cs)).map fun (n, rest) => ({ p with day := n }, rest)
  | .hour => (digits 2 (Text.trimStart cs)).map fun (n, rest) => ({ p with hour := n }, rest)
  | .minute => (digits 2 (Text.trimStart cs)).map fun (n, rest) => ({ p with minute := n }, rest)
  | .second => (digits 2 (Text.trimStart cs)).map fun (n, rest) => ({ p with second := n }, rest)
  | .fraction =>
    match cs with
    | '.' :: rest => (readFraction rest).map fun (n, rest) => ({ p with nano := n }, rest)
    | _ => some (p, cs)
  | .mark c =>
    match cs with
    | d :: rest => if d = c then some (p, rest) else none
    | [] => none

/-- Fields read one after the other up to the end of a text. -/
def readFields (p : Parts) : List Field → List Char → Option Parts
  | [], [] => some p
  | [], _ :: _ => none
  | f :: fs, cs => (readField p cs f).bind fun (p, rest) => readFields p fs rest

def dateForm : List Field := [.year, .mark '-', .month, .mark '-', .day]

/-- The fields of a time with seconds. -/
def clockForm : List Field := [.hour, .mark ':', .minute, .mark ':', .second, .fraction]

def minuteForm : List Field := [.hour, .mark ':', .minute]

def Parts.date? (p : Parts) : Option Date :=
  Date.of? p.year p.month p.day

def Parts.time? (p : Parts) : Option TimeOfDay :=
  TimeOfDay.of? p.hour p.minute p.second p.nano

def readBoth (form : List Field) (cs : List Char) : Option DateTime := do
  let p ← readFields {} form cs
  return ⟨← p.date?, ← p.time?⟩

def readTime (form : List Field) (cs : List Char) : Option TimeOfDay := do
  let p ← readFields {} form cs
  p.time?

def readDate (cs : List Char) : Option Date := do
  let p ← readFields {} dateForm cs
  p.date?

def readFull (cs : List Char) : Option DateTime :=
  (readBoth (dateForm ++ .mark 'T' :: clockForm) cs).or
    (readBoth (dateForm ++ .mark 'T' :: minuteForm) cs)

def readClock (cs : List Char) : Option TimeOfDay :=
  (readTime clockForm cs).or (readTime minuteForm cs)

/-- The date-time a text stands for: a full one, else a time of the given day, else the midnight
of a date. -/
def ofString? (today : Date) (s : String) : Option DateTime :=
  let cs := s.toList
  (readFull cs).or <|
    ((readClock cs).map fun t => ⟨today, t⟩).or <|
      (readDate cs).map fun d => ⟨d, .midnight⟩

end DateTime

end CommandGrammar
