import Syndication.Time.Timestamp
import Syndication.Text.Blank
import Syndication.Text.Ascii
import Syndication.Text.Numeral
import Syndication.Text.Search
import Syndication.Json.Record

namespace Syndication.Timestamp

/-- The year with four digits at least, and with a sign when it lies outside 0 to 9999. -/
def yearText (year : Int) : List Char :=
  if 0 ≤ year ∧ year ≤ 9999 then Text.fixedDecimal 4 year.toNat
  else (if year < 0 then '-' else '+') :: Text.paddedDecimal 4 year.natAbs

/-- The shortest exact fraction of a second among those of zero, three, six and nine digits. -/
def fractionText (nanos : Nat) : List Char :=
  if nanos = 0 then []
  else if nanos % 1000000 = 0 then '.' :: Text.fixedDecimal 3 (nanos / 1000000)
  else if nanos % 1000 = 0 then '.' :: Text.fixedDecimal 6 (nanos / 1000)
  else '.' :: Text.fixedDecimal 9 nanos

def print (t : Timestamp) : List Char :=
  let date := CivilDate.ofDays (t.seconds / 86400)
  let time := t.secondOfDay.toNat
  let second := if t.inLeapSecond then time % 60 + 1 else time % 60
  let nanos := if t.inLeapSecond then t.nanos - nanosPerSecond else t.nanos
  yearText date.year ++ '-' :: (Text.fixedDecimal 2 date.month ++ '-' ::
    (Text.fixedDecimal 2 date.day ++ 'T' :: (Text.fixedDecimal 2 (time / 3600) ++ ':' ::
      (Text.fixedDecimal 2 (time / 60 % 60) ++ ':' :: (Text.fixedDecimal 2 second ++
        (fractionText nanos ++ ['Z']))))))

def text (t : Timestamp) : String := .ofList t.print

/-- A number of one digit to `most` digits, after blanks. -/
def readNumber (most : Nat) (cs : List Char) : Option (Nat × List Char) :=
  let cs := Text.dropBlank cs
  let digits := (cs.take most).takeWhile Text.isDigit
  if digits.isEmpty then none else some (Text.ofDigits digits, cs.drop digits.length)

/-- A year of up to four digits, or a sign and any number of digits. -/
def readYear (cs : List Char) : Option (Int × List Char) :=
  match Text.dropBlank cs with
  | '-' :: rest => signed (-1) rest
  | '+' :: rest => signed 1 rest
  | rest => (readNumber 4 rest).map fun (n, rest) => (n, rest)
where
  signed (sign : Int) (cs : List Char) : Option (Int × List Char) :=
    let digits := cs.takeWhile Text.isDigit
    if digits.isEmpty then none else some (sign * Text.ofDigits digits, cs.drop digits.length)

/-- The mark, after blanks. -/
def readMark (mark : Char) (cs : List Char) : Option (List Char) :=
  match Text.dropBlank cs with
  | c :: rest => if c = mark then some rest else none
  | [] => none

/-- Nanoseconds after a point; digits beyond the ninth are dropped. -/
def readFraction : List Char → Option (Nat × List Char)
  | '.' :: cs =>
    let digits := cs.takeWhile Text.isDigit
    if digits.isEmpty then none
    else
      let nine := (digits ++ List.replicate 9 '0').take 9
      some (Text.ofDigits nine, cs.drop digits.length)
  | cs => some (0, cs)

/-- The offset from universal time in seconds: a letter Z, the letters UTC, or a sign with hours
and minutes of two digits each. Colons and blanks between hours and minutes do not count. -/
def readOffset (cs : List Char) : Option (Int × List Char) :=
  match Text.afterMark? "utc".toList ((cs.take 3).map Char.toLower) with
  | some _ => some (0, cs.drop 3)
  | none =>
    match cs with
    | c :: rest =>
      if c = 'Z' ∨ c = 'z' then some (0, rest)
      else if c = '+' then clock 1 rest
      else if c = '-' ∨ c = '\u2212' then clock (-1) rest
      else none
    | [] => none
where
  clock (sign : Int) (cs : List Char) : Option (Int × List Char) := do
    let (hours, cs) ← twoDigits cs
    let (minutes, cs) ← twoDigits (cs.dropWhile fun c => c == ':' || Text.isBlank c)
    if hours < 24 ∧ minutes < 60 then some (sign * (hours * 3600 + minutes * 60), cs) else none
  twoDigits : List Char → Option (Nat × List Char)
    | a :: b :: rest =>
      if Text.isDigit a && Text.isDigit b then some (Text.ofDigits [a, b], rest) else none
    | _ => none

/-- The calendar date at the head of a text. -/
def readDate (cs : List Char) : Option (CivilDate × List Char) := do
  let (year, cs) ← readYear cs
  let (month, cs) ← readNumber 2 (← readMark '-' cs)
  let (day, cs) ← readNumber 2 (← readMark '-' cs)
  let date : CivilDate := ⟨year, month, day⟩
  if date.Exists then some (date, cs) else none

/-- The second of the day and the nanoseconds on top of it. -/
def readTime (cs : List Char) : Option ((Nat × Nat) × List Char) := do
  let (hour, cs) ← readNumber 2 cs
  let (minute, cs) ← readNumber 2 (← readMark ':' cs)
  let (second, cs) ← readNumber 2 (← readMark ':' cs)
  let (nanos, cs) ← readFraction cs
  if hour < 24 ∧ minute < 60 ∧ second ≤ 60 then
    let minutes := hour * 60 + minute
    if second = 60 then some ((minutes * 60 + 59, nanos + nanosPerSecond), cs)
    else some ((minutes * 60 + second, nanos), cs)
  else none

def ofChars? (cs : List Char) : Option Timestamp := do
  let (date, cs) ← readDate cs
  match cs with
  | c :: cs =>
    if c = 'T' ∨ c = 't' ∨ c = ' ' then do
      let ((second, nanos), cs) ← readTime cs
      let (offset, cs) ← readOffset (Text.dropBlank cs)
      if (Text.dropBlank cs).isEmpty then
        let clock := date.toDays * 86400 + second
        -- the local time has to lie in the calendar as well
        let _ ← of? clock nanos
        of? (clock - offset) nanos
      else none
    else none
  | [] => none

/-- The time that a text denotes. -/
def ofText? (s : String) : Option Timestamp := ofChars? s.toList

def toJson (t : Timestamp) : Json := .str t.text

def ofJson? (json : Json) : Option Timestamp := json.str?.bind ofText?

end Syndication.Timestamp
