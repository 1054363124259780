import HostSurvey.Calendar.Instant
import HostSurvey.Number.Reading
import HostSurvey.Text.Pieces

/-!
# Reading instants

Instants are read from the form of RFC 3339, leniently: blanks may stand before every number, dash
and colon of the date and time and before the offset; numbers may be shorter than usual; a space or
a `t` may stand for the `T`, and a `z` or the word `UTC` for the `Z`; the colon of the offset may be
missing. Of the fraction of a second nine digits count.
-/

namespace HostSurvey.Instant

open Text Number

/-- A number of one to `width` digits, with blanks in front, and what follows it. -/
def readNumber? (width : Nat) (cs : List Char) : Option (Nat × List Char) :=
  let body := trimStart cs
  let digits := (body.take width).takeWhile Char.isDigit
  if digits = [] then none else some (natOfDigits digits, body.drop digits.length)

/-- A year: four digits at most, or any number of them after a sign. -/
def readYear? (cs : List Char) : Option (Int × List Char) :=
  match trimStart cs with
  | '-' :: rest =>
    let digits := rest.takeWhile Char.isDigit
    if digits = [] then none
    else some (-(natOfDigits digits : Int), rest.dropWhile Char.isDigit)
  | '+' :: rest =>
    let digits := rest.takeWhile Char.isDigit
    if digits = [] then none else some (natOfDigits digits, rest.dropWhile Char.isDigit)
  | body => (readNumber? 4 body).map fun (n, rest) => (n, rest)

/-- What follows a mark, with blanks in front of it. -/
def afterMark? (mark : Char) (cs : List Char) : Option (List Char) := after? [mark] (trimStart cs)

/-- The nanoseconds of the fraction of a second, if there is one, and what follows. -/
def readFraction? : List Char → Option (Nat × List Char)
  | '.' :: cs =>
    let digits := cs.takeWhile Char.isDigit
    if digits = [] then none
    else
      let kept := digits.take 9
      let zeros := List.replicate (9 - kept.length) '0'
      some (natOfDigits (kept ++ zeros), cs.dropWhile Char.isDigit)
  | cs => some (0, cs)

/-- Two digits, the first of which is at most `high`, and what follows them. -/
def readPair? (high : Char) : List Char → Option (Nat × List Char)
  | a :: b :: rest =>
    if a.isDigit ∧ b.isDigit ∧ a ≤ high then some (natOfDigits [a, b], rest) else none
  | _ => none

/-- The distance from UTC in seconds, and what follows it. -/
def readOffset? (cs : List Char) : Option (Int × List Char) :=
  match cs with
  | 'z' :: rest => some (0, rest)
  | 'Z' :: rest => some (0, rest)
  | sign :: rest =>
    if (cs.take 3).map Char.toLower = ['u', 't', 'c'] then some (0, cs.drop 3)
    else if sign = '+' ∨ sign = '-' ∨ sign = '\u2212' then do
      let (hours, rest) ← readPair? '9' rest
      let (minutes, rest) ← readPair? '5' (rest.dropWhile fun c => c = ':' || isBlank c)
      let seconds : Int := hours * 3600 + minutes * 60
      some (if sign = '+' then seconds else -seconds, rest)
    else none
  | [] => none

def ofText? (cs : List Char) : Option Instant := do
  let (year, cs) ← readYear? cs
  let (month, cs) ← readNumber? 2 (← afterMark? '-' cs)
  let (day, cs) ← readNumber? 2 (← afterMark? '-' cs)
  let cs ← match cs with
    | c :: rest => if c = 't' ∨ c = 'T' ∨ c = ' ' then some rest else none
    | [] => none
  let (hour, cs) ← readNumber? 2 cs
  let (minute, cs) ← readNumber? 2 (← afterMark? ':' cs)
  let (second, cs) ← readNumber? 2 (← afterMark? ':' cs)
  let (nanosecond, cs) ← readFraction? cs
  let (offset, cs) ← readOffset? (trimStart cs)
  if trimStart cs = [] ∧ isDate year month day ∧ hour ≤ 23 ∧ minute ≤ 59 ∧ second ≤ 60 ∧
      offset.natAbs < 86400 then
    atOffset? { year, month, day, hour, minute, second, nanosecond } offset
  else none

end HostSurvey.Instant
