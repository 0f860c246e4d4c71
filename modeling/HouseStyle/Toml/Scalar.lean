import HouseStyle.Decimal
import HouseStyle.Toml.Scanner
import HouseStyle.Toml.Value

/-!
# Numbers, truth values and times in TOML

What is not quoted and not in brackets is one run of characters, which is read as a whole.

* `integer?`, `float?`, `datetime?`: the readings of a run.
* `scalar?`: the value of a run.
-/

namespace HouseStyle.Toml

/-! ## Numbers -/

/-- The digits of a text in which each underscore stands between two digits. -/
def digitsFrom (isDigit : Char → Bool) : List Char → Option (List Char)
  | [] => some []
  | [c] => if isDigit c then some [c] else none
  | c :: d :: rest =>
    if !isDigit c then none
    else if d = '_' then
      if rest.head?.any isDigit then (digitsFrom isDigit rest).map (c :: ·) else none
    else (digitsFrom isDigit (d :: rest)).map (c :: ·)

/-- The digits of a text that has at least one. -/
def digitsOf? (isDigit : Char → Bool) (text : List Char) : Option (List Char) :=
  if text.isEmpty then none else digitsFrom isDigit text

/-- The number that digits of a base denote. -/
def numberOf (base : Nat) (digits : List Char) : Nat :=
  digits.foldl (fun n c => base * n + (hexValue? c).getD 0) 0

/-- Whether a character is a digit of a base. -/
def isDigitOf (base : Nat) (c : Char) : Bool :=
  match hexValue? c with
  | some d => d < base
  | none => false

/-- Whether a number fits into 64 bits with a sign. -/
def isInRange (n : Int) : Bool := -9223372036854775808 ≤ n && n ≤ 9223372036854775807

/-- The sign in front of a run, true for a minus, and the rest of the run. -/
def signed : List Char → Bool × List Char
  | '-' :: rest => (true, rest)
  | '+' :: rest => (false, rest)
  | text => (false, text)

/-- Whether decimal digits are written without needless zeros in front. -/
def isPlainDecimal (digits : List Char) : Bool := digits.head? != some '0' || digits.length == 1

/-- The integer that a run of digits in a base denotes. -/
def basedInteger? (base : Nat) (digits : List Char) : Option Int :=
  match digitsOf? (isDigitOf base) digits with
  | some digits => some (numberOf base digits)
  | none => none

/-- The integer that a run denotes. -/
def integer? (text : List Char) : Option Int :=
  let n : Option Int := match text with
    | '0' :: 'x' :: digits => basedInteger? 16 digits
    | '0' :: 'o' :: digits => basedInteger? 8 digits
    | '0' :: 'b' :: digits => basedInteger? 2 digits
    | _ =>
      let (negative, digits) := signed text
      match digitsOf? Char.isDigit digits with
      | some digits =>
        if isPlainDecimal digits then
          some (if negative then -(numberOf 10 digits : Int) else numberOf 10 digits)
        else none
      | none => none
  n.filter isInRange

/-- The text of a float with the sign and the decimal number that are written: the fewest digits
that stand for the same binary number. A number that is too great is infinite if it is negative and
refused otherwise. -/
def floatText? (negative : Bool) (written : Decimal) : Option String :=
  match Binary.ofDecimal? written with
  | some number => some ((if negative then "-" else "") ++ number.shortest.text)
  | none => if negative then some "-inf" else none

/-- The exponent that follows the digits of a float; zero if there is none. -/
def exponent? : List Char → Option Int
  | [] => some 0
  | _ :: text =>
    let (negative, digits) := signed text
    match digitsOf? Char.isDigit digits with
    | some digits => some (if negative then -(numberOf 10 digits : Int) else numberOf 10 digits)
    | none => none

/-- The text of the float that a run denotes. -/
def float? (text : List Char) : Option String :=
  let (negative, rest) := signed text
  if rest = "inf".toList then some (if negative then "-inf" else "inf")
  else if rest = "nan".toList then some "NaN"
  else
    let isExponent := fun c => c == 'e' || c == 'E'
    let mantissa := rest.takeWhile fun c => !isExponent c
    let whole := mantissa.takeWhile (· != '.')
    let fraction := mantissa.drop whole.length
    if fraction.isEmpty && mantissa.length == rest.length then none
    else
      match digitsOf? Char.isDigit whole, exponent? (rest.drop mantissa.length) with
      | some whole, some e =>
        let decimals :=
          if fraction.isEmpty then some [] else digitsOf? Char.isDigit (fraction.drop 1)
        match decimals with
        | some decimals =>
          if isPlainDecimal whole then
            floatText? negative ⟨numberOf 10 (whole ++ decimals), e - decimals.length⟩
          else none
        | none => none
      | _, _ => none

/-! ## Dates and times -/

/-- The number that a given count of digits at the start of a text denotes, within bounds. -/
def fixedNumber (count low high : Nat) (text : List Char) : Option (List Char × List Char) :=
  let digits := text.take count
  if digits.length = count && digits.all Char.isDigit && low ≤ numberOf 10 digits &&
      numberOf 10 digits ≤ high then some (digits, text.drop count)
  else none

/-- The text behind a character. -/
def expect (c : Char) : List Char → Option (List Char)
  | d :: rest => if d = c then some rest else none
  | [] => none

/-- The number of days of a month. -/
def daysOf (year month : Nat) : Nat :=
  if month = 2 then
    if year % 4 = 0 && (year % 100 != 0 || year % 400 == 0) then 29 else 28
  else if month = 4 || month = 6 || month = 9 || month = 11 then 30
  else 31

/-- A date at the start of a text. -/
def date? (text : List Char) : Option (List Char × List Char) := do
  let (year, rest) ← fixedNumber 4 0 9999 text
  let (month, rest) ← fixedNumber 2 1 12 (← expect '-' rest)
  let (day, rest) ← fixedNumber 2 1 (daysOf (numberOf 10 year) (numberOf 10 month))
    (← expect '-' rest)
  some (year ++ '-' :: month ++ '-' :: day, rest)

/-- The fraction of a second at the start of a text, nine digits at most, without zeros at its
end. -/
def fraction? : List Char → Option (List Char × List Char)
  | '.' :: rest =>
    let digits := rest.takeWhile Char.isDigit
    if digits.isEmpty then none
    else
      let shown := ((digits.take 9).reverse.dropWhile (· == '0')).reverse
      some (if shown.isEmpty then [] else '.' :: shown, rest.drop digits.length)
  | text => some ([], text)

/-- A time at the start of a text. -/
def time? (text : List Char) : Option (List Char × List Char) := do
  let (hour, rest) ← fixedNumber 2 0 23 text
  let (minute, rest) ← fixedNumber 2 0 59 (← expect ':' rest)
  let (second, rest) ← fixedNumber 2 0 60 (← expect ':' rest)
  let (fraction, rest) ← fraction? rest
  some (hour ++ ':' :: minute ++ ':' :: second ++ fraction, rest)

/-- The distance from universal time at the end of a text, if it is given. A distance of zero has a
plus. -/
def offset? : List Char → Option (List Char)
  | [] => some []
  | ['Z'] => some ['Z']
  | ['z'] => some ['Z']
  | sign :: rest =>
    if sign = '+' || sign = '-' then do
      let (hour, rest) ← fixedNumber 2 0 23 rest
      let (minute, rest) ← fixedNumber 2 0 59 (← expect ':' rest)
      let isZero := numberOf 10 (hour ++ minute) = 0
      if rest.isEmpty then some ((if isZero then '+' else sign) :: hour ++ ':' :: minute) else none
    else none

/-- The date, time, or both that a run denotes, as text. -/
def datetime? (text : List Char) : Option String :=
  match date? text with
  | some (date, []) => some (String.ofList date)
  | some (date, separator :: rest) =>
    if separator = 'T' || separator = 't' || separator = ' ' then do
      let (time, rest) ← time? rest
      let offset ← offset? rest
      some (String.ofList (date ++ 'T' :: time ++ offset))
    else none
  | none =>
    match time? text with
    | some (time, []) => some (String.ofList time)
    | _ => none

/-! ## Runs -/

/-- Whether a character may stand in a number, a truth value or a time. -/
def isScalarChar (c : Char) : Bool :=
  c.isAlphanum || c == '+' || c == '-' || c == '_' || c == '.' || c == ':'

/-- The run of characters at the start of a text and the text behind it. A time one space behind a
date belongs to the run. -/
def scalarRun (text : List Char) : List Char × List Char :=
  let run := text.takeWhile isScalarChar
  let rest := text.dropWhile isScalarChar
  match date? run, rest with
  | some (_, []), ' ' :: behind =>
    if behind.head?.any Char.isDigit then
      (run ++ ' ' :: behind.takeWhile isScalarChar, behind.dropWhile isScalarChar)
    else (run, rest)
  | _, _ => (run, rest)

/-- The value of a run. -/
def scalar? (run : List Char) : Option Value :=
  if run = "true".toList then some (.boolean true)
  else if run = "false".toList then some (.boolean false)
  else
    match integer? run, float? run, datetime? run with
    | some n, _, _ => some (.integer n)
    | none, some text, _ => some (.float text)
    | none, none, some text => some (.datetime text)
    | none, none, none => none

end HouseStyle.Toml
