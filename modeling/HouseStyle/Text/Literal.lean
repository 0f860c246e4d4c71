/-!
# Literals within a line

String and character literals of one line. Quotes of either kind open a literal, the same quote
closes it, and a backslash inside takes the next character with it. What is outside literals is
*code*.

* `mark`: each character of a line with the answer whether it is code.
* `cutBeforeArrow`: the pieces between the commas in front of the first arrow, code alone counting.
-/

namespace HouseStyle.Text

/-- Whether a character opens a string or character literal. -/
def isQuote (c : Char) : Bool := c == '\x22' || c == '\x27'

/-- The characters of a text, each with whether it is code; `quote` is the literal left open. -/
def markFrom : (quote : Option Char) → List Char → List (Char × Bool)
  | _, [] => []
  | none, c :: cs =>
    if isQuote c then (c, false) :: markFrom (some c) cs else (c, true) :: markFrom none cs
  | some q, c :: cs =>
    if c = '\\' then
      match cs with
      | [] => [(c, false)]
      | d :: ds => (c, false) :: (d, false) :: markFrom (some q) ds
    else
      (c, false) :: markFrom (if c = q then none else some q) cs

/-- The characters of a line, each with whether it is code. -/
def mark (line : List Char) : List (Char × Bool) := markFrom none line

/-- The number of code characters equal to `c`. -/
def codeCount (c : Char) (line : List Char) : Nat := (mark line).count (c, true)

/-- The characters without their marks. -/
def unmark (line : List (Char × Bool)) : List Char := line.map Prod.fst

theorem unmark_markFrom (quote : Option Char) (line : List Char) :
    unmark (markFrom quote line) = line := by
  fun_induction markFrom quote line <;> simp_all [unmark]

/-- The pieces of a marked line between the code commas before the first code arrow, and the text
from that arrow on; `none` if there is no arrow. -/
def cutBeforeArrow : List (Char × Bool) → Option (List (List Char) × List Char)
  | [] => none
  | (c, code) :: rest =>
    if code && c == '-' && (rest.head?.map Prod.fst) == some '>' then
      some ([[]], c :: unmark rest)
    else
      match cutBeforeArrow rest with
      | none => none
      | some (pieces, tail) =>
        if code && c == ',' then some ([] :: pieces, tail)
        else
          match pieces with
          | [] => some ([[c]], tail)
          | piece :: pieces => some ((c :: piece) :: pieces, tail)

/-- Whether an arrow stands outside all literals. -/
def hasArrow (line : List Char) : Bool := (cutBeforeArrow (mark line)).isSome

end HouseStyle.Text
