import HouseStyle.Text.Lines
import HouseStyle.Toml.Scalar

/-!
# Paths of keys

A path leads from a table to a value below it: keys separated by dots, each with any number of
places in brackets behind it. Places of arrays are counted from zero, or backwards from the end if
they are negative.

* `Step`: one step of a path.
* `Step.ofText?`: the steps that a text describes.
-/

namespace HouseStyle

open Toml

/-- One step of a path of keys. -/
inductive Step where
  | key (key : String)
  | index (index : Int)
  deriving DecidableEq, Repr

namespace Step

/-- Whether a character may stand in a key of a path. -/
def isKeyChar (c : Char) : Bool := c.isAlphanum || c == ' ' || c == '_' || c == '-'

/-- Whether a character may stand around the number in brackets. -/
def isPadding (c : Char) : Bool := c == ' ' || c == '\t'

/-- The step for an opening bracket with a number behind it, the closing bracket left out. -/
def ofBracket? : List Char → Option Step
  | '[' :: text =>
    let number := (text.dropWhile isPadding).reverse.dropWhile isPadding |>.reverse
    let negative := number.head? == some '-'
    let digits := if negative then number.drop 1 else number
    let size : Int := numberOf 10 digits
    let n := if negative then -size else size
    if digits.isEmpty || !digits.all Char.isDigit || !isInRange n then none else some (.index n)
  | _ => none

/-- The steps for a key and the brackets behind it. -/
def ofPiece? (piece : List Char) : Option (List Step) :=
  let key := piece.takeWhile isKeyChar
  let brackets := Text.pieces ']' (piece.drop key.length)
  if key.isEmpty || brackets.getLast? != some [] then none
  else (brackets.dropLast.mapM ofBracket?).map (.key (String.ofList key) :: ·)

/-- The steps that a text describes. -/
def ofText? (text : String) : Option (List Step) :=
  ((Text.pieces '.' text.toList).mapM ofPiece?).map List.flatten

end Step

end HouseStyle
