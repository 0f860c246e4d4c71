import HouseStyle.Dialect
import HouseStyle.Text.Quoted

/-!
# Round trips

A file in the house style is written exactly as it was read. Where it is not, the first line that
differs is reported.

* `firstDifference?`: the first line at which two lists of lines differ.
* `roundTrip`: whether a file is written as it was read.
-/

namespace HouseStyle

open Text

/-- A line number with the line, if there is one, in what was written and in what was read. -/
structure Difference where
  line : Nat
  written : Option String
  wanted : Option String
  deriving DecidableEq, Repr

/-- The first line at which two lists differ, lines counted from `line`. -/
def differenceFrom? (line : Nat) : List String → List String → Option Difference
  | [], [] => none
  | written, wanted =>
    match written, wanted with
    | a :: as, b :: bs =>
      if a = b then differenceFrom? (line + 1) as bs else some ⟨line, some a, some b⟩
    | _, _ => some ⟨line, written.head?, wanted.head?⟩

/-- The first line at which two lists of lines differ. -/
def firstDifference? (written wanted : List String) : Option Difference :=
  differenceFrom? 1 written wanted

/-- A line as a literal, or that there is none. -/
def showLine : Option String → String
  | none => "None"
  | some line => "Some(" ++ literal line ++ ")"

/-- What is said about the difference. -/
def Difference.message (d : Difference) : String :=
  "round trip differs at line " ++ toString d.line ++ ":\n  composed: " ++ showLine d.written ++
    "\n  original: " ++ showLine d.wanted

/-- Why a file is not written as it was read. -/
inductive RoundTripError where
  | parse (error : ParseError)
  | parseBlocks (error : Block.ParseError)
  | differs (difference : Difference)
  deriving DecidableEq, Repr

/-- What is said about the error. -/
def RoundTripError.message : RoundTripError → String
  | .parse e => "failed to parse: " ++ e.message
  | .parseBlocks e => "failed to parse: " ++ e.message
  | .differs d => d.message

/-- What is wrong with reading the lines of a file and writing them again, if anything. -/
def roundTrip (dialect : Dialect) (lines : List String) : Option RoundTripError :=
  match dialect with
  | .java =>
    match SourceFile.parse lines with
    | .error e => some (.parse e)
    | .ok file => (firstDifference? file.compose lines).map .differs
  | .python =>
    match Block.parse lines with
    | .error e => some (.parseBlocks e)
    | .ok nodes => (firstDifference? (Block.compose true nodes) lines).map .differs

end HouseStyle
