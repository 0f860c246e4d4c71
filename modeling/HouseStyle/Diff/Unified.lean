import HouseStyle.Diff.Hunk

/-!
# Unified diffs

The text that shows how a file would change: its name twice, then hunks with three lines of context.
A line ends with a line feed, a carriage return, or both in this order.

* `cutLines`: a text as lines with their endings.
* `unified`: the diff of two texts.
-/

namespace HouseStyle.Diff

/-- The lines of a text, each with its ending; `line` is what the current line holds so far, in
reverse. -/
def cutLinesFrom (line : List Char) : List Char → List String
  | [] => if line.isEmpty then [] else [String.ofList line.reverse]
  | '\r' :: '\n' :: rest => String.ofList ('\n' :: '\r' :: line).reverse :: cutLinesFrom [] rest
  | c :: rest =>
    if c = '\r' || c = '\n' then String.ofList (c :: line).reverse :: cutLinesFrom [] rest
    else cutLinesFrom (c :: line) rest

/-- The lines of a text, each with its ending. -/
def cutLines (text : String) : Array String := (cutLinesFrom [] text.toList).toArray

/-- The place of a hunk in one of the texts: the number of its first line, and the number of its
lines unless that is one. A hunk without lines stands behind the line with the number. -/
def placeText (start length : Nat) : String :=
  if length = 1 then toString (start + 1)
  else toString (if length = 0 then start else start + 1) ++ "," ++ toString length

/-- The places of a hunk in both texts. -/
def headerText (hunk : List Op) : String :=
  match hunk.head?, hunk.getLast? with
  | some first, some last =>
    "@@ -" ++ placeText first.oldStart (last.oldStart + last.oldLength - first.oldStart) ++
      " +" ++ placeText first.newStart (last.newStart + last.newLength - first.newStart) ++ " @@\n"
  | _, _ => ""

/-- Whether a line has an ending. -/
def isEnded (line : String) : Bool :=
  match line.toList.getLast? with
  | some c => c == '\n' || c == '\r'
  | none => false

/-- Some lines, each behind a sign; a line without an ending is pointed out. -/
def signedLines (sign : String) (lines : Array String) (start length : Nat) : String :=
  String.join ((lines.extract start (start + length)).toList.map fun line =>
    sign ++ line ++ if isEnded line then "" else "\n\\ No newline at end of file\n")

/-- The lines of a stretch: kept ones, or deleted ones and then inserted ones. -/
def opText (a b : Array String) (op : Op) : String :=
  if op.action = .keep then signedLines " " a op.oldStart op.oldLength
  else
    signedLines "-" a op.oldStart op.oldLength ++ signedLines "+" b op.newStart op.newLength

def hunkText (a b : Array String) (hunk : List Op) : String :=
  headerText hunk ++ String.join (hunk.map (opText a b))

/-- The number of kept lines around a change. -/
def contextLines : Nat := 3

/-- The diff of two texts of the file with the given name; empty if they have the same lines. -/
def unified (name : String) (old new : String) : String :=
  let a := cutLines old
  let b := cutLines new
  let ops := coalesce (compact a b (script a b ⟨0, a.size, 0, b.size⟩))
  match hunks contextLines ops with
  | [] => ""
  | hs => "--- " ++ name ++ "\n+++ " ++ name ++ "\n" ++ String.join (hs.map (hunkText a b))

end HouseStyle.Diff
