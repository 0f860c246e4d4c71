import HouseStyle.Declaration.Parser
import HouseStyle.Text.Runs

/-!
# Capitalized comments

The first letter of a comment is capitalized if it is an ASCII letter right behind the marker and
one space. Within a run of comment lines only the first line is changed, since the lines after it
usually continue its sentence: the first one of every run in the preamble, in a header or in raw
lines.

* `Text.capitalizeAfter`: a line with the letter behind a marker in upper case.
* `capitalizeRuns`, `SourceFile.capitalizeComments`: lines and files with their comments capitalized.
-/

namespace HouseStyle

open Text

/-- The line with the letter after the marker in upper case; `none` if there is nothing to change.
The marker includes the space that ends it. -/
def Text.capitalizeAfter (marker : String) (line : String) : Option String :=
  match (unindented line).drop marker.length with
  | c :: rest =>
    if startsWith marker line && c.isLower && !rest.contains '\n' then
      some (String.ofList
        (List.replicate (leadingSpaces line) ' ' ++ marker.toList ++ c.toUpper :: rest))
    else none
  | [] => none

/-- The line with the first letter of its comment in upper case, if that changes it. -/
def capitalizeComment (line : String) : Option String := capitalizeAfter "// " line

/-- The lines with the first line of each run of comments capitalized. -/
def capitalizeRuns (lines : List String) : List String :=
  mapRunHeads Declaration.isComment (fun line => (capitalizeComment line).getD line) lines

/-- The file with the first line of each run of comments capitalized. -/
def SourceFile.capitalizeComments (file : SourceFile) : SourceFile :=
  file.mapText capitalizeRuns (fun head => { head with header := capitalizeRuns head.header })
    fun _ lines => capitalizeRuns lines

end HouseStyle
