import HouseStyle.Declaration.Basic
import HouseStyle.Text.Literal
import HouseStyle.Text.NaturalKey

/-!
# Switch cases

Cases written with an arrow cannot fall through, so their order is free. In a method body,
neighbouring case groups of one indentation are sorted as whole groups, and so are the labels of a
case that has several. A group is a case line, the deeper lines below it, and a closing brace at its
own indentation. Groups are compared by their lines, so the labels are sorted first.

* `sortLabels`: a case line with its labels in order.
* `splitGroup`, `sortGroupsAt`: one group, and the sort of the groups of one indentation.
* `sortCaseGroups`: the groups of every indentation, the deepest first.
* `normalizeCases`: labels and groups of a method body.
-/

namespace HouseStyle

open Text

/-! ## Groups -/

/-- Whether the line is a case, or the default, with an arrow outside its literals. -/
def isCaseLine (line : String) : Bool :=
  (startsWith "case " line || startsWith "default " line) && hasArrow (unindented line)

/-- Whether the line is a case line of the given indentation. -/
def isCaseAt (dent : Nat) (line : String) : Bool :=
  isCaseLine line && indentation line == .spaces dent

/-- The lines of a group below its case line, and the lines after the group. -/
def splitGroup (dent : Nat) (below : List String) : List String × List String :=
  match below.dropWhile (isInside dent) with
  | [] => (below, [])
  | line :: rest =>
    if closes line dent "\x7d" then (below.takeWhile (isInside dent) ++ [line], rest)
    else (below.takeWhile (isInside dent), line :: rest)

theorem splitGroup_append (dent : Nat) (below : List String) :
    (splitGroup dent below).1 ++ (splitGroup dent below).2 = below := by
  unfold splitGroup
  have h : below.takeWhile (isInside dent) ++ below.dropWhile (isInside dent) = below :=
    List.takeWhile_append_dropWhile
  split
  · next => exact List.append_nil _
  · next line rest heq =>
    rw [heq] at h
    split
    · rw [List.append_assoc]; exact h
    · exact h

theorem length_splitGroup_le (dent : Nat) (below : List String) :
    (splitGroup dent below).2.length ≤ below.length := by
  have h := congrArg List.length (splitGroup_append dent below)
  rw [List.length_append] at h
  omega

/-- The case groups at the start of the lines, and the lines after the last of them. -/
def leadingGroups (dent : Nat) : List String → List (List String) × List String
  | [] => ([], [])
  | line :: below =>
    if isCaseAt dent line then
      let group := splitGroup dent below
      let more := leadingGroups dent group.2
      ((line :: group.1) :: more.1, more.2)
    else ([], line :: below)
termination_by ls => ls.length
decreasing_by exact Nat.lt_succ_of_le (length_splitGroup_le dent below)

theorem leadingGroups_append (dent : Nat) (ls : List String) :
    (leadingGroups dent ls).1.flatten ++ (leadingGroups dent ls).2 = ls := by
  fun_induction leadingGroups dent ls with
  | case1 => rfl
  | case2 line below _ group more ih =>
    rw [List.flatten_cons, List.append_assoc, ih, List.cons_append]
    exact congrArg (line :: ·) (splitGroup_append dent below)
  | case3 => rfl

theorem length_leadingGroups_le (dent : Nat) (ls : List String) :
    (leadingGroups dent ls).2.length ≤ ls.length := by
  have h := congrArg List.length (leadingGroups_append dent ls)
  rw [List.length_append] at h
  omega

/-- The lines with every run of case groups of one indentation sorted. -/
def sortGroupsAt (dent : Nat) : List String → List String
  | [] => []
  | line :: below =>
    if isCaseAt dent line then
      let group := splitGroup dent below
      let more := leadingGroups dent group.2
      (sortGroups ((line :: group.1) :: more.1)).flatten ++ sortGroupsAt dent more.2
    else line :: sortGroupsAt dent below
termination_by ls => ls.length
decreasing_by
  · exact Nat.lt_succ_of_le (Nat.le_trans (length_leadingGroups_le dent _)
      (length_splitGroup_le dent below))
  · exact Nat.lt_succ_self _

/-- The indentations of the case lines, the deepest first. -/
def caseIndentations (lines : List String) : List Nat :=
  (((lines.filter isCaseLine).map leadingSpaces).mergeSort fun a b => b ≤ a).eraseDups

/-- The lines with every run of case groups sorted. -/
def sortCaseGroups (lines : List String) : List String :=
  (caseIndentations lines).foldl (fun lines dent => sortGroupsAt dent lines) lines

/-! ## Labels -/

/-- Texts with a comma and a space between them. -/
def joinLabels (labels : List String) : List Char :=
  (labels.map String.toList).intersperse ", ".toList |>.flatten

/-- Whether a label rules out a sort: the default keeps its place, and a label with a space is a
pattern. -/
def isFixedLabel (label : String) : Bool := label == "default" || label.toList.contains ' '

/-- The labels of a case line and its text from the arrow on. -/
def caseLabels? (line : String) : Option (List String × List Char) :=
  if startsWith "case " line then
    (cutBeforeArrow (mark ((unindented line).drop 5))).map fun (pieces, tail) =>
      (pieces.map fun piece => String.ofList (trim piece), tail)
  else none

/-- The case line with its labels in order; `none` if that changes nothing. -/
def sortLabels (line : String) : Option String :=
  match caseLabels? line with
  | none => none
  | some (labels, tail) =>
    let sorted := sortTexts labels
    if labels.length < 2 || labels.any isFixedLabel || sorted == labels then none
    else
      some (String.ofList (List.replicate (leadingSpaces line) ' ' ++ "case ".toList ++
        joinLabels sorted ++ ' ' :: tail))

/-! ## Bodies -/

/-- The lines of a method body with case labels and case groups in order. -/
def normalizeCases (lines : List String) : List String :=
  sortCaseGroups (lines.map fun line => (sortLabels line).getD line)

/-- The file with the cases of every method in order. -/
def SourceFile.sortCases (file : SourceFile) : SourceFile :=
  file.mapText id id fun
    | .method, lines => normalizeCases lines
    | _, lines => lines

end HouseStyle
