import HouseStyle.Declaration.Cases
import HouseStyle.Declaration.CommentCase
import HouseStyle.Declaration.Sort
import HouseStyle.Declaration.Visibility

/-!
# Passes

A run applies one pass to every file. Only the sort can fail, and what it reached before it failed
is kept.
-/

namespace HouseStyle

/-- One way to normalize a source file, with its options. -/
inductive Pass where
  /-- Members are brought into the configured order. -/
  | sort (options : SortOptions)
  /-- Declarations without an access modifier get the given one. -/
  | visibility (modifier : Visibility)
  /-- The first line of every run of comments is capitalized. -/
  | comments
  /-- Switch cases and their labels are sorted. -/
  | cases
  deriving DecidableEq, Repr

/-- The name of a pass on the command line and in messages. -/
def Pass.name : Pass → String
  | .sort _ => "sort"
  | .visibility _ => "visibility"
  | .comments => "comments"
  | .cases => "cases"

/-- The file with the members of every scope sorted, up to the first scope that cannot be. -/
def SourceFile.sort (options : SortOptions) (file : SourceFile) :
    SourceFile × Option SortError :=
  let (root, error) := file.root.sort options
  (⟨file.preamble, root⟩, error)

/-- The file after a pass, with the error that ended it, if one did. -/
def Pass.apply (pass : Pass) (file : SourceFile) : SourceFile × Option SortError :=
  match pass with
  | .sort options => file.sort options
  | .visibility modifier => (file.withVisibility modifier, none)
  | .comments => (file.capitalizeComments, none)
  | .cases => (file.sortCases, none)

end HouseStyle
