import HouseStyle.Block.Basic
import HouseStyle.Declaration.CommentCase

/-!
# Capitalized comments in blocks

The first comment of every run of comments in a list of nodes begins with a capital letter.
Directives to tools, such as `# noqa` or `# type: ignore`, stay as they are.
-/

namespace HouseStyle.Block

open Text

/-- Whether a text begins with the word `noqa`. -/
def beginsNoqa (text : List Char) : Bool :=
  "noqa".toList.isPrefixOf text && !((text.drop 4).head?.any isWord)

/-- Whether a text begins with a lower case word, hyphens allowed in it, and a colon. -/
def beginsLabel (text : List Char) : Bool :=
  match text with
  | c :: cs => c.isLower && (cs.dropWhile fun c => isWord c || c == '-').head? == some ':'
  | [] => false

/-- Whether the line is a comment addressed to a tool. -/
def isDirective (line : String) : Bool :=
  startsWith "# " line &&
    (beginsNoqa ((unindented line).drop 2) || beginsLabel ((unindented line).drop 2))

/-- The line with the first letter of its comment in upper case, if that changes it. -/
def capitalizeComment (line : String) : Option String :=
  if isDirective line then none else capitalizeAfter "# " line

/-- The statement with the first letter of its first line in upper case. -/
def Node.capitalize : Node → Node
  | .statement (line :: lines) => .statement ((capitalizeComment line).getD line :: lines)
  | node => node

/-- The nodes with the first comment of every run capitalized in every list. -/
def capitalizeComments (nodes : List Node) : List Node :=
  Node.mapLists (mapRunHeads Node.isComment Node.capitalize) nodes

end HouseStyle.Block
