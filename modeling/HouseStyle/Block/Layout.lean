import HouseStyle.Block.Basic

/-!
# Writing blocks

Blocks have blank lines around them: two at the margin of the file, one inside a block. A comment
directly above a block stays attached to it; elsewhere one blank line stands in front of a comment
that begins a run of comments, unless the code above it opens a deeper level.

* `blankLines`: how many blank lines stand in front of a node.
* `compose`: the lines of a list of nodes.
-/

namespace HouseStyle.Block

open Text

/-- The number of blank lines around a block. -/
def spacing (topLevel : Bool) : Nat := if topLevel then 2 else 1

/-- Whether a block follows after comments alone. -/
def leadsToBlock (nodes : List Node) : Bool :=
  match nodes.dropWhile Node.isComment with
  | node :: _ => node.isBlock
  | [] => false

/-- The number of blank lines in front of the node that begins `nodes`, given the node before. -/
def blankLines (topLevel : Bool) (before : Option Node) (nodes : List Node) : Nat :=
  match before, nodes with
  | some a, b :: _ =>
    if a.isComment then 0
    else if a.isBlock || leadsToBlock nodes then spacing topLevel
    else if b.isComment && b.indentation.atMost a.indentation then 1
    else 0
  | _, _ => 0

/-- The number of blank lines in front of each node, given the node before. -/
def blankCounts (topLevel : Bool) (before : Option Node) : List Node → List Nat
  | [] => []
  | node :: nodes =>
    blankLines topLevel before (node :: nodes) :: blankCounts topLevel (some node) nodes

mutual

/-- The lines of a node. -/
def composeNode : Node → List String
  | .statement lines => lines
  | .block _ header signature body => header ++ signature ++ composeAfter false none body

/-- The lines of nodes with the blank lines in front of each, given the node before them. -/
def composeAfter (topLevel : Bool) (before : Option Node) : List Node → List String
  | [] => []
  | node :: nodes =>
    List.replicate (blankLines topLevel before (node :: nodes)) "" ++ composeNode node ++
      composeAfter topLevel (some node) nodes

end

/-- The lines of a list of nodes. -/
def compose (topLevel : Bool) (nodes : List Node) : List String :=
  composeAfter topLevel none nodes

end HouseStyle.Block
