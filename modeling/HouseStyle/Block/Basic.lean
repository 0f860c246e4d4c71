import HouseStyle.Text.Line
import HouseStyle.Text.Runs
import HouseStyle.Text.Word

/-!
# Blocks

A Python file as a list of nodes. A *block* is a class or a function with the nodes of its body; a
*statement* is one logical line of anything else, which may take several physical lines. Decorators
belong to the block below them. Comments are statements.

* `Node`: the trees.
* `Node.lists`: all lists of nodes in a tree, bodies before the list that holds their block.
* `Node.mapLists`: every list of nodes changed, bodies first.
-/

namespace HouseStyle.Block

open Text

/-- The two kinds of blocks. -/
inductive Kind where
  | namedClass
  | function
  deriving DecidableEq, Repr

/-- The word for a kind in outlines and messages. -/
def Kind.label : Kind → String
  | .namedClass => "class"
  | .function => "function"

/-- Classes come before functions. -/
def Kind.rank : Kind → Nat
  | .namedClass => 0
  | .function => 1

/-- The keyword that stands in front of the name. -/
def Kind.keyword : Kind → String
  | .namedClass => "class"
  | .function => "def"

/-- The name that the first line of a signature shows. -/
def Kind.name? (kind : Kind) (line : String) : Option String :=
  (wordAfter kind.keyword line.toList).map String.ofList

/-- A statement or a block with everything inside it. -/
inductive Node where
  /-- The physical lines of one logical line. -/
  | statement (lines : List String)
  /-- The decorator lines, the lines of the opening logical line, and the body. -/
  | block (kind : Kind) (header signature : List String) (body : List Node)
  deriving Repr

mutual

/-- Whether two nodes are equal. -/
def Node.decEq : (a b : Node) → Decidable (a = b)
  | .statement lines, .statement lines' => decidable_of_iff (lines = lines') (by simp)
  | .block kind header signature body, .block kind' header' signature' body' =>
    have := decEqAll body body'
    decidable_of_iff (kind = kind' ∧ header = header' ∧ signature = signature' ∧ body = body')
      (by simp)
  | .statement .., .block .. | .block .., .statement .. => isFalse nofun

/-- Whether two lists of nodes are equal. -/
def Node.decEqAll : (a b : List Node) → Decidable (a = b)
  | [], [] => isTrue rfl
  | a :: as, b :: bs =>
    have := decEq a b
    have := decEqAll as bs
    decidable_of_iff (a = b ∧ as = bs) (by simp)
  | [], _ :: _ | _ :: _, [] => isFalse nofun

end

instance : DecidableEq Node := Node.decEq

/-- Whether the first character that is not a space is `#`. -/
def isComment (line : String) : Bool := startsWith "#" line

/-- The first of some lines, or an empty line. -/
def firstOf (lines : List String) : String := lines.head?.getD ""

namespace Node

/-- The name of a block. -/
def name? : Node → Option String
  | .statement _ => none
  | .block kind _ signature _ => kind.name? (firstOf signature)

/-- The first physical line. -/
def firstLine : Node → String
  | .statement lines => firstOf lines
  | .block _ header signature _ => header.head?.getD (firstOf signature)

/-- The indentation of the first physical line. -/
def indentation (node : Node) : Indentation := Text.indentation node.firstLine

/-- Whether the node is a block. -/
def isBlock : Node → Bool
  | .statement _ => false
  | .block _ _ _ _ => true

/-- Whether the node is a statement that is a single comment line. -/
def isComment : Node → Bool
  | .statement [line] => Block.isComment line
  | _ => false

/-! ## The lists of a tree -/

mutual

/-- The lists of nodes inside a node. -/
def listsWithin : Node → List (List Node)
  | .statement _ => []
  | .block _ _ _ body => listsWithinAll body ++ [body]

/-- The lists of nodes inside the nodes of a list. -/
def listsWithinAll : List Node → List (List Node)
  | [] => []
  | node :: nodes => node.listsWithin ++ listsWithinAll nodes

end

/-- All lists of nodes of a tree, each after the lists inside its nodes. -/
def lists (nodes : List Node) : List (List Node) := listsWithinAll nodes ++ [nodes]

mutual

/-- The node with every list of nodes inside it changed. -/
def mapBodies (f : List Node → List Node) : Node → Node
  | .statement lines => .statement lines
  | .block kind header signature body => .block kind header signature (f (mapBodiesAll f body))

/-- The nodes with every list of nodes inside them changed. -/
def mapBodiesAll (f : List Node → List Node) : List Node → List Node
  | [] => []
  | node :: nodes => node.mapBodies f :: mapBodiesAll f nodes

end

/-- The nodes with every list of nodes changed, bodies before the list that holds their block. -/
def mapLists (f : List Node → List Node) (nodes : List Node) : List Node :=
  f (mapBodiesAll f nodes)

theorem mapBodiesAll_eq_map (f : List Node → List Node) (nodes : List Node) :
    mapBodiesAll f nodes = nodes.map (mapBodies f) := by
  induction nodes with
  | nil => simp [mapBodiesAll]
  | cons node nodes ih => simp [mapBodiesAll, ih]

theorem listsWithinAll_eq_flatMap (nodes : List Node) :
    listsWithinAll nodes = nodes.flatMap listsWithin := by
  induction nodes with
  | nil => simp [listsWithinAll]
  | cons node nodes ih => simp [listsWithinAll, ih]

end Node

end HouseStyle.Block
