import HouseStyle.Block.Basic
import HouseStyle.Text.NaturalKey

/-!
# Sorting blocks

Only neighbouring blocks change places: a statement between two blocks, a comment included, is a
fence. Within a run, blocks are ordered by kind, then by name in natural order, then by signature.
The sort is stable, and bodies are sorted before the lists that hold them.

* `SortKey`, `compareSortKeys`: what blocks are sorted by.
* `sortRuns`, `sort`: one list of nodes, and all lists of a file.
-/

namespace HouseStyle.Block

open Text

/-- What a block is sorted by, the most important part first. -/
structure SortKey where
  rank : Nat
  name : List KeyPart
  signature : List String
  deriving DecidableEq, Repr

/-- By rank, then name, then signature. -/
def compareSortKeys (a b : SortKey) : Ordering :=
  (compare a.rank b.rank).then
    ((compareKeys a.name b.name).then (compareLines a.signature b.signature))

/-- The sort key of a block; a block without a name sorts as if its name were empty. -/
def Node.sortKey? : Node → Option SortKey
  | .statement _ => none
  | .block kind _ signature _ =>
    some ⟨kind.rank, naturalKey ((kind.name? (firstOf signature)).getD ""), signature⟩

/-- Blocks by their sort keys, statements before blocks. -/
def compareNodes (a b : Node) : Ordering :=
  match a.sortKey?, b.sortKey? with
  | some x, some y => compareSortKeys x y
  | none, some _ => .lt
  | some _, none => .gt
  | none, none => .eq

/-- The nodes with every run of blocks sorted. -/
def sortRuns (nodes : List Node) : List Node :=
  mapRuns Node.isBlock (fun run => run.mergeSort fun a b => (compareNodes a b).isLE) nodes

/-- The nodes with every run of blocks sorted in every list. -/
def sort (nodes : List Node) : List Node := Node.mapLists sortRuns nodes

end HouseStyle.Block
