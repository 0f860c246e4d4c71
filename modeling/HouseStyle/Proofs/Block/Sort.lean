import HouseStyle.Block.Sort
import HouseStyle.Proofs.Block.Formed
import HouseStyle.Proofs.Text.Order
import HouseStyle.Proofs.Text.Runs
import Mathlib.Data.List.Perm.Basic

/-!
# What sorted blocks keep

A sort moves whole nodes within their lists.  A sorted list is the list of its nodes, each with its
body sorted, in another order; what is known of all nodes of a tree is known of those of the sorted
tree.

* `sort_perm`: a sorted list holds the nodes of the list, each with its body sorted.
* `sort_sort`: a sorted tree is sorted.
* `lists_sort_perm`: the lists of a sorted tree are the sorted lists of the tree.
* `formed_sort`: formed nodes stay formed.
* `Segments.sort`: a sort puts the logical lines of a tree in another order.
-/

namespace HouseStyle.Block

open Std Text

/-! ## The order of blocks -/

instance : TransCmp compareSortKeys :=
  inferInstanceAs (TransCmp (compareLex (compareOn SortKey.rank)
    (compareLex (Ordering.byKey SortKey.name compareKeys)
      (Ordering.byKey SortKey.signature compareLines))))

instance : TransCmp compareNodes where
  eq_swap {a b} := by
    unfold compareNodes
    cases a.sortKey? <;> cases b.sortKey? <;>
      first | rfl | exact @OrientedCmp.eq_swap _ compareSortKeys _ _ _
  isLE_trans {a b c} hab hbc := by
    unfold compareNodes at *
    cases ha : a.sortKey? <;> cases hb : b.sortKey? <;> cases hc : c.sortKey? <;>
      rw [ha, hb] at hab <;> rw [hb, hc] at hbc <;>
      first | rfl | cases hab | cases hbc | exact @TransCmp.isLE_trans _ compareSortKeys _ _ _ _ hab hbc

/-- A run of blocks in the order of their keys. -/
def inOrder (run : List Node) : List Node := run.mergeSort fun a b => (compareNodes a b).isLE

theorem inOrder_perm (run : List Node) : (inOrder run).Perm run := List.mergeSort_perm _ _

theorem inOrder_inOrder (run : List Node) : inOrder (inOrder run) = inOrder run :=
  mergeSort_mergeSort compareNodes run

theorem inOrder_pairwise (run : List Node) :
    (inOrder run).Pairwise fun a b => (compareNodes a b).isLE = true :=
  pairwise_mergeSort compareNodes run

@[simp] theorem inOrder_nil : inOrder [] = [] := List.mergeSort_nil

/-- A block comes behind the blocks that are less, and no other block changes its place. -/
theorem inOrder_cons (a : Node) (run : List Node) :
    ∃ front back, inOrder (a :: run) = front ++ a :: back ∧ inOrder run = front ++ back ∧
      ∀ b ∈ front, (compareNodes a b).isLE = false := by
  have htrans : ∀ a b c : Node, (compareNodes a b).isLE = true → (compareNodes b c).isLE = true →
      (compareNodes a c).isLE = true := fun _ _ _ => TransCmp.isLE_trans
  obtain ⟨front, back, hcons, hrun, hfront⟩ :=
    List.mergeSort_cons htrans isLE_total a run
  refine ⟨front, back, hcons, hrun, fun b hb => ?_⟩
  simpa using hfront b hb

/-! ## Nodes with changed bodies -/

namespace Node

variable (f : List Node → List Node)

@[simp] theorem sortKey?_mapBodies (node : Node) : (node.mapBodies f).sortKey? = node.sortKey? := by
  cases node <;> rfl

@[simp] theorem compareNodes_mapBodies (a b : Node) :
    compareNodes (a.mapBodies f) (b.mapBodies f) = compareNodes a b := by
  rw [compareNodes, sortKey?_mapBodies, sortKey?_mapBodies, compareNodes]

end Node

/-! ## Sorted lists -/

theorem exists_statement_of_isBlock {node : Node} (h : node.isBlock = false) :
    ∃ lines, node = .statement lines := by
  cases node with
  | statement lines => exact ⟨lines, rfl⟩
  | block => cases h

theorem sortRuns_perm (nodes : List Node) : (sortRuns nodes).Perm nodes :=
  mapRuns_perm inOrder_perm nodes

theorem sortRuns_sortRuns (nodes : List Node) : sortRuns (sortRuns nodes) = sortRuns nodes :=
  mapRuns_mapRuns inOrder_perm inOrder_inOrder nodes

theorem sortRuns_map_mapBodies (f : List Node → List Node) (nodes : List Node) :
    sortRuns (nodes.map (Node.mapBodies f)) = (sortRuns nodes).map (Node.mapBodies f) := by
  refine mapRuns_map (Node.isBlock_mapBodies f) (fun run => ?_) nodes
  refine (List.map_mergeSort fun a _ b _ => ?_).symm
  rw [Node.compareNodes_mapBodies]

theorem sortRuns_cons_of_not_isBlock {node : Node} {nodes : List Node} (h : node.isBlock = false) :
    sortRuns (node :: nodes) = node :: sortRuns nodes :=
  mapRuns_cons_of_neg h

theorem sortRuns_append {run rest : List Node} (hne : run ≠ [])
    (hrun : ∀ n ∈ run, n.isBlock = true) (hrest : ∀ n ∈ rest.head?, n.isBlock = false) :
    sortRuns (run ++ rest) = inOrder run ++ sortRuns rest :=
  mapRuns_append hne hrun hrest

/-- A node with its body sorted. -/
def Node.sortBody (node : Node) : Node := node.mapBodies sortRuns

@[simp] theorem Node.isBlock_sortBody (node : Node) : node.sortBody.isBlock = node.isBlock :=
  isBlock_mapBodies sortRuns node

@[simp] theorem Node.isComment_sortBody (node : Node) : node.sortBody.isComment = node.isComment :=
  isComment_mapBodies sortRuns node

@[simp] theorem Node.firstLine_sortBody (node : Node) : node.sortBody.firstLine = node.firstLine :=
  firstLine_mapBodies sortRuns node

@[simp] theorem Node.indentation_sortBody (node : Node) :
    node.sortBody.indentation = node.indentation :=
  indentation_mapBodies sortRuns node

@[simp] theorem compareNodes_sortBody (a b : Node) :
    compareNodes a.sortBody b.sortBody = compareNodes a b :=
  Node.compareNodes_mapBodies sortRuns a b

theorem Node.sortBody_statement (lines : List String) :
    Node.sortBody (.statement lines) = .statement lines := by
  rw [sortBody, mapBodies]

theorem Node.sortBody_block (kind : Kind) (header signature : List String) (body : List Node) :
    Node.sortBody (.block kind header signature body) = .block kind header signature (sort body) := by
  rw [sortBody, mapBodies]
  rfl

theorem sort_eq (nodes : List Node) : sort nodes = sortRuns (nodes.map Node.sortBody) := by
  rw [sort, Node.mapLists, Node.mapBodiesAll_eq_map]
  rfl

/-- A sorted list holds the nodes of the list, each with its body sorted. -/
theorem sort_perm (nodes : List Node) : (sort nodes).Perm (nodes.map Node.sortBody) :=
  sort_eq nodes ▸ sortRuns_perm _

theorem sort_eq_map (nodes : List Node) : sort nodes = (sortRuns nodes).map Node.sortBody :=
  (sort_eq nodes).trans (sortRuns_map_mapBodies sortRuns nodes)

theorem sort_run_append {run rest : List Node} (hne : run ≠ [])
    (hrun : ∀ n ∈ run, n.isBlock = true) (hrest : ∀ n ∈ rest.head?, n.isBlock = false) :
    sort (run ++ rest) = (inOrder run).map Node.sortBody ++ sort rest := by
  rw [sort_eq_map, sortRuns_append hne hrun hrest, List.map_append, ← sort_eq_map]

theorem sort_cons_statement (lines : List String) (nodes : List Node) :
    sort (.statement lines :: nodes) = .statement lines :: sort nodes := by
  rw [sort_eq, List.map_cons, Node.sortBody_statement, sortRuns_cons_of_not_isBlock rfl, ← sort_eq]

@[simp] theorem sort_nil : sort [] = [] := by
  rw [sort_eq, List.map_nil, sortRuns, mapRuns]

/-- Blocks in the order of their keys are the sorted run. -/
theorem sort_append_of_perm {run ordered : List Node} (rest : List Node) (hne : run ≠ [])
    (hrun : ∀ n ∈ run, n.isBlock = true) (hp : ordered.Perm run)
    (hlt : ordered.Pairwise fun a b => compareNodes a b = .lt)
    (hrest : ∀ n ∈ rest.head?, n.isBlock = false) :
    sort (run ++ rest) = ordered.map Node.sortBody ++ sort rest := by
  have horder : inOrder run = ordered := mergeSort_eq_of_perm hp hlt
  rw [sort_run_append hne hrun hrest, horder]

/-- **A sorted tree is sorted.** -/
theorem sort_sort (nodes : List Node) : sort (sort nodes) = sort nodes :=
  mapLists_mapLists sortRuns_sortRuns (sortRuns_map_mapBodies sortRuns) nodes

/-! ## Lists of a tree -/

theorem lists_sort_perm_of_forall {nodes : List Node}
    (h : ∀ n ∈ nodes, (Node.listsWithin n.sortBody).Perm ((Node.listsWithin n).map sort)) :
    (Node.lists (sort nodes)).Perm ((Node.lists nodes).map sort) := by
  rw [lists_eq, lists_eq nodes, List.map_append, List.map_flatMap]
  refine List.Perm.append_right _ (((sort_perm nodes).flatMap_right _).trans ?_)
  rw [List.flatMap_map]
  exact List.Perm.flatMap_left nodes h

theorem listsWithin_sortBody_perm (node : Node) :
    (Node.listsWithin node.sortBody).Perm ((Node.listsWithin node).map sort) := by
  induction node using node_induction with
  | statement lines => rw [Node.sortBody_statement, Node.listsWithin, List.map_nil]
  | block kind header signature body ih =>
    rw [Node.sortBody_block, listsWithin_block, listsWithin_block]
    exact lists_sort_perm_of_forall ih

/-- **The lists of a sorted tree are the sorted lists of the tree.** -/
theorem lists_sort_perm (nodes : List Node) :
    (Node.lists (sort nodes)).Perm ((Node.lists nodes).map sort) :=
  lists_sort_perm_of_forall fun n _ => listsWithin_sortBody_perm n

/-! ## Formed nodes -/

theorem Formed.sortBody {node : Node} (h : Formed node) : Formed node.sortBody := by
  induction h with
  | statement hl hk =>
    rw [Node.sortBody_statement]
    exact .statement hl hk
  | @block kind header signature body hl hk hn hh _ ih =>
    rw [Node.sortBody_block]
    refine .block hl hk hn hh fun node hnode => ?_
    obtain ⟨n, hmem, rfl⟩ := List.mem_map.1 ((sort_perm body).mem_iff.1 hnode)
    exact ih n hmem

theorem formed_sort {nodes : List Node} (h : ∀ n ∈ nodes, Formed n) : ∀ n ∈ sort nodes, Formed n := by
  intro node hnode
  obtain ⟨n, hn, rfl⟩ := List.mem_map.1 ((sort_perm nodes).mem_iff.1 hnode)
  exact (h n hn).sortBody

/-! ## Logical lines -/

namespace Segments

variable {node : Node} {nodes : List Node} {blocks own : List (List String)}

theorem cons_iff : Segments (node :: nodes) blocks ↔
    ∃ own rest, Segments [node] own ∧ Segments nodes rest ∧ blocks = own ++ rest := by
  constructor
  · intro h
    cases h with
    | statement lines hs => exact ⟨[lines], _, .statement lines .nil, hs, rfl⟩
    | @block _ _ inner rest kind decorators signature hb hs =>
      refine ⟨decorators ++ signature :: (inner ++ []), rest, .block kind _ signature hb .nil, hs, ?_⟩
      simp
  · rintro ⟨own, rest, hown, hrest, rfl⟩
    cases hown with
    | statement lines hnil =>
      cases hnil
      exact .statement lines hrest
    | block kind decorators signature hb hnil =>
      cases hnil
      simpa using Segments.block kind decorators signature hb hrest

theorem perm {nodes' : List Node} (hp : nodes.Perm nodes') (h : Segments nodes blocks) :
    ∃ blocks', Segments nodes' blocks' ∧ blocks'.Perm blocks := by
  induction hp generalizing blocks with
  | nil => exact ⟨blocks, h, List.Perm.refl _⟩
  | cons node _ ih =>
    obtain ⟨own, rest, hown, hrest, rfl⟩ := cons_iff.1 h
    obtain ⟨rest', hrest', hperm⟩ := ih hrest
    exact ⟨own ++ rest', cons_iff.2 ⟨own, rest', hown, hrest', rfl⟩, hperm.append_left own⟩
  | swap a b nodes =>
    obtain ⟨first, _, hfirst, htail, rfl⟩ := cons_iff.1 h
    obtain ⟨second, rest, hsecond, hrest, rfl⟩ := cons_iff.1 htail
    have htail' : Segments (b :: nodes) (first ++ rest) := cons_iff.2 ⟨_, _, hfirst, hrest, rfl⟩
    refine ⟨second ++ (first ++ rest), cons_iff.2 ⟨_, _, hsecond, htail', rfl⟩, ?_⟩
    rw [← List.append_assoc, ← List.append_assoc]
    exact List.perm_append_comm.append_right rest
  | trans _ _ ih ih' =>
    obtain ⟨middle, hmiddle, hperm⟩ := ih h
    obtain ⟨blocks', hblocks', hperm'⟩ := ih' hmiddle
    exact ⟨blocks', hblocks', hperm'.trans hperm⟩

theorem map_sortBody (h : Segments nodes blocks) :
    ∃ sorted, Segments (nodes.map Node.sortBody) sorted ∧ sorted.Perm blocks := by
  induction h with
  | nil => exact ⟨[], .nil, List.Perm.refl _⟩
  | statement lines _ ih =>
    obtain ⟨sorted, hs, hperm⟩ := ih
    rw [List.map_cons, Node.sortBody_statement]
    exact ⟨lines :: sorted, .statement lines hs, hperm.cons lines⟩
  | @block body _ _ _ kind decorators signature _ _ ihb ihr =>
    obtain ⟨middle, hmiddle, hpermb⟩ := ihb
    obtain ⟨inner, hinner, hperm⟩ := hmiddle.perm (sort_perm body).symm
    obtain ⟨sorted, hs, hpermr⟩ := ihr
    rw [List.map_cons, Node.sortBody_block]
    refine ⟨_, .block kind decorators signature hinner hs, ?_⟩
    exact (((hperm.trans hpermb).append hpermr).cons signature).append_left decorators

/-- A sort puts the logical lines of a tree in another order. -/
theorem sort (h : Segments nodes blocks) :
    ∃ sorted, Segments (Block.sort nodes) sorted ∧ sorted.Perm blocks := by
  obtain ⟨middle, hmiddle, hperm⟩ := h.map_sortBody
  obtain ⟨sorted, hs, hperm'⟩ := hmiddle.perm (sort_perm nodes).symm
  exact ⟨sorted, hs, hperm'.trans hperm⟩

end Segments

end HouseStyle.Block
