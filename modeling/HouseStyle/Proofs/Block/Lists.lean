import HouseStyle.Block.Basic
import HouseStyle.Proofs.Text.Order

/-!
# The lists of a tree

A pass over blocks changes every list of nodes, the bodies of the blocks before the list that holds
them.  What it leaves of a node besides its body is what the change of one list looks at.

* `nodes_induction`, `node_induction`: induction over lists of nodes and the bodies in them.
* `ListsTo`, `listsTo_iff`: a tree with every list changed, and the pass that does it.
* `mapLists_mapLists`: a change that has nothing left to do in a list has nothing left to do in a tree.
-/

namespace HouseStyle.Block

open Text

/-- Induction over lists of nodes, with the body of a block as a list of its own. -/
theorem nodes_induction {P : List Node → Prop} (nil : P [])
    (statement : ∀ lines nodes, P nodes → P (.statement lines :: nodes))
    (block : ∀ kind header signature body nodes, P body → P nodes →
      P (.block kind header signature body :: nodes)) : ∀ nodes, P nodes
  | [] => nil
  | .statement lines :: nodes => statement lines nodes (nodes_induction nil statement block nodes)
  | .block kind header signature body :: nodes =>
    block kind header signature body nodes (nodes_induction nil statement block body)
      (nodes_induction nil statement block nodes)

/-- Induction over nodes, where all nodes of a body come before the block that holds them. -/
theorem node_induction {P : Node → Prop} (statement : ∀ lines, P (.statement lines))
    (block : ∀ kind header signature body, (∀ n ∈ body, P n) → P (.block kind header signature body))
    (node : Node) : P node := by
  have hall : ∀ nodes : List Node, ∀ n ∈ nodes, P n := by
    intro nodes
    induction nodes using nodes_induction with
    | nil => exact fun _ hn => nomatch hn
    | statement lines nodes ih => exact List.forall_mem_cons.2 ⟨statement lines, ih⟩
    | block kind header signature body nodes ihb ihr =>
      exact List.forall_mem_cons.2 ⟨block kind header signature body ihb, ihr⟩
  exact hall [node] node (by simp)

theorem listsWithin_block (kind : Kind) (header signature : List String) (body : List Node) :
    Node.listsWithin (.block kind header signature body) = Node.lists body := by
  rw [Node.listsWithin]
  rfl

theorem lists_eq (nodes : List Node) :
    Node.lists nodes = nodes.flatMap Node.listsWithin ++ [nodes] := by
  rw [Node.lists, Node.listsWithinAll_eq_flatMap]

theorem self_mem_lists (nodes : List Node) : nodes ∈ Node.lists nodes := by
  rw [lists_eq]
  simp

theorem mem_lists_of_mem_listsWithin {node : Node} {nodes l : List Node} (hn : node ∈ nodes)
    (hl : l ∈ node.listsWithin) : l ∈ Node.lists nodes := by
  rw [lists_eq]
  exact List.mem_append_left _ (List.mem_flatMap.2 ⟨node, hn, hl⟩)

/-! ## Nodes with changed bodies -/

namespace Node

variable (f : List Node → List Node)

@[simp] theorem firstLine_mapBodies (node : Node) : (node.mapBodies f).firstLine = node.firstLine := by
  cases node <;> rfl

@[simp] theorem indentation_mapBodies (node : Node) :
    (node.mapBodies f).indentation = node.indentation := by
  rw [indentation, firstLine_mapBodies, indentation]

@[simp] theorem isBlock_mapBodies (node : Node) : (node.mapBodies f).isBlock = node.isBlock := by
  cases node <;> rfl

@[simp] theorem isComment_mapBodies (node : Node) : (node.mapBodies f).isComment = node.isComment := by
  cases node <;> rfl

theorem mapBodies_block (kind : Kind) (header signature : List String) (body : List Node) :
    (Node.block kind header signature body).mapBodies f =
      .block kind header signature (mapLists f body) := by
  rw [mapBodies]
  rfl

theorem mapLists_eq (nodes : List Node) : mapLists f nodes = f (nodes.map (mapBodies f)) := by
  rw [mapLists, mapBodiesAll_eq_map]

/-- Whether the second node is the first one with every list inside it changed as the relation says,
bodies before the list that holds their block. -/
inductive BodiesTo (r : List Node → List Node → Prop) : Node → Node → Prop
  | statement (lines : List String) : BodiesTo r (.statement lines) (.statement lines)
  | block {kind : Kind} {header signature : List String} {body middle body' : List Node}
      (hb : List.Forall₂ (BodiesTo r) body middle) (hr : r middle body') :
      BodiesTo r (.block kind header signature body) (.block kind header signature body')

end Node

/-! ## Changed trees -/

variable {f : List Node → List Node} {r : List Node → List Node → Prop} {nodes nodes' : List Node}

/-- Whether the second list is the first one with all lists inside its nodes, and then itself, changed
as the relation says. -/
def ListsTo (r : List Node → List Node → Prop) (nodes nodes' : List Node) : Prop :=
  ∃ middle, List.Forall₂ (Node.BodiesTo r) nodes middle ∧ r middle nodes'

theorem listsTo_iff_of_forall (hr : ∀ a b, r a b ↔ b = f a)
    (h : ∀ n ∈ nodes, ∀ n', n.BodiesTo r n' ↔ n' = n.mapBodies f) :
    ListsTo r nodes nodes' ↔ nodes' = Node.mapLists f nodes := by
  rw [Node.mapLists_eq]
  constructor
  · rintro ⟨middle, hmiddle, hlist⟩
    rw [(hr _ _).1 hlist, (forall₂_iff_eq_map h).1 hmiddle]
  · intro hn
    exact ⟨_, (forall₂_iff_eq_map h).2 rfl, (hr _ _).2 hn⟩

theorem Node.bodiesTo_iff (hr : ∀ a b, r a b ↔ b = f a) {node node' : Node} :
    node.BodiesTo r node' ↔ node' = node.mapBodies f := by
  induction node using node_induction generalizing node' with
  | statement lines =>
    rw [mapBodies]
    constructor
    · rintro ⟨⟩
      rfl
    · rintro rfl
      exact .statement lines
  | block kind header signature body ih =>
    have hbody : ∀ {body'}, ListsTo r body body' ↔ body' = mapLists f body :=
      listsTo_iff_of_forall hr fun n hn n' => ih n hn
    rw [mapBodies_block]
    constructor
    · intro h
      cases h with
      | block hb hlist => rw [hbody.1 ⟨_, hb, hlist⟩]
    · rintro rfl
      obtain ⟨middle, hb, hlist⟩ := hbody.2 rfl
      exact .block hb hlist

/-- **A pass makes the tree in which every list is changed.** -/
theorem listsTo_iff (hr : ∀ a b, r a b ↔ b = f a) :
    ListsTo r nodes nodes' ↔ nodes' = Node.mapLists f nodes :=
  listsTo_iff_of_forall hr fun _ _ _ => Node.bodiesTo_iff hr

section Twice

variable (hff : ∀ nodes, f (f nodes) = f nodes)
  (hmap : ∀ nodes, f (nodes.map (Node.mapBodies f)) = (f nodes).map (Node.mapBodies f))

include hff hmap

theorem mapLists_mapLists_of_forall
    (h : ∀ n ∈ nodes, (n.mapBodies f).mapBodies f = n.mapBodies f) :
    Node.mapLists f (Node.mapLists f nodes) = Node.mapLists f nodes := by
  have hbodies : (nodes.map (Node.mapBodies f)).map (Node.mapBodies f) =
      nodes.map (Node.mapBodies f) := by
    rw [List.map_map]
    exact List.map_congr_left h
  rw [Node.mapLists_eq, Node.mapLists_eq, ← hmap, hbodies, hff]

theorem Node.mapBodies_mapBodies (node : Node) :
    (node.mapBodies f).mapBodies f = node.mapBodies f := by
  induction node using node_induction with
  | statement lines => rw [mapBodies, mapBodies]
  | block kind header signature body ih =>
    rw [mapBodies_block, mapBodies_block, mapLists_mapLists_of_forall hff hmap ih]

/-- **A change that has nothing left to do in a list has nothing left to do in a tree**, if it does not
matter to it which bodies the nodes of the list have. -/
theorem mapLists_mapLists (nodes : List Node) :
    Node.mapLists f (Node.mapLists f nodes) = Node.mapLists f nodes :=
  mapLists_mapLists_of_forall hff hmap fun n _ => Node.mapBodies_mapBodies hff hmap n

end Twice

end HouseStyle.Block
