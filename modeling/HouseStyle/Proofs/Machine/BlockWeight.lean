import HouseStyle.Block.CommentCase
import HouseStyle.Proofs.Block.Sort
import HouseStyle.Proofs.Machine.Weight

/-!
# The weight of blocks

Every node weighs as much as its lines and two blank lines, which may be written in front of it.  The
passes keep the weight of every list of nodes: they put nodes in another order, or capitalize
comments.

* `nodesBulk`: the weight of a list of nodes.
* `nodesBulk_le_of_parse`: **what is read weighs at most three times as much as the lines.**
* `nodesBulk_sortRuns`, `nodesBulk_capitalizeHeads`: what passes do to one list of nodes.
* `weight_compose_le_nodesBulk`: **what is written weighs no more than the nodes.**
-/

namespace HouseStyle.Machine

open Text Block

mutual

/-- The weight of the lines of a node, with two blank lines in front of each node in it. -/
def nodeBulk : Node → Nat
  | .statement lines => weight lines + 2
  | .block _ header signature body => weight header + weight signature + 2 + nodesBulk body

/-- The weight of the lines of some nodes, with two blank lines in front of each node. -/
def nodesBulk : List Node → Nat
  | [] => 0
  | node :: nodes => nodeBulk node + nodesBulk nodes

end

variable {node node' : Node} {nodes nodes' : List Node} {blocks : List (List String)}
  {lines : List String}

theorem nodesBulk_eq_sum (nodes : List Node) : nodesBulk nodes = (nodes.map nodeBulk).sum := by
  induction nodes with
  | nil => rw [nodesBulk, List.map_nil, List.sum_nil]
  | cons node nodes ih => rw [nodesBulk, ih, List.map_cons, List.sum_cons]

theorem nodeBulk_le_nodesBulk (h : node ∈ nodes) : nodeBulk node ≤ nodesBulk nodes := by
  rw [nodesBulk_eq_sum]
  exact List.single_le_sum (fun _ _ => Nat.zero_le _) _ (List.mem_map_of_mem h)

theorem nodesBulk_perm (h : nodes.Perm nodes') : nodesBulk nodes = nodesBulk nodes' := by
  rw [nodesBulk_eq_sum, nodesBulk_eq_sum, (h.map nodeBulk).sum_eq]

theorem nodesBulk_eq_of_forall₂
    (h : List.Forall₂ (fun n n' => nodeBulk n' = nodeBulk n) nodes nodes') :
    nodesBulk nodes' = nodesBulk nodes := by
  induction h with
  | nil => rfl
  | cons hn _ ih => rw [nodesBulk, nodesBulk, hn, ih]

theorem size_firstOf_le (lines : List String) : size (firstOf lines).toList ≤ weight lines := by
  cases lines with
  | nil => exact Nat.le_refl 0
  | cons line lines => exact Nat.le_of_lt (size_lt_weight List.mem_cons_self)

theorem size_firstLine_lt : size node.firstLine.toList < nodeBulk node := by
  cases node with
  | statement lines =>
    have hline := size_firstOf_le lines
    rw [Node.firstLine, nodeBulk]
    omega
  | block kind header signature body =>
    have hsignature := size_firstOf_le signature
    rw [Node.firstLine, nodeBulk]
    cases header with
    | nil =>
      rw [List.head?_nil, Option.getD_none]
      omega
    | cons line header =>
      have hline := size_lt_weight (List.mem_cons_self (a := line) (l := header))
      rw [List.head?_cons, Option.getD_some]
      omega

/-! ## Reading -/

/-- A tree weighs as much as its logical lines and two blank lines for each of them, at most. -/
theorem nodesBulk_le_of_segments (h : Segments nodes blocks) :
    nodesBulk nodes ≤ weight blocks.flatten + 2 * blocks.length := by
  induction h with
  | nil => exact Nat.le_refl 0
  | statement lines _ ih =>
    rw [nodesBulk, nodeBulk, List.flatten_cons, weight_append, List.length_cons]
    omega
  | block kind decorators signature _ _ ihb ihr =>
    rw [nodesBulk, nodeBulk, List.flatten_append, List.flatten_cons, List.flatten_append,
      weight_append, weight_append, weight_append, List.length_append, List.length_cons,
      List.length_append]
    omega

theorem weight_flatten_le_of_spread (h : Spread blocks lines) :
    weight blocks.flatten ≤ weight lines := by
  induction h with
  | nil => exact Nat.le_refl 0
  | blank _ _ ih =>
    rw [weight_cons]
    omega
  | block block _ ih =>
    rw [List.flatten_cons, weight_append, weight_append]
    omega

theorem length_le_weight_flatten (h : ∀ block ∈ blocks, Block.Bounded block) :
    blocks.length ≤ weight blocks.flatten := by
  induction blocks with
  | nil => exact Nat.le_refl 0
  | cons block blocks ih =>
    obtain ⟨hblock, hblocks⟩ := List.forall_mem_cons.1 h
    obtain ⟨line, hline, -⟩ := hblock.first
    have hpos := size_lt_weight (List.mem_of_mem_head? hline)
    have ih := ih hblocks
    rw [List.length_cons, List.flatten_cons, weight_append]
    omega

/-- **What is read weighs at most three times as much as the lines.** -/
theorem nodesBulk_le_of_parse (h : Block.parse lines = .ok nodes) :
    nodesBulk nodes ≤ 3 * weight lines := by
  obtain ⟨rest, hreads⟩ := reads_of_parse h
  obtain ⟨blocks, hsegments, htakes⟩ := hreads.takes
  obtain ⟨taken, rfl, hspread⟩ := htakes.spread
  have hbulk := nodesBulk_le_of_segments hsegments
  have hlength := length_le_weight_flatten htakes.bounded
  have hflatten := weight_flatten_le_of_spread hspread
  rw [weight_append]
  omega

/-! ## Passes -/

theorem nodesBulk_sortRuns (nodes : List Node) : nodesBulk (sortRuns nodes) = nodesBulk nodes :=
  nodesBulk_perm (sortRuns_perm nodes)

theorem nodeBulk_capitalize (node : Node) : nodeBulk node.capitalize = nodeBulk node := by
  unfold Node.capitalize
  split
  · next line lines =>
    cases h : Block.capitalizeComment line with
    | none => rfl
    | some line' =>
      have hsize : size line'.toList = size line.toList := by
        unfold Block.capitalizeComment at h
        split at h
        · cases h
        · exact size_capitalizeAfter h
      rw [Option.getD_some, nodeBulk, nodeBulk, weight_cons, weight_cons, hsize]
  · rfl

theorem nodesBulk_capitalizeHeads (nodes : List Node) :
    nodesBulk (mapRunHeads Node.isComment Node.capitalize nodes) = nodesBulk nodes := by
  refine nodesBulk_eq_of_forall₂ (forall₂_mapRunHeads ?_ ?_ nodes)
  · exact fun _ => rfl
  · exact fun node _ => nodeBulk_capitalize node

/-! ## Writing -/

theorem blankLines_le_two (topLevel : Bool) (before : Option Node) (nodes : List Node) :
    blankLines topLevel before nodes ≤ 2 := by
  unfold blankLines spacing
  split
  · split_ifs <;> omega
  · omega

theorem weight_replicate_empty (count : Nat) : weight (List.replicate count "") = count := by
  induction count with
  | zero => rfl
  | succ count ih =>
    rw [List.replicate_succ, weight_cons, ih]
    exact Nat.add_comm 1 count

theorem weight_composeAfter_le (h : ∀ n ∈ nodes, weight (composeNode n) + 2 ≤ nodeBulk n)
    (topLevel : Bool) (before : Option Node) :
    weight (composeAfter topLevel before nodes) ≤ nodesBulk nodes := by
  induction nodes generalizing before with
  | nil => exact Nat.zero_le _
  | cons node nodes ih =>
    obtain ⟨hnode, hnodes⟩ := List.forall_mem_cons.1 h
    have hblank := blankLines_le_two topLevel before (node :: nodes)
    have hmore := ih hnodes (some node)
    rw [composeAfter, nodesBulk, weight_append, weight_append, weight_replicate_empty]
    omega

/-- A node is written, with the blank lines in front of it, at no more than its weight. -/
theorem weight_composeNode_add_two_le (node : Node) :
    weight (composeNode node) + 2 ≤ nodeBulk node := by
  induction node using node_induction with
  | statement lines => exact Nat.le_refl _
  | block kind header signature body ih =>
    have hbody := weight_composeAfter_le ih false none
    rw [composeNode, nodeBulk, weight_append, weight_append]
    omega

/-- **What is written weighs no more than the nodes.** -/
theorem weight_compose_le_nodesBulk (topLevel : Bool) (nodes : List Node) :
    weight (compose topLevel nodes) ≤ nodesBulk nodes :=
  weight_composeAfter_le (fun node _ => weight_composeNode_add_two_le node) topLevel none

end HouseStyle.Machine
