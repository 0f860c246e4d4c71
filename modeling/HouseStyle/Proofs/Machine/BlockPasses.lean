import HouseStyle.Dialect
import HouseStyle.Proofs.Machine.BlockWeight
import HouseStyle.Proofs.Machine.Runs

/-!
# Passes on blocks in a machine

A pass walks over the lists of nodes, bodies first, and changes each of them by the ranges of its
runs.  The lists stay as heavy as they are, so that what is known of the file is known of every list
on the way.

* `mapLists?_eq`: a walk over all lists.
* `sortRuns?_eq`, `capitalizeHeads?_eq`: what passes do to one list.
* `onBlocks?_eq`: **no list of nodes stops a pass.**
-/

namespace HouseStyle.Machine

open Text Block

/-! ## Walks -/

section Walk

variable {f? : List Node → Option (List Node)} {f : List Node → List Node} {nodes : List Node}

mutual

/-- The node with every list of nodes inside it changed. -/
def mapBodies? (f? : List Node → Option (List Node)) : Node → Option Node
  | .statement lines => some (.statement lines)
  | .block kind header signature body => do
    let body ← mapBodiesAll? f? body
    let body ← f? body
    return .block kind header signature body

/-- The nodes with every list of nodes inside them changed. -/
def mapBodiesAll? (f? : List Node → Option (List Node)) : List Node → Option (List Node)
  | [] => some []
  | node :: nodes => do
    let node ← mapBodies? f? node
    let nodes ← mapBodiesAll? f? nodes
    return node :: nodes

end

/-- The nodes with every list of nodes changed, bodies before the list that holds their block. -/
def mapLists? (f? : List Node → Option (List Node)) (nodes : List Node) : Option (List Node) := do
  let nodes ← mapBodiesAll? f? nodes
  f? nodes

theorem nodesBulk_mapBodiesAll (hbulk : ∀ xs, nodesBulk (f xs) = nodesBulk xs)
    (nodes : List Node) : nodesBulk (Node.mapBodiesAll f nodes) = nodesBulk nodes := by
  induction nodes using nodes_induction with
  | nil => rfl
  | statement lines nodes ih =>
    rw [Node.mapBodiesAll, nodesBulk, ih, nodesBulk]
    rfl
  | block kind header signature body nodes ihb ihr =>
    rw [Node.mapBodiesAll, nodesBulk, ihr, nodesBulk, Node.mapBodies, nodeBulk, hbulk, ihb, nodeBulk]

theorem mapBodiesAll?_eq (hf : ∀ xs, nodesBulk xs < sizeLimit → f? xs = some (f xs))
    (hbulk : ∀ xs, nodesBulk (f xs) = nodesBulk xs) (h : nodesBulk nodes < sizeLimit) :
    mapBodiesAll? f? nodes = some (Node.mapBodiesAll f nodes) := by
  induction nodes using nodes_induction with
  | nil => rw [mapBodiesAll?, Node.mapBodiesAll]
  | statement lines nodes ih =>
    rw [nodesBulk] at h
    rw [mapBodiesAll?, mapBodies?, ih (by omega), Node.mapBodiesAll]
    rfl
  | block kind header signature body nodes ihb ihr =>
    rw [nodesBulk, nodeBulk] at h
    have hbody : nodesBulk (Node.mapBodiesAll f body) < sizeLimit := by
      rw [nodesBulk_mapBodiesAll hbulk]
      omega
    rw [mapBodiesAll?, mapBodies?, ihb (by omega), ihr (by omega), Node.mapBodiesAll, Node.mapBodies]
    simp only [Option.bind_eq_bind, Option.bind_some, hf _ hbody, Option.pure_def]

/-- A walk over lists that stay as heavy as they are is stopped only by what is done on the way. -/
theorem mapLists?_eq (hf : ∀ xs, nodesBulk xs < sizeLimit → f? xs = some (f xs))
    (hbulk : ∀ xs, nodesBulk (f xs) = nodesBulk xs) (h : nodesBulk nodes < sizeLimit) :
    mapLists? f? nodes = some (Node.mapLists f nodes) := by
  have hall : nodesBulk (Node.mapBodiesAll f nodes) < sizeLimit := by
    rwa [nodesBulk_mapBodiesAll hbulk]
  rw [mapLists?, mapBodiesAll?_eq hf hbulk h, Option.bind_eq_bind, Option.bind_some, hf _ hall,
    Node.mapLists]

theorem nodesBulk_mapLists (hbulk : ∀ xs, nodesBulk (f xs) = nodesBulk xs) (nodes : List Node) :
    nodesBulk (Node.mapLists f nodes) = nodesBulk nodes := by
  rw [Node.mapLists, hbulk, nodesBulk_mapBodiesAll hbulk]

end Walk

/-! ## Passes -/

/-- The nodes with every run of blocks sorted. -/
def sortRuns? (nodes : List Node) : Option (List Node) :=
  changeRuns? Node.isBlock (sortRange? fun a b => (compareNodes a b).isLE) nodes

/-- The statement with its first line capitalized, if that changes it. -/
def capitalizeNode? : Node → Option (Option Node)
  | .statement (line :: lines) =>
    match Block.capitalizeComment line with
    | none => some none
    | some line' => do
      let lines ← set? (line :: lines) 0 line'
      return some (.statement lines)
  | _ => some none

/-- The nodes with the first comment of every run capitalized. -/
def capitalizeHeads? (nodes : List Node) : Option (List Node) :=
  changeRuns? Node.isComment (changeHead? capitalizeNode?) nodes

/-- What a pass does to the nodes of a file of blocks, if it applies to them. -/
def onBlocks? : Pass → Option (List Node → Option (List Node))
  | .sort _ => some (mapLists? sortRuns?)
  | .comments => some (mapLists? capitalizeHeads?)
  | .visibility _ => none
  | .cases => none

section Passes

variable {nodes : List Node}

theorem length_le_nodesBulk (nodes : List Node) : nodes.length ≤ nodesBulk nodes := by
  induction nodes with
  | nil => exact Nat.le_refl 0
  | cons node nodes ih =>
    have hnode : size node.firstLine.toList < nodeBulk node := size_firstLine_lt
    rw [List.length_cons, nodesBulk]
    omega

theorem sortRuns?_eq (h : nodes.length < wordValues) :
    sortRuns? nodes = some (sortRuns nodes) :=
  changeRuns?_eq h (fun run => List.length_mergeSort run) changes_sortRange?

theorem capitalizeNode?_eq (node : Node) :
    (capitalizeNode? node).map (·.getD node) = some node.capitalize := by
  cases node with
  | statement lines =>
    cases lines with
    | nil => rfl
    | cons line lines =>
      rw [capitalizeNode?, Node.capitalize]
      cases Block.capitalizeComment line <;> rfl
  | block => rfl

theorem capitalizeHeads?_eq (h : nodes.length < wordValues) :
    capitalizeHeads? nodes = some (mapRunHeads Node.isComment Node.capitalize nodes) := by
  refine changeRuns?_eq h (fun run => ?_) (changes_changeHead? capitalizeNode?_eq)
  cases run <;> rfl

variable {pass : Pass} {change : List Node → List Node}

theorem nodesBulk_of_onBlocks? (h : Dialect.onBlocks? pass = some change) (nodes : List Node) :
    nodesBulk (change nodes) = nodesBulk nodes := by
  cases pass with
  | sort options =>
    cases h
    exact nodesBulk_mapLists nodesBulk_sortRuns nodes
  | comments =>
    cases h
    exact nodesBulk_mapLists nodesBulk_capitalizeHeads nodes
  | visibility | cases => cases h

theorem onBlocks?_eq_none (h : Dialect.onBlocks? pass = none) : onBlocks? pass = none := by
  cases pass with
  | sort | comments => cases h
  | visibility | cases => rfl

/-- **No list of nodes stops a pass.** -/
theorem onBlocks?_eq (h : Dialect.onBlocks? pass = some change) :
    ∃ change?, onBlocks? pass = some change? ∧
      ∀ nodes, nodesBulk nodes < sizeLimit → change? nodes = some (change nodes) := by
  have hlength : ∀ nodes : List Node, nodesBulk nodes < sizeLimit → nodes.length < wordValues :=
    fun nodes hbulk =>
      Nat.lt_of_le_of_lt (length_le_nodesBulk nodes) (Nat.lt_trans hbulk (by decide))
  cases pass with
  | sort options =>
    cases h
    refine ⟨_, rfl, fun nodes hbulk => mapLists?_eq ?_ nodesBulk_sortRuns hbulk⟩
    exact fun xs hxs => sortRuns?_eq (hlength xs hxs)
  | comments =>
    cases h
    refine ⟨_, rfl, fun nodes hbulk => mapLists?_eq ?_ nodesBulk_capitalizeHeads hbulk⟩
    exact fun xs hxs => capitalizeHeads?_eq (hlength xs hxs)
  | visibility | cases => cases h

end Passes

end HouseStyle.Machine
