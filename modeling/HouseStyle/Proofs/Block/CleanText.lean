import HouseStyle.Proofs.Block.Lists
import HouseStyle.Proofs.Block.LogicalLines
import HouseStyle.Proofs.Text.Lines

/-!
# Trees of clean lines

The lines of a tree that was read from a text can be cut from a text, and so can the lines that are
written of it: nothing but empty lines is put between them.  A pass keeps this if what it does to one
list of nodes does.

* `Node.CleanText`: nodes whose lines can be cut from a text.
* `cleanText_of_parse`: what is read from clean lines is clean.
* `clean_compose`: what is written of clean nodes is clean.
* `cleanText_mapLists`: a change that keeps lists of clean nodes clean keeps trees clean.
-/

namespace HouseStyle.Block

open Text

/-- Whether all lines of a node can be cut from a text. -/
inductive Node.CleanText : Node → Prop
  | statement {lines : List String} (hl : ∀ l ∈ lines, Clean l) : CleanText (.statement lines)
  | block {kind : Kind} {header signature : List String} {body : List Node}
      (hl : ∀ l ∈ header ++ signature, Clean l) (hb : ∀ node ∈ body, CleanText node) :
      CleanText (.block kind header signature body)

variable {nodes : List Node} {lines : List String} {blocks : List (List String)}

/-! ## Reading -/

theorem Spread.mem_of_mem_flatten (h : Spread blocks lines) {line : String}
    (hline : line ∈ blocks.flatten) : line ∈ lines := by
  induction h with
  | nil => exact hline
  | blank _ _ ih => exact List.mem_cons_of_mem _ (ih hline)
  | block block _ ih =>
    rw [List.flatten_cons] at hline
    rcases List.mem_append.1 hline with hline | hline
    · exact List.mem_append_left _ hline
    · exact List.mem_append_right _ (ih hline)

theorem Segments.cleanText (h : Segments nodes blocks) (hclean : ∀ l ∈ blocks.flatten, Clean l) :
    ∀ n ∈ nodes, n.CleanText := by
  induction h with
  | nil => exact List.forall_mem_nil _
  | statement lines _ ih =>
    rw [List.flatten_cons, List.forall_mem_append] at hclean
    exact List.forall_mem_cons.2 ⟨.statement hclean.1, ih hclean.2⟩
  | block kind decorators signature _ _ ihb ihr =>
    rw [List.flatten_append, List.flatten_cons, List.flatten_append] at hclean
    simp only [List.forall_mem_append] at hclean
    obtain ⟨hheader, hsignature, hbody, hrest⟩ := hclean
    exact List.forall_mem_cons.2
      ⟨.block (List.forall_mem_append.2 ⟨hheader, hsignature⟩) (ihb hbody), ihr hrest⟩

theorem cleanText_of_parse (h : parse lines = .ok nodes) (hclean : ∀ l ∈ lines, Clean l) :
    ∀ n ∈ nodes, n.CleanText := by
  obtain ⟨-, blocks, -, -, hsegments, hspread, -⟩ := compose_spread h
  exact hsegments.cleanText fun l hl => hclean l (hspread.mem_of_mem_flatten hl)

/-! ## Writing -/

theorem clean_composeAfter (h : ∀ n ∈ nodes, n.CleanText) (topLevel : Bool)
    (before : Option Node) : ∀ l ∈ composeAfter topLevel before nodes, Clean l := by
  have hblank : ∀ count, ∀ l ∈ List.replicate count "", Clean l := fun count l hl =>
    (List.mem_replicate.1 hl).2 ▸ clean_empty
  induction nodes using nodes_induction generalizing topLevel before with
  | nil =>
    rw [composeAfter]
    exact List.forall_mem_nil _
  | statement lines nodes ih =>
    obtain ⟨⟨hl⟩, hnodes⟩ := List.forall_mem_cons.1 h
    rw [composeAfter, composeNode]
    simp only [List.forall_mem_append]
    exact ⟨⟨hblank _, hl⟩, ih hnodes _ _⟩
  | block kind header signature body nodes ihb ihr =>
    obtain ⟨hnode, hnodes⟩ := List.forall_mem_cons.1 h
    cases hnode with
    | block hl hb =>
      rw [composeAfter, composeNode]
      simp only [List.forall_mem_append] at hl ⊢
      exact ⟨⟨hblank _, hl, ihb hb _ _⟩, ihr hnodes _ _⟩

theorem clean_compose (h : ∀ n ∈ nodes, n.CleanText) : ∀ l ∈ compose true nodes, Clean l :=
  clean_composeAfter h true none

/-! ## Changed lists -/

section Change

variable {f : List Node → List Node}
  (hf : ∀ nodes, (∀ n ∈ nodes, n.CleanText) → ∀ n ∈ f nodes, n.CleanText)

include hf

theorem Node.CleanText.mapBodies {node : Node} (h : node.CleanText) :
    (node.mapBodies f).CleanText := by
  induction h with
  | statement hl =>
    rw [Node.mapBodies]
    exact .statement hl
  | block hl _ ih =>
    rw [mapBodies_block, mapLists_eq]
    exact .block hl (hf _ (List.forall_mem_map.2 ih))

/-- **A change that keeps lists of clean nodes clean keeps trees clean.** -/
theorem cleanText_mapLists (h : ∀ n ∈ nodes, n.CleanText) :
    ∀ n ∈ Node.mapLists f nodes, n.CleanText := by
  rw [Node.mapLists_eq]
  exact hf _ (List.forall_mem_map.2 fun n hn => (h n hn).mapBodies hf)

end Change

end HouseStyle.Block
