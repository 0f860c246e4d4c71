import HouseStyle.Proofs.Block.Lists
import HouseStyle.Proofs.Block.LogicalLines

/-!
# Nodes by themselves

What the reader makes of the lines of a node, apart from where the node stands: a statement is one
logical line that opens no block, a block has the kind and the name its signature shows.  This is
all that is left of a tree when its nodes change places.

* `Formed`: the nodes that the reader can give.
* `Formed.isComment_firstLine`: a formed node is a comment exactly if its first line is one.
* `formed_of_reads`: nodes that were read are formed.
-/

namespace HouseStyle.Block

open Text

/-- Whether some lines are a logical line of some text. -/
def IsLogicalLine (lines : List String) : Prop :=
  ∃ line below after, isBlank line = false ∧ logicalLine line below = some (lines, after)

/-- The nodes that the reader can give, whatever stands around them. -/
inductive Formed : Node → Prop
  | statement {lines : List String} (hl : IsLogicalLine lines) (hk : kind? (firstOf lines) = none) :
      Formed (.statement lines)
  | block {kind : Kind} {header signature : List String} {body : List Node}
      (hl : IsLogicalLine signature) (hk : kind? (firstOf signature) = some kind)
      (hn : (kind.name? (firstOf signature)).isSome = true)
      (hh : ∀ line ∈ header.head?,
        isMarked line = true ∧ Text.indentation (firstOf signature) = Text.indentation line)
      (hb : ∀ node ∈ body, Formed node) : Formed (.block kind header signature body)

/-! ## Comments -/

theorem scan_comment (n depth : Nat) (text : List Char) :
    scan depth none (List.replicate n ' ' ++ '#' :: text) = ⟨depth, none, true⟩ := by
  induction n with
  | zero => exact scan_opens_comment text
  | succ n ih =>
    rw [List.replicate_succ, List.cons_append, scan_code (by decide) rfl]
    exact ih

theorem logicalLine_of_isComment {line : String} (h : isComment line = true)
    (below : List String) : logicalLine line below = some ([line], below) := by
  obtain ⟨text, htext⟩ := List.isPrefixOf_iff_prefix.1 h
  have hline : line.toList = List.replicate (leadingSpaces line) ' ' ++ '#' :: text := by
    rw [toList_eq_indented line, ← htext]
    rfl
  have hclosed : Continuation.advance {} line = {} := by
    unfold Continuation.advance
    rw [hline]
    dsimp only
    rw [scan_comment]
    rfl
  have hcontinued : continued {} below = some ([], below) :=
    continued_eq_some_iff.2 ⟨rfl, trivial, rfl⟩
  rw [logicalLine, hclosed, hcontinued]
  rfl

theorem isComment_of_isMarked {line : String} (h : isMarked line = true) : isComment line = false :=
  startsWith_eq_false_of_head (c := '#') rfl (head?_of_startsWith (c := '@') rfl h) (by decide)

theorem isComment_of_kind? {line : String} {kind : Kind} (h : kind? line = some kind) :
    isComment line = false := by
  obtain ⟨c, hc, hhead⟩ := head?_of_kind? h
  refine startsWith_eq_false_of_head (c := '#') rfl hhead ?_
  rintro rfl
  exact absurd hc (by decide)

/-! ## First lines -/

theorem IsLogicalLine.eq_cons {lines : List String} (h : IsLogicalLine lines) :
    ∃ kept, lines = firstOf lines :: kept ∧ isBlank (firstOf lines) = false := by
  obtain ⟨line, below, after, hb, hl⟩ := h
  obtain ⟨kept, rfl, -⟩ := logicalLine_eq_some hl
  exact ⟨kept, rfl, hb⟩

theorem IsLogicalLine.logicalLine {lines : List String} (h : IsLogicalLine lines)
    {after : List String} (hends : isClosed lines = true ∨ beginsBlank after = true) :
    ∃ kept, lines = firstOf lines :: kept ∧
      Block.logicalLine (firstOf lines) (kept ++ after) = some (lines, after) := by
  obtain ⟨line, below, after', -, hl⟩ := h
  obtain ⟨kept, rfl, hl'⟩ := logicalLine_of_logicalLine hl hends
  exact ⟨kept, rfl, hl'⟩

namespace Formed

variable {node : Node}

theorem composeNode_eq (h : Formed node) :
    ∃ tail, composeNode node = node.firstLine :: tail ∧ isBlank node.firstLine = false := by
  cases h with
  | statement hl _ =>
    rw [composeNode]
    exact hl.eq_cons
  | @block kind header signature body hl _ _ hh _ =>
    obtain ⟨kept, hkept, hb⟩ := hl.eq_cons
    cases header with
    | nil =>
      refine ⟨kept ++ composeAfter false none body, ?_, hb⟩
      rw [composeNode, hkept]
      rfl
    | cons line header =>
      refine ⟨header ++ signature ++ composeAfter false none body, ?_, ?_⟩
      · rw [composeNode]
        rfl
      · exact isBlank_of_isMarked (hh line rfl).1

theorem isBlank_firstLine (h : Formed node) : isBlank node.firstLine = false := by
  obtain ⟨_, -, hb⟩ := h.composeNode_eq
  exact hb

theorem indentation_eq (h : Formed node) :
    node.indentation = .spaces (leadingSpaces node.firstLine) :=
  indentation_of_not_isBlank h.isBlank_firstLine

theorem isComment_firstLine (h : Formed node) : isComment node.firstLine = node.isComment := by
  cases h with
  | @statement lines hl _ =>
    match lines with
    | [] => rfl
    | [line] => rfl
    | line :: next :: lines =>
      obtain ⟨line', below, after, -, hl⟩ := hl
      obtain ⟨kept, heq, -⟩ := logicalLine_eq_some hl
      obtain ⟨rfl, -⟩ := List.cons.inj heq
      refine Bool.eq_false_iff.2 fun hc => ?_
      have hcomment : isComment line = true := hc
      rw [logicalLine_of_isComment hcomment] at hl
      cases hl
  | @block kind header signature body _ hk _ hh _ =>
    cases header with
    | nil => exact isComment_of_kind? hk
    | cons line header => exact isComment_of_isMarked (hh line rfl).1

theorem composeNode_of_isComment (h : node.isComment = true) :
    composeNode node = [node.firstLine] := by
  match node, h with
  | .statement [line], _ => rfl

theorem indentation_block {kind : Kind} {header signature : List String} {body : List Node}
    (h : Formed (.block kind header signature body)) :
    Node.indentation (.block kind header signature body) =
      .spaces (leadingSpaces (firstOf signature)) := by
  cases h with
  | block hl hk _ hh _ =>
    have hsignature := indentation_of_not_isBlank (isBlank_of_kind? hk)
    cases header with
    | nil => exact hsignature
    | cons line header => exact (hh line rfl).2.symm.trans hsignature

end Formed

/-! ## Blank lines in front of nodes -/

theorem skipBlank_cons {line : String} {below : List String} (h : isBlank line = false) :
    skipBlank (line :: below) = line :: below :=
  List.dropWhile_cons_of_neg (by simp [h])

theorem skipBlank_skipBlank (lines : List String) :
    skipBlank (skipBlank lines) = skipBlank lines := by
  cases h : skipBlank lines with
  | nil => rfl
  | cons line below => exact skipBlank_cons (isBlank_of_skipBlank h)

theorem beginsBlank_skipBlank (lines : List String) : beginsBlank (skipBlank lines) = false := by
  cases h : skipBlank lines with
  | nil => rfl
  | cons line below => exact isBlank_of_skipBlank h

theorem skipBlank_eq_self {lines : List String} (h : beginsBlank lines = false) :
    skipBlank lines = lines := by
  cases lines with
  | nil => rfl
  | cons line below => exact skipBlank_cons h

/-- The lines of a node come right behind the blank lines in front of it. -/
theorem Formed.skipBlank_composeAfter {node : Node} (h : Formed node) (topLevel : Bool)
    (before : Option Node) (nodes : List Node) (below : List String) :
    skipBlank (composeAfter topLevel before (node :: nodes) ++ below) =
      composeNode node ++ (composeAfter topLevel (some node) nodes ++ below) := by
  obtain ⟨tail, htail, hb⟩ := h.composeNode_eq
  rw [composeAfter, List.append_assoc, List.append_assoc, skipBlank,
    dropWhile_isBlank_append fun l hl => (List.mem_replicate.1 hl).2 ▸ isBlank_empty, htail]
  exact skipBlank_cons hb

/-! ## Nodes that were read -/

theorem head?_of_readDecorators {line : String} {below header rest : List String}
    (hm : isMarked line = true)
    (h : readDecorators (indentation line) (line :: below) = .ok (header, rest)) :
    header.head? = some line := by
  rw [readDecorators, if_pos (by simp [hm])] at h
  split at h
  · cases h
  · next decorator after hl =>
    obtain ⟨⟨more, _⟩, -, he⟩ := exists_of_map_eq_ok h
    cases he
    rw [List.head?_append, head?_of_logicalLine hl, Option.some_or]

theorem firstOf_of_logicalLine {line : String} {below lines after : List String}
    (h : logicalLine line below = some (lines, after)) : firstOf lines = line := by
  rw [firstOf, head?_of_logicalLine h]
  rfl

/-- **Nodes that were read are formed.** -/
theorem formed_of_reads {dent : Option Nat} {lines rest : List String} {nodes : List Node}
    (h : Reads dent lines nodes rest) : ∀ node ∈ nodes, Formed node := by
  induction h with
  | nil | stop => exact fun _ hm => nomatch hm
  | @statement _ _ line below physical after _ _ h _ ho hl _ ih =>
    refine List.forall_mem_cons.2 ⟨.statement ⟨_, _, _, isBlank_of_skipBlank h, hl⟩ ?_, ih⟩
    rw [firstOf_of_logicalLine hl]
    rcases opening?_eq_none_iff.1 ho with ⟨-, hk⟩ | ⟨hm, -⟩
    · exact hk
    · cases hk : kind? line with
      | none => rfl
      | some kind => exact absurd (hm.symm.trans (isMarked_of_kind? hk)) Bool.noConfusion
  | @block _ _ line below signature after _ _ o _ _ _ _ ho hl hn _ _ ihb ihr =>
    obtain ⟨hk, hheader⟩ := opening?_eq_some_iff.1 ho
    have hfirst := firstOf_of_logicalLine hl
    refine List.forall_mem_cons.2 ⟨.block ⟨_, _, _, isBlank_of_kind? hk, hl⟩ ?_ ?_ ?_ ihb, ihr⟩
    · rw [hfirst, hk]
    · rw [hfirst]
      exact hn
    · rw [hfirst]
      intro l hmem
      rcases hheader with ⟨-, hnil, -, -⟩ | ⟨hm, hi, hread⟩
      · rw [hnil] at hmem
        cases hmem
      · rw [head?_of_readDecorators hm hread] at hmem
        cases hmem
        exact ⟨hm, hi⟩

end HouseStyle.Block
