import HouseStyle.Block.CommentCase
import HouseStyle.Proofs.Block.Lists
import HouseStyle.Proofs.Declaration.CommentCase

/-!
# Capitalized comments

What the comment pass makes of a tree, in both dialects, said place by place: one letter of the first
comment of each run, and nothing else.  A comment stays a comment at its indentation, so the runs stay
where they are, and a second pass finds nothing to do.

* `Declaration.CapitalizesTo`, `SourceFile.CapitalizesTo`: a tree of declarations and a file with their
  comments capitalized.
* `Block.CommentsCapitalized`: a list of nodes with its comments capitalized.
* `capitalizeComments_iff_capitalizesTo`: **the pass capitalizes the first comment of each run**, once.
-/

namespace HouseStyle

open Text

/-! ## Declarations -/

/-- Whether the second lines are the first ones with the first line of each run of comments
capitalized. -/
def LinesCapitalized : List String → List String → Prop :=
  RunsCapitalized Declaration.isComment indentation (GetsCapital "// ")

theorem linesCapitalized_iff {lines lines' : List String} :
    LinesCapitalized lines lines' ↔ lines' = capitalizeRuns lines :=
  runsCapitalized_iff (fun l => (lineAlike_withCapital l).isComment_eq)
    (fun l _ => (lineAlike_withCapital l).indentation_eq)
    (fun _ _ _ => getsCapital_iff (m := '/') rfl (by decide))

/-- Whether the second tree is the first one with the comments of every header and of all raw lines
capitalized. -/
inductive Declaration.CapitalizesTo : Declaration → Declaration → Prop
  | leaf {kind : LeafKind} {header header' lines lines' : List String} {signature : String}
      (hh : LinesCapitalized header header') (hl : LinesCapitalized lines lines') :
      CapitalizesTo (.leaf kind ⟨header, signature⟩ lines) (.leaf kind ⟨header', signature⟩ lines')
  | scope {opener : Option String} {header header' : List String} {signature : String}
      {members members' : List Declaration} (hh : LinesCapitalized header header')
      (hm : List.Forall₂ CapitalizesTo members members') :
      CapitalizesTo (.scope opener ⟨header, signature⟩ members)
        (.scope opener ⟨header', signature⟩ members')

/-- Whether the second file is the first one with the comments of its preamble and its tree
capitalized. -/
structure SourceFile.CapitalizesTo (file file' : SourceFile) : Prop where
  preamble : LinesCapitalized file.preamble file'.preamble
  root : file.root.CapitalizesTo file'.root

theorem Declaration.capitalizesTo_iff {d d' : Declaration} :
    d.CapitalizesTo d' ↔ d' = d.mapText Head.capitalize fun _ lines => capitalizeRuns lines := by
  induction d using ind generalizing d' with
  | leaf kind head lines =>
    rw [mapText, Head.capitalize]
    constructor
    · rintro ⟨hh, hl⟩
      rw [linesCapitalized_iff.1 hh, linesCapitalized_iff.1 hl]
    · rintro rfl
      exact .leaf (linesCapitalized_iff.2 rfl) (linesCapitalized_iff.2 rfl)
  | scope opener head members ih =>
    have hmembers : ∀ {members' : List Declaration},
        List.Forall₂ CapitalizesTo members members' ↔ _ :=
      forall₂_iff_eq_map fun m hm _ => ih m hm
    rw [mapText_scope, Head.capitalize]
    constructor
    · intro h
      cases h with
      | scope hh hm => rw [linesCapitalized_iff.1 hh, hmembers.1 hm]
    · rintro rfl
      exact .scope (linesCapitalized_iff.2 rfl) (hmembers.2 rfl)

theorem SourceFile.capitalizesTo_iff {file file' : SourceFile} :
    file.CapitalizesTo file' ↔ file' = file.capitalizeComments := by
  constructor
  · rintro ⟨hpreamble, hroot⟩
    exact SourceFile.mk.injEq .. ▸
      ⟨linesCapitalized_iff.1 hpreamble, Declaration.capitalizesTo_iff.1 hroot⟩
  · rintro rfl
    exact ⟨linesCapitalized_iff.2 rfl, Declaration.capitalizesTo_iff.2 rfl⟩

/-! ## Blocks -/

namespace Block

/-- A line that gets a capital letter is a comment, before and after, and gets it once. -/
theorem capitalizeComment_eq_some {line line' : String} (h : capitalizeComment line = some line') :
    isComment line = true ∧ isComment line' = true ∧
      Text.indentation line' = Text.indentation line ∧ capitalizeComment line' = none := by
  have hcomment : ∀ {line : String} {text : List Char}, unindented line = "# ".toList ++ text →
      isComment line = true := by
    intro line text htext
    rw [isComment, startsWith, htext]
    rfl
  unfold capitalizeComment at h
  split at h
  · cases h
  · obtain ⟨c, rest, hline, -, hline', hspaces⟩ :=
      unindented_of_capitalizeAfter (m := '#') rfl (by decide) h
    have hblank : ∀ {line : String}, isComment line = true → isBlank line = false :=
      isBlank_of_startsWith (c := '#') rfl rfl
    refine ⟨hcomment hline, hcomment hline', ?_, ?_⟩
    · rw [indentation_of_not_isBlank (hblank (hcomment hline)),
        indentation_of_not_isBlank (hblank (hcomment hline')), hspaces]
    · rw [capitalizeComment, capitalizeAfter_of_eq_some (m := '#') rfl (by decide) h, ite_self]

namespace Node

/-- Whether the second node is the first one, a comment, with its letter in upper case, unless the
comment is addressed to a tool. -/
inductive GetsCapital : Node → Node → Prop
  | directive {line : String} (hd : isDirective line = true) :
      GetsCapital (.statement [line]) (.statement [line])
  | comment {line line' : String} (hd : isDirective line = false)
      (h : Text.GetsCapital "# " line line') : GetsCapital (.statement [line]) (.statement [line'])

theorem exists_line_of_isComment {node : Node} (h : node.isComment = true) :
    ∃ line, node = .statement [line] := by
  match node, h with
  | .statement [line], _ => exact ⟨line, rfl⟩

theorem capitalize_eq_self_or (node : Node) : node.capitalize = node ∨
    ∃ line line' lines, node = .statement (line :: lines) ∧
      node.capitalize = .statement (line' :: lines) ∧ capitalizeComment line = some line' := by
  match node with
  | .block .. => exact Or.inl rfl
  | .statement [] => exact Or.inl rfl
  | .statement (line :: lines) =>
    cases h : capitalizeComment line with
    | none => exact Or.inl (by rw [capitalize, h, Option.getD_none])
    | some line' => exact Or.inr ⟨line, line', lines, rfl, by rw [capitalize, h, Option.getD_some], h⟩

theorem isComment_capitalize (node : Node) : node.capitalize.isComment = node.isComment := by
  rcases node.capitalize_eq_self_or with h | ⟨line, line', lines, rfl, h, hc⟩
  · rw [h]
  · obtain ⟨hline, hline', -⟩ := capitalizeComment_eq_some hc
    rw [h]
    cases lines with
    | nil => exact hline'.trans hline.symm
    | cons => rfl

theorem indentation_capitalize (node : Node) : node.capitalize.indentation = node.indentation := by
  rcases node.capitalize_eq_self_or with h | ⟨line, line', lines, rfl, h, hc⟩
  · rw [h]
  · rw [h]
    exact (capitalizeComment_eq_some hc).2.2.1

theorem capitalize_capitalize (node : Node) : node.capitalize.capitalize = node.capitalize := by
  rcases node.capitalize_eq_self_or with h | ⟨line, line', lines, rfl, h, hc⟩
  · rw [h, h]
  · rw [h, capitalize, (capitalizeComment_eq_some hc).2.2.2, Option.getD_none]

theorem capitalize_mapBodies (f : List Node → List Node) (node : Node) :
    (node.mapBodies f).capitalize = node.capitalize.mapBodies f := by
  match node with
  | .block .. => rfl
  | .statement [] => rfl
  | .statement (line :: lines) => rfl

theorem getsCapital_iff {node node' : Node} (h : node.isComment = true) :
    node.GetsCapital node' ↔ node' = node.capitalize := by
  obtain ⟨line, rfl⟩ := exists_line_of_isComment h
  cases hd : isDirective line with
  | true =>
    rw [capitalize, capitalizeComment, if_pos hd, Option.getD_none]
    constructor
    · rintro (_ | ⟨hd', -⟩)
      · rfl
      · rw [hd] at hd'
        cases hd'
    · rintro rfl
      exact .directive hd
  | false =>
    have hline : ∀ {line'}, Text.GetsCapital "# " line line' ↔ _ :=
      Text.getsCapital_iff (m := '#') rfl (by decide)
    rw [capitalize, capitalizeComment, if_neg (by simp [hd])]
    constructor
    · rintro (hd' | ⟨-, h⟩)
      · rw [hd] at hd'
        cases hd'
      · rw [hline.1 h]
    · rintro rfl
      exact .comment hd (hline.2 rfl)

end Node

/-- Whether the second nodes are the first ones with the first node of each run of comments
capitalized. -/
def CommentsCapitalized : List Node → List Node → Prop :=
  RunsCapitalized Node.isComment Node.indentation Node.GetsCapital

theorem commentsCapitalized_iff (nodes nodes' : List Node) :
    CommentsCapitalized nodes nodes' ↔ nodes' = mapRunHeads Node.isComment Node.capitalize nodes :=
  runsCapitalized_iff Node.isComment_capitalize (fun n _ => n.indentation_capitalize)
    (fun _ _ h => Node.getsCapital_iff h)

theorem capitalizeComments_capitalizeComments (nodes : List Node) :
    capitalizeComments (capitalizeComments nodes) = capitalizeComments nodes := by
  refine mapLists_mapLists ?_ ?_ nodes
  · exact mapRunHeads_mapRunHeads Node.isComment_capitalize Node.capitalize_capitalize
  · refine mapRuns_map (Node.isComment_mapBodies _) fun run => ?_
    cases run with
    | nil => rfl
    | cons node run => exact congrArg (· :: run.map (Node.mapBodies _)) (node.capitalize_mapBodies _)

end Block

/-! ## Both dialects -/

/-- **The pass capitalizes the first comment of each run, and changes nothing else.**  In a file it does
so in the preamble, in every header and in all raw lines; in blocks it does so in every list of nodes,
bodies first.  A second pass leaves what the first one made as it is. -/
theorem capitalizeComments_iff_capitalizesTo (file file' : SourceFile)
    (nodes nodes' : List Block.Node) :
    (file.capitalizeComments = file' ↔ file.CapitalizesTo file') ∧
    file.capitalizeComments.capitalizeComments = file.capitalizeComments ∧
    (Block.capitalizeComments nodes = nodes' ↔
      Block.ListsTo Block.CommentsCapitalized nodes nodes') ∧
    Block.capitalizeComments (Block.capitalizeComments nodes) = Block.capitalizeComments nodes := by
  refine ⟨?_, file.capitalizeComments_capitalizeComments, ?_,
    Block.capitalizeComments_capitalizeComments nodes⟩
  · rw [SourceFile.capitalizesTo_iff, eq_comm]
  · rw [Block.listsTo_iff Block.commentsCapitalized_iff, eq_comm]
    rfl

end HouseStyle
