import HouseStyle.Declaration.CommentCase
import HouseStyle.Proofs.Declaration.MapText
import HouseStyle.Proofs.Text.Comment
import HouseStyle.Proofs.Text.Runs

/-!
# What capitalized comments keep

A comment stays a comment of the same depth, and one that has its capital letter is left alone.

* `forall₂_capitalizeRuns`: line by line, nothing changes but comments.
* `capitalizeRuns_capitalizeRuns`, `capitalizeComments_capitalizeComments`: comments are capitalized
  once.
* `SourceFile.Stable.capitalizeComments`: a stable file stays stable.
-/

namespace HouseStyle

open Text Declaration

/-! ## Lines -/

/-- The line with its comment capitalized. -/
def withCapital (line : String) : String := (capitalizeComment line).getD line

theorem isComment_of_unindented {line : String} {text : List Char}
    (h : unindented line = "// ".toList ++ text) : isComment line = true := by
  rw [isComment, startsWith, h]
  rfl

theorem lineAlike_withCapital (line : String) : LineAlike line (withCapital line) := by
  unfold withCapital
  cases h : capitalizeComment line with
  | none => exact .refl line
  | some line' =>
    obtain ⟨c, rest, hline, -, hline', hspaces⟩ :=
      unindented_of_capitalizeAfter (m := '/') rfl (by decide) h
    exact Or.inr ⟨isComment_of_unindented hline, isComment_of_unindented hline', hspaces⟩

theorem withCapital_withCapital (line : String) :
    withCapital (withCapital line) = withCapital line := by
  cases h : capitalizeComment line with
  | none => simp only [withCapital, h, Option.getD_none]
  | some line' =>
    have hnone : capitalizeComment line' = none :=
      capitalizeAfter_of_eq_some (m := '/') rfl (by decide) h
    simp only [withCapital, h, Option.getD_some, hnone, Option.getD_none]

theorem clean_withCapital {line : String} (h : Clean line) : Clean (withCapital line) := by
  unfold withCapital
  cases hc : capitalizeComment line with
  | none => exact h
  | some line' => exact clean_of_capitalizeAfter (by decide) hc h

/-! ## Runs -/

/-- Line by line, nothing changes but comments. -/
theorem forall₂_capitalizeRuns (lines : List String) :
    List.Forall₂ LineAlike lines (capitalizeRuns lines) :=
  forall₂_mapRunHeads .refl (fun l _ => lineAlike_withCapital l) lines

theorem capitalizeRuns_capitalizeRuns (lines : List String) :
    capitalizeRuns (capitalizeRuns lines) = capitalizeRuns lines :=
  mapRunHeads_mapRunHeads (fun l => (lineAlike_withCapital l).isComment_eq)
    withCapital_withCapital lines

theorem clean_capitalizeRuns {lines : List String} (h : ∀ l ∈ lines, Clean l) :
    ∀ l ∈ capitalizeRuns lines, Clean l :=
  forall_mem_mapRunHeads (P := Clean) (fun _ => clean_withCapital) h

theorem linesAlike_of_forall₂ (kind : LeafKind) {ls ls' : List String}
    (h : List.Forall₂ LineAlike ls ls') : LinesAlike kind ls ls' := by
  refine ⟨fun l' hl' => ?_, fun _ => ?_⟩
  · obtain ⟨l, hl, hll⟩ := exists_of_mem_of_forall₂ h hl'
    exact ⟨l, hl, hll.rawAlike⟩
  · cases h with
    | nil => exact ⟨rfl, fun _ => rfl⟩
    | cons hll _ => exact ⟨hll.isOpener_eq, fun he => nomatch he⟩

/-! ## Files -/

/-- The head with its comments capitalized. -/
def Head.capitalize (head : Head) : Head := { head with header := capitalizeRuns head.header }

theorem headAlike_capitalize (head : Head) : HeadAlike head head.capitalize :=
  ⟨forall₂_capitalizeRuns head.header, .refl head.signature⟩

namespace SourceFile

variable {file : SourceFile}

/-- **Capitalized comments leave a stable file stable.** -/
theorem Stable.capitalizeComments (h : file.Stable) : file.capitalizeComments.Stable := by
  have hhead : file.capitalizeComments.root.head = file.root.head.capitalize := head_mapText _
  refine h.of_alike (forall₂_capitalizeRuns _) ?_ ?_
  · have hheader : file.capitalizeComments.root.header = capitalizeRuns file.root.header :=
      congrArg Head.header hhead
    have hsignature : file.capitalizeComments.root.signature = file.root.signature := by
      rw [Declaration.signature, hhead]
      rfl
    refine isPreamble_firstLine ?_ (by rw [hsignature]; exact id) h.first
    rw [hheader]
    exact forall₂_capitalizeRuns _
  · exact exists_alike_of_mem_mapText (fun c _ => headAlike_capitalize c.head)
      fun kind lines => linesAlike_of_forall₂ kind (forall₂_capitalizeRuns lines)

theorem capitalizeComments_capitalizeComments (file : SourceFile) :
    file.capitalizeComments.capitalizeComments = file.capitalizeComments := by
  have hhead : ∀ head : Head, head.capitalize.capitalize = head.capitalize := by
    intro head
    rw [Head.capitalize, Head.capitalize, capitalizeRuns_capitalizeRuns]
  have hroot := mapText_mapText hhead
    (fun (_ : LeafKind) lines => capitalizeRuns_capitalizeRuns lines) file.root
  have hpreamble := capitalizeRuns_capitalizeRuns file.preamble
  exact SourceFile.mk.injEq .. ▸ ⟨hpreamble, hroot⟩

theorem CleanText.capitalizeComments (h : file.CleanText) : file.capitalizeComments.CleanText := by
  refine ⟨clean_capitalizeRuns h.preamble, ?_⟩
  refine cleanText_of_mem_mapText h.declarations (fun c _ hc l hl => ?_)
    fun _ _ => clean_capitalizeRuns
  rcases List.mem_append.1 hl with hl | hl
  · exact clean_capitalizeRuns (fun l hl => hc l (List.mem_append_left _ hl)) l hl
  · exact hc l (List.mem_append_right _ hl)

end SourceFile

end HouseStyle
