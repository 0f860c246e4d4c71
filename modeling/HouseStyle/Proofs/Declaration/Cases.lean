import HouseStyle.Declaration.Cases
import HouseStyle.Proofs.Declaration.CaseLabels
import HouseStyle.Proofs.Declaration.MapText

/-!
# What sorted cases keep

Sorting the labels of a case line leaves a case line of the same depth, and sorting case groups only
moves lines.

* `sortCaseGroups_perm`: the sorted groups hold the lines they held.
* `rawAlike_sortLabels`: a case line with its labels sorted is no closing line.
* `SourceFile.Stable.sortCases`, `SourceFile.CleanText.sortCases`: a stable file stays stable, and the
  lines of a file stay lines of a text.
-/

namespace HouseStyle

open Text Declaration

/-! ## Groups -/

theorem run_append (dent : Nat) (line : String) (below : List String) :
    ((line :: (splitGroup dent below).1) ::
          (leadingGroups dent (splitGroup dent below).2).1).flatten ++
        (leadingGroups dent (splitGroup dent below).2).2 = line :: below := by
  have hmore := leadingGroups_append dent (splitGroup dent below).2
  have hgroup := splitGroup_append dent below
  rw [List.flatten_cons, List.append_assoc, hmore, List.cons_append, hgroup]

theorem sortGroupsAt_perm (dent : Nat) (lines : List String) :
    (sortGroupsAt dent lines).Perm lines := by
  fun_induction sortGroupsAt dent lines with
  | case1 => exact .refl []
  | case2 line below _ group more ih =>
    have hgroups : (sortGroups ((line :: group.1) :: more.1)).flatten.Perm
        ((line :: group.1) :: more.1).flatten :=
      (List.mergeSort_perm _ _).flatten
    rw [← run_append dent line below]
    exact hgroups.append ih
  | case3 line below _ ih => exact ih.cons line

theorem sortCaseGroups_perm (lines : List String) : (sortCaseGroups lines).Perm lines := by
  unfold sortCaseGroups
  generalize caseIndentations lines = dents
  induction dents generalizing lines with
  | nil => exact .refl lines
  | cons dent dents ih => exact (ih _).trans (sortGroupsAt_perm dent lines)

/-! ## Labels -/

theorem sortLabels_eq_some {line line' : String} (h : sortLabels line = some line') :
    startsWith "case " line = true ∧
      ∃ rest, line' = String.ofList (List.replicate (leadingSpaces line) ' ' ++ 'c' :: rest) := by
  unfold sortLabels at h
  split at h
  · cases h
  · next labels tail hlabels =>
    dsimp only at h
    split at h
    · cases h
    · refine ⟨?_, "ase ".toList ++ (joinLabels (sortTexts labels) ++ ' ' :: tail), ?_⟩
      · unfold caseLabels? at hlabels
        split at hlabels
        · assumption
        · cases hlabels
      · rw [← Option.some.inj h, List.append_assoc, List.append_assoc]
        rfl

theorem rawAlike_sortLabels (line : String) : RawAlike line ((sortLabels line).getD line) := by
  cases h : sortLabels line with
  | none => exact .refl line
  | some line' =>
    obtain ⟨hcase, rest, rfl⟩ := sortLabels_eq_some h
    have hne : ('c' :: rest).head? ≠ some ' ' := by simp
    have htext := unindented_ofList (n := leadingSpaces line) hne
    refine ⟨?_, fun dent hcloser => ?_⟩
    · have hold : isBlank line = false := isBlank_of_startsWith (c := 'c') rfl rfl hcase
      have hnew := isBlank_eq_false_of_head (c := 'c') (by rw [htext]; rfl) rfl
      rw [Option.getD_some, indentation_of_not_isBlank hold, indentation_of_not_isBlank hnew,
        leadingSpaces_ofList hne]
    · -- a closing line begins with its brace
      rw [Option.getD_some] at hcloser
      rw [hcloser, unindented_closingLine rfl] at htext
      cases htext

theorem clean_sortLabels {line : String} (h : Clean line) : Clean ((sortLabels line).getD line) := by
  cases hs : sortLabels line with
  | none => exact h
  | some line' => exact clean_of_sortLabels hs h

/-! ## Files -/

/-- The lines with cases sorted are the lines, some with their labels sorted, in another order. -/
theorem exists_of_mem_normalizeCases {lines : List String} {l' : String}
    (h : l' ∈ normalizeCases lines) : ∃ l ∈ lines, l' = (sortLabels l).getD l := by
  obtain ⟨l, hl, rfl⟩ := List.mem_map.1 ((sortCaseGroups_perm _).mem_iff.1 h)
  exact ⟨l, hl, rfl⟩

/-- Raw lines with cases sorted come from the raw lines of the body. -/
theorem linesAlike_normalizeCases (lines : List String) :
    LinesAlike .method lines (normalizeCases lines) := by
  refine ⟨fun l' hl' => ?_, fun hkind => nomatch hkind⟩
  obtain ⟨l, hl, rfl⟩ := exists_of_mem_normalizeCases hl'
  exact ⟨l, hl, rawAlike_sortLabels l⟩

namespace SourceFile

/-- **Sorted cases leave a stable file stable.** -/
theorem Stable.sortCases {file : SourceFile} (h : file.Stable) : file.sortCases.Stable := by
  have hhead : file.sortCases.root.head = file.root.head := head_mapText _
  refine h.of_alike (List.forall₂_same.2 fun l _ => .refl l) ?_ ?_
  · rw [firstLine, Declaration.header, Declaration.signature, hhead]
    exact h.first
  · refine exists_alike_of_mem_mapText (fun c _ => .refl c.head) fun kind lines => ?_
    cases kind with
    | method => exact linesAlike_normalizeCases lines
    | enum | field => exact .refl _ lines

theorem CleanText.sortCases {file : SourceFile} (h : file.CleanText) : file.sortCases.CleanText := by
  refine ⟨h.preamble, cleanText_of_mem_mapText h.declarations (fun _ _ hclean => hclean) ?_⟩
  intro kind lines hlines
  cases kind with
  | method =>
    intro l' hl'
    obtain ⟨l, hl, rfl⟩ := exists_of_mem_normalizeCases hl'
    exact clean_sortLabels (hlines l hl)
  | enum | field => exact hlines

end SourceFile

end HouseStyle
