import HouseStyle.Proofs.Declaration.SortedMembers
import HouseStyle.Proofs.Text.Neighbors

/-!
# What a sorted enum keeps together

The body of an enum is not read any further, and the sort takes its lines for plain texts.  So the
lines of a constant with a body of its own, or a comment and the constant below it, stay together
only where the order of texts happens to agree with it.

* `tied`: the neighbors that belong together by indentation, or because the upper one is a comment.
* `sort_enum_iff`: **the sorted body, and when it keeps together what is tied.**
* `not_forall_subperm_sort_enum`: a constant with a body on two lines is torn.
-/

namespace HouseStyle

open Text

namespace Declaration

/-- The neighbors in the body of an enum that belong together: the lower one is deeper than the
first line of the body, or the upper one is a comment. -/
def tied (body : List String) : List (String × String) :=
  (neighbors body).filter fun p =>
    (Text.indentation p.2).deeper (Text.indentation (body.headD "")) || isComment p.1

/-- **The sort of an enum takes its lines for texts.**  What is tied stays together, each pair as
often as before, exactly if every tied pair of different lines is in increasing order, with no line
of the body between the two and no other tied pair like it. -/
theorem sort_enum_iff (order : CategoryOrder) (head : Head) (body : List String) :
    ∃ sorted, (leaf .enum head body).sort ⟨order, true⟩ = (.leaf .enum head sorted, none) ∧
      sorted.Perm body ∧ sorted.Pairwise (fun a b => (compareTexts a b).isLE = true) ∧
      ((tied body).Subperm (neighbors sorted) ↔
        ∀ p ∈ tied body, p.1 ≠ p.2 → compareTexts p.1 p.2 = .lt ∧
          (∀ l ∈ body, ¬(compareTexts p.1 l = .lt ∧ compareTexts l p.2 = .lt)) ∧
          (tied body).count p = 1) := by
  have hsorted : (sortTexts body).Pairwise fun a b => (compareTexts a b).isLE = true :=
    pairwise_mergeSort compareTexts body
  refine ⟨sortTexts body, rfl, sortTexts_perm body, hsorted, ?_⟩
  exact subperm_neighbors_iff (sortTexts_perm body) hsorted List.filter_sublist

/-- The one constant of an enum, which has a body on two lines, is torn apart. -/
theorem not_forall_subperm_sort_enum :
    ¬∀ (lines : List String) (file : SourceFile), SourceFile.parse lines = .ok file →
      ∀ (head : Head) (body : List String), leaf .enum head body ∈ file.root.postorder →
        ∀ (order : CategoryOrder) (sorted : List String),
          (leaf .enum head body).sort ⟨order, true⟩ = (.leaf .enum head sorted, none) →
            (tied body).Subperm (neighbors sorted) := by
  intro h
  let head : Head := ⟨[], "enum E \x7b"⟩
  let body := ["  A \x7b int f() \x7b", "    return 1; \x7d \x7d;"]
  let sorted := ["    return 1; \x7d \x7d;", "  A \x7b int f() \x7b"]
  have hparse : SourceFile.parse ("enum E \x7b" :: body ++ ["\x7d"]) =
      .ok ⟨[], .leaf .enum head body⟩ := by decide +kernel
  have hlines : sortTexts body = sorted :=
    mergeSort_eq_of_perm (by decide +kernel) (by decide +kernel)
  have hsort : (leaf .enum head body).sort ⟨.default, true⟩ = (.leaf .enum head sorted, none) :=
    congrArg (fun lines => (leaf .enum head lines, none)) hlines
  have hkept := h _ _ hparse head body (self_mem_postorder _) .default sorted hsort
  have htied : ("  A \x7b int f() \x7b", "    return 1; \x7d \x7d;") ∈ tied body := by
    decide +kernel
  exact absurd (hkept.subset htied) (by decide +kernel)

end Declaration

end HouseStyle
