import HouseStyle.Declaration.Pass
import HouseStyle.Proofs.Declaration.SortedMembers

/-!
# What sorted trees keep

A sort that ends without an error moves whole members within their scopes, and the constant lines of
an enum within the enum.  No head changes.

* `exists_alike_of_mem_sort`: the declarations of a sorted tree are alike those of the tree.
* `SourceFile.Stable.sort`: a stable file stays stable.
* `SourceFile.sort_sort`: a sorted file is sorted.
-/

namespace HouseStyle

open Text

namespace Declaration

variable {options : SortOptions}

/-- The declarations of a sorted tree are alike those of the tree and hold the same text. -/
theorem exists_alike_of_mem_sort {d d' : Declaration} (h : SortsTo options d d') :
    ∀ c' ∈ d'.postorder, ∃ c ∈ d.postorder, Alike c c' ∧ c'.texts ⊆ c.texts := by
  induction d using ind generalizing d' with
  | leaf kind head lines =>
    intro c' hc'
    cases h with
    | @enum _ _ lines' ho hl =>
      obtain rfl := mem_postorder_leaf.1 hc'
      have halike : LinesAlike .enum lines lines' :=
        ⟨fun l hmem => ⟨l, hl.perm.mem_iff.1 hmem, .refl l⟩, nofun⟩
      refine ⟨_, self_mem_postorder _, .leaf (.refl head) halike, fun l hmem => ?_⟩
      simp only [texts, List.mem_append, List.mem_cons, hl.perm.mem_iff] at hmem ⊢
      exact hmem
    | leaf ho =>
      obtain rfl := mem_postorder_leaf.1 hc'
      exact ⟨_, self_mem_postorder _, .leaf (.refl head) (.refl kind lines), fun l hmem => hmem⟩
  | scope opener head members ih =>
    intro c' hc'
    cases h with
    | scope hm hk hs =>
      rcases mem_postorder_scope.1 hc' with ⟨m', hm', hc'⟩ | rfl
      · obtain ⟨m, hmem, hsort⟩ := exists_of_mem_of_forall₂ hm (hs.perm.mem_iff.1 hm')
        obtain ⟨c, hc, hcc⟩ := ih m hmem hsort c' hc'
        exact ⟨c, mem_postorder_scope.2 (Or.inl ⟨m, hmem, hc⟩), hcc⟩
      · refine ⟨_, self_mem_postorder _, .scope (.refl head) fun m' hm' => ?_, fun l hmem => hmem⟩
        obtain ⟨m, hmem, hsort⟩ := exists_of_mem_of_forall₂ hm (hs.perm.mem_iff.1 hm')
        refine ⟨m, hmem, ?_⟩
        rw [hsort.head]
        exact .refl m.head

end Declaration

/-! ## Files -/

namespace SourceFile

variable {options : SortOptions} {file file' : SourceFile}

theorem sort_eq_ok_iff : file.sort options = (file', none) ↔
    file'.preamble = file.preamble ∧ file.root.sort options = (file'.root, none) := by
  rw [sort, Prod.mk.injEq]
  constructor
  · rintro ⟨rfl, hnone⟩
    exact ⟨rfl, Prod.ext rfl hnone⟩
  · rintro ⟨hpreamble, hroot⟩
    rw [hroot, ← hpreamble]
    exact ⟨rfl, rfl⟩

/-- **Sorted members leave a stable file stable.** -/
theorem Stable.sort (h : file.Stable) (hs : file.sort options = (file', none)) : file'.Stable := by
  obtain ⟨hpreamble, hroot⟩ := sort_eq_ok_iff.1 hs
  have hsorts := Declaration.sort_eq_ok_iff.1 hroot
  refine h.of_alike ?_ ?_ fun c' hc' => ?_
  · rw [hpreamble]
    exact List.forall₂_same.2 fun l _ => .refl l
  · rw [Declaration.firstLine, Declaration.header, Declaration.signature, hsorts.head]
    exact h.first
  · obtain ⟨c, hc, halike, -⟩ := Declaration.exists_alike_of_mem_sort hsorts c' hc'
    exact ⟨c, hc, halike⟩

theorem CleanText.sort (h : file.CleanText) (hs : file.sort options = (file', none)) :
    file'.CleanText := by
  obtain ⟨hpreamble, hroot⟩ := sort_eq_ok_iff.1 hs
  have hsorts := Declaration.sort_eq_ok_iff.1 hroot
  refine ⟨by rw [hpreamble]; exact h.preamble, fun c' hc' l hl => ?_⟩
  obtain ⟨c, hc, -, htexts⟩ := Declaration.exists_alike_of_mem_sort hsorts c' hc'
  exact h.declarations c hc l (htexts hl)

theorem sort_sort (hs : file.sort options = (file', none)) :
    file'.sort options = (file', none) := by
  obtain ⟨-, hroot⟩ := sort_eq_ok_iff.1 hs
  exact sort_eq_ok_iff.2 ⟨rfl, Declaration.sort_sort hroot⟩

end SourceFile

end HouseStyle
