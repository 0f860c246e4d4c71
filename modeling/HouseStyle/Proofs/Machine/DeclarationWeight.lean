import HouseStyle.Declaration.Pass
import HouseStyle.Proofs.Declaration.CodeLines
import HouseStyle.Proofs.Declaration.SortedMembers
import HouseStyle.Proofs.Machine.Cases
import HouseStyle.Proofs.Machine.Weight

/-!
# The weight of declarations

A file that was read weighs no more than its lines, a pass makes it at most eleven times as heavy,
and what is written weighs at most four times as much as the file.

* `bulk`, `fileBulk`: the weight of all lines of a tree and of a file.
* `fileBulk_le_of_parse`, `fileBulk_apply_le`, `weight_compose_le`: **what reading, a pass and
  writing do to it.**
-/

namespace HouseStyle.Machine

open Text Declaration

variable {d : Declaration} {kind : LeafKind} {head : Head} {lines : List String}
  {opener : Option String} {members : List Declaration} {file : SourceFile} {line line' : String}

/-- The weight of all lines of a tree. -/
def bulk (d : Declaration) : Nat := weight (d.postorder.flatMap texts)

/-- The weight of all lines of a file. -/
def fileBulk (file : SourceFile) : Nat := weight file.preamble + bulk file.root

theorem bulk_leaf : bulk (.leaf kind head lines) =
    weight head.header + (size head.signature.toList + 1 + weight lines) := by
  rw [bulk, postorder, List.flatMap_singleton, texts, weight_append, weight_cons]

theorem weight_flatMap {α : Type} (f : α → List String) (xs : List α) :
    weight (xs.flatMap f) = (xs.map fun x => weight (f x)).sum := by
  rw [List.flatMap_def, weight_flatten, List.map_map]
  rfl

theorem bulk_scope : bulk (.scope opener head members) =
    (members.map bulk).sum +
      (weight head.header + (size head.signature.toList + 1 + weight opener.toList)) := by
  have hmembers : (members.flatMap postorder).flatMap texts =
      members.flatMap fun m => m.postorder.flatMap texts := List.flatMap_assoc
  rw [bulk, postorder, postorderAll_eq_flatMap, List.flatMap_append, List.flatMap_singleton,
    weight_append, hmembers, weight_flatMap, texts, weight_append, weight_cons]
  rfl

theorem weight_texts_le {c : Declaration} (h : c ∈ d.postorder) : weight c.texts ≤ bulk d := by
  obtain ⟨front, back, hsplit⟩ := List.append_of_mem h
  rw [bulk, hsplit, List.flatMap_append, List.flatMap_cons, weight_append, weight_append]
  omega

theorem sum_map_le {f g : Declaration → Nat} {k : Nat} (h : ∀ m ∈ members, f m ≤ k * g m) :
    (members.map f).sum ≤ k * (members.map g).sum := by
  induction members with
  | nil => exact Nat.zero_le _
  | cons m ms ih =>
    obtain ⟨hm, hms⟩ := List.forall_mem_cons.1 h
    have ih := ih hms
    rw [List.map_cons, List.sum_cons, List.map_cons, List.sum_cons, Nat.mul_add]
    omega

/-! ## Reading -/

theorem bulk_le_sourceLines : bulk d ≤ weight d.sourceLines := by
  induction d using ind with
  | leaf kind head lines =>
    rw [bulk_leaf, sourceLines, weight_append, weight_cons, weight_append]
    omega
  | scope opener head members ih =>
    have hmembers : (members.map bulk).sum ≤
        1 * (members.map fun m => weight m.sourceLines).sum :=
      sum_map_le fun m hm => by rw [Nat.one_mul]; exact ih m hm
    rw [bulk_scope, sourceLines, weight_append, weight_cons, weight_append, weight_append,
      sourceLinesAll_eq_flatMap, weight_flatMap]
    omega

theorem fileBulk_le_of_parse (h : SourceFile.parse lines = .ok file) :
    fileBulk file ≤ weight lines := by
  have hcode := congrArg weight (codeLines_of_parse h)
  have hroot := bulk_le_sourceLines (d := file.root)
  have hsub : weight (codeLines lines) ≤ weight lines := weight_sublist List.filter_sublist
  rw [weight_append] at hcode
  rw [fileBulk]
  omega

/-! ## Passes -/

/-- What changes heads and lines by no more than a factor changes a tree by no more than that. -/
theorem bulk_mapText_le {onHead : Head → Head} {onLines : LeafKind → List String → List String}
    {k : Nat} (hk : 1 ≤ k)
    (hhead : ∀ head, weight ((onHead head).header ++ [(onHead head).signature]) ≤
      k * weight (head.header ++ [head.signature]))
    (hlines : ∀ kind lines, weight (onLines kind lines) ≤ k * weight lines) :
    bulk (d.mapText onHead onLines) ≤ k * bulk d := by
  simp only [weight_append, weight_singleton] at hhead
  induction d using ind with
  | leaf kind head lines =>
    have hhead := hhead head
    have hlines := hlines kind lines
    rw [mapText, bulk_leaf, bulk_leaf, ← Nat.add_assoc, ← Nat.add_assoc (weight head.header),
      Nat.mul_add]
    omega
  | scope opener head members ih =>
    have hhead := hhead head
    have hmembers := sum_map_le ih
    have hopener := Nat.le_mul_of_pos_left (weight opener.toList) hk
    rw [mapText_scope, bulk_scope, bulk_scope, List.map_map, ← Nat.add_assoc,
      ← Nat.add_assoc (weight head.header), Nat.mul_add, Nat.mul_add]
    simp only [Function.comp_def]
    omega

/-- The sort loses no line and makes none. -/
theorem flatMap_texts_sort_perm (options : SortOptions) (d : Declaration) :
    ((d.sort options).1.postorder.flatMap texts).Perm (d.postorder.flatMap texts) := by
  induction d using ind with
  | leaf kind head lines =>
    have hlines : (sortLines options kind lines).Perm lines := by
      cases kind with
      | enum =>
        rw [sortLines]
        split
        · exact List.mergeSort_perm _ _
        · exact .refl _
      | field | method => exact .refl _
    simp only [Declaration.sort, postorder, List.flatMap_singleton, texts]
    exact .append (.refl _) (hlines.cons _)
  | scope opener head members ih =>
    obtain ⟨members', hsort, hperm⟩ := exists_sort_scope options opener head members
    have hmembers := (hperm.flatMap_right fun m => m.postorder.flatMap texts).trans
      (flatMap_sortEach_perm ih)
    simp only [hsort, postorder, postorderAll_eq_flatMap, List.flatMap_append, List.flatMap_assoc]
    exact hmembers.append (.refl _)

theorem size_insertVisibility_le (modifier : Visibility) (line : String) :
    size (insertVisibility modifier line).toList ≤ size line.toList + 10 := by
  have hkeyword : size modifier.keyword.toList + size [' '] ≤ 10 := by cases modifier <;> decide
  unfold insertVisibility
  split
  · omega
  · rw [size_line line]
    simp only [String.toList_ofList, size_append, size_cons, size_replicate_space,
      size_nil] at hkeyword ⊢
    omega

theorem weight_capitalizeRuns (lines : List String) :
    weight (capitalizeRuns lines) = weight lines := by
  have hline : ∀ l, size ((capitalizeComment l).getD l).toList = size l.toList := fun l => by
    cases h : capitalizeComment l with
    | none => rfl
    | some l' => exact size_capitalizeAfter h
  have hall : List.Forall₂ (fun l l' : String => size l'.toList = size l.toList) lines
      (capitalizeRuns lines) := by
    refine forall₂_mapRunHeads ?_ ?_ lines
    · exact fun _ => rfl
    · exact fun l _ => hline l
  exact weight_eq_of_forall₂ hall

/-- A line grows by at most one byte for each label when its labels are in order. -/
theorem size_joinLabels_le (labels : List String) :
    size (joinLabels labels) ≤ (labels.map fun label => size label.toList + 2).sum := by
  induction labels with
  | nil => exact Nat.le_refl 0
  | cons label labels ih =>
    cases labels with
    | nil => simp [joinLabels]
    | cons next labels =>
      have hcomma : size ", ".toList = 2 := by decide
      have hcons : joinLabels (label :: next :: labels) =
          label.toList ++ (", ".toList ++ joinLabels (next :: labels)) := by simp [joinLabels]
      rw [hcons, size_append, size_append, List.map_cons, List.sum_cons]
      omega

theorem size_intercalate {pieces : List (List Char)} (hne : pieces ≠ []) :
    size ([','].intercalate pieces) + 1 = (pieces.map fun piece => size piece + 1).sum := by
  induction pieces with
  | nil => exact absurd rfl hne
  | cons piece pieces ih =>
    cases pieces with
    | nil => simp
    | cons next pieces =>
      have ih := ih (List.cons_ne_nil _ _)
      have hcomma : size [','] = 1 := by decide
      rw [List.intercalate_cons_cons, size_append, size_append, List.map_cons, List.sum_cons, ← ih]
      omega

theorem sum_size_labels_le (pieces : List (List Char)) :
    ((pieces.map fun piece => String.ofList (trim piece)).map fun label =>
      size label.toList + 2).sum ≤ 2 * (pieces.map fun piece => size piece + 1).sum := by
  induction pieces with
  | nil => exact Nat.le_refl 0
  | cons piece pieces ih =>
    have htrim := size_trim_le piece
    simp only [List.map_cons, List.sum_cons, String.toList_ofList] at ih ⊢
    omega

theorem size_sortLabels_le (h : sortLabels line = some line') :
    size line'.toList ≤ 2 * size line.toList := by
  unfold sortLabels caseLabels? at h
  cases hcase : startsWith "case " line with
  | false => simp [hcase] at h
  | true =>
    obtain ⟨rest, hrest⟩ := List.isPrefixOf_iff_prefix.1 hcase
    have hdrop : (unindented line).drop 5 = rest := by rw [← hrest]; rfl
    rw [hcase, if_pos rfl, hdrop] at h
    cases hcut : cutBeforeArrow (mark rest) with
    | none => simp [hcut] at h
    | some cut =>
      obtain ⟨pieces, tail⟩ := cut
      simp only [hcut, Option.map_some] at h
      split at h
      · cases h
      · obtain ⟨hne, hunmark⟩ := unmark_of_cutBeforeArrow hcut
        have hkeyword : size "case ".toList = 5 := by decide
        have hspace : ' '.utf8Size = 1 := by decide
        have hline := size_line line
        have hjoin := size_joinLabels_le
          (sortTexts (pieces.map fun piece => String.ofList (trim piece)))
        have hsorted := ((List.mergeSort_perm (pieces.map fun piece => String.ofList (trim piece))
          fun a b => (compareTexts a b).isLE).map fun label => size label.toList + 2).sum_eq
        have hlabels := sum_size_labels_le pieces
        rw [← size_intercalate hne] at hlabels
        rw [mark, unmark_markFrom] at hunmark
        rw [← hrest, hunmark] at hline
        cases h
        rw [sortTexts] at hjoin ⊢
        simp only [String.toList_ofList, size_append, size_cons, size_replicate_space] at hline ⊢
        omega

theorem weight_normalizeCases_le (lines : List String) :
    weight (normalizeCases lines) ≤ 2 * weight lines := by
  rw [normalizeCases, weight_perm (sortCaseGroups_perm _)]
  refine weight_map_le fun l _ => ?_
  cases h : sortLabels l with
  | none =>
    rw [Option.getD_none]
    omega
  | some l' =>
    have hsize := size_sortLabels_le h
    rw [Option.getD_some]
    omega

/-- **No pass makes a file more than eleven times as heavy.** -/
theorem fileBulk_apply_le (pass : Pass) (file : SourceFile) :
    fileBulk (pass.apply file).1 ≤ 11 * fileBulk file := by
  unfold fileBulk
  cases pass with
  | sort options =>
    have hroot : bulk (file.root.sort options).1 = bulk file.root :=
      weight_perm (flatMap_texts_sort_perm options file.root)
    simp only [Pass.apply, SourceFile.sort, hroot]
    omega
  | visibility modifier =>
    have hroot : bulk (file.root.mapText (Head.withVisibility modifier) fun _ lines => lines) ≤
        11 * bulk file.root := by
      refine bulk_mapText_le (by omega) (fun head => ?_) fun _ lines => by omega
      have hsize := size_insertVisibility_le modifier head.signature
      simp only [Head.withVisibility, weight_append, weight_singleton]
      omega
    simp only [Pass.apply, SourceFile.withVisibility, SourceFile.mapText, id_eq]
    omega
  | comments =>
    have hroot : bulk (file.capitalizeComments.root) ≤ 1 * bulk file.root := by
      refine bulk_mapText_le (Nat.le_refl 1) (fun head => ?_) fun _ lines => ?_
      · simp only [weight_append, weight_capitalizeRuns, Nat.one_mul, Nat.le_refl]
      · rw [weight_capitalizeRuns, Nat.one_mul]
    have hpreamble := weight_capitalizeRuns file.preamble
    simp only [Pass.apply, SourceFile.capitalizeComments, SourceFile.mapText] at hroot ⊢
    omega
  | cases =>
    have hroot : bulk file.sortCases.root ≤ 2 * bulk file.root := by
      refine bulk_mapText_le (by omega) (fun head => ?_) fun kind lines => ?_
      · rw [id_eq]
        omega
      · cases kind with
        | method => exact weight_normalizeCases_le lines
        | enum | field =>
          show weight lines ≤ 2 * weight lines
          omega
    simp only [Pass.apply, SourceFile.sortCases, SourceFile.mapText, id_eq] at hroot ⊢
    omega

/-! ## Writing -/

theorem weight_gap_le (before : Option Neighbor) (next : Neighbor) : weight (gap before next) ≤ 1 := by
  unfold gap
  split
  · split <;> decide
  · decide

theorem leadingSpaces_le_size (line : String) : leadingSpaces line ≤ size line.toList := by
  rw [size_line]
  exact Nat.le_add_right _ _

theorem weight_closing_le (endings : List Char) (line : String) :
    weight (closing endings line) ≤ size line.toList + 2 := by
  have hdent := leadingSpaces_le_size line
  have hbrace : size "\x7d".toList = 1 := by decide
  unfold closing
  split
  · exact Nat.zero_le _
  · rw [weight_singleton, closingLine, String.toList_ofList, size_append, size_replicate_space]
    omega

theorem weight_composeBody_le (before : Option Neighbor) (lines : List String) :
    weight (composeBody before lines) ≤ 2 * weight lines := by
  induction lines generalizing before with
  | nil => exact Nat.zero_le _
  | cons line lines ih =>
    have hgap := weight_gap_le before (.line line)
    have hlines := ih (some (.line line))
    rw [composeBody, weight_append, weight_cons, weight_cons]
    omega

theorem weight_composeLeaf_le (kind : LeafKind) (line : String) (lines : List String) :
    weight (composeLeaf kind line lines) ≤ 2 * weight lines + (size line.toList + 2) := by
  cases kind with
  | enum =>
    have hlast := weight_closing_le ['\x7d'] line
    rw [composeLeaf, weight_append]
    omega
  | field =>
    rw [composeLeaf]
    omega
  | method =>
    have hbody := weight_composeBody_le none lines
    have hlast := weight_closing_le [';', '\x7d'] line
    rw [composeLeaf, weight_append]
    omega

theorem weight_composeClosing_le (opener : Option String) (line : String) :
    weight (composeClosing opener line) ≤ size line.toList + 2 + 3 * weight opener.toList := by
  cases opener with
  | none => exact weight_closing_le ['\x7d'] line
  | some opener =>
    have hdent := leadingSpaces_le_size opener
    have hbrace : size "\x7d;".toList = 2 := by decide
    rw [composeClosing, weight_singleton, closingLine, String.toList_ofList, size_append,
      size_replicate_space, Option.toList_some, weight_singleton]
    omega

theorem weight_composeMembers_le {ds : List Declaration}
    (h : ∀ d ∈ ds, weight d.compose + 1 ≤ 4 * bulk d) (before : Option Neighbor) :
    weight (composeMembers before ds) ≤ 4 * (ds.map bulk).sum := by
  induction ds generalizing before with
  | nil =>
    rw [composeMembers]
    exact Nat.zero_le _
  | cons d ds ih =>
    obtain ⟨hd, hds⟩ := List.forall_mem_cons.1 h
    have hgap := weight_gap_le before d.neighbor
    have hmore := ih hds (some d.neighbor)
    rw [composeMembers, weight_append, weight_append, List.map_cons, List.sum_cons]
    omega

/-- A tree is written, with the blank line in front of it, at no more than four times its weight. -/
theorem weight_compose_succ_le : weight d.compose + 1 ≤ 4 * bulk d := by
  induction d using ind with
  | leaf kind head lines =>
    have hbody := weight_composeLeaf_le kind head.signature lines
    rw [compose, bulk_leaf, weight_append, weight_cons]
    omega
  | scope opener head members ih =>
    have hmembers := weight_composeMembers_le ih none
    have hlast := weight_composeClosing_le opener head.signature
    rw [compose, bulk_scope, weight_append, weight_cons, weight_append, weight_append]
    omega

/-- **What is written weighs at most four times as much as the file.** -/
theorem weight_compose_le (file : SourceFile) : weight file.compose ≤ 4 * fileBulk file := by
  have hroot := weight_compose_succ_le (d := file.root)
  rw [SourceFile.compose, fileBulk, weight_append]
  omega

end HouseStyle.Machine
