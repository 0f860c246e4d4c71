import HouseStyle.Declaration.Cases
import HouseStyle.Proofs.Text.Line
import HouseStyle.Proofs.Text.Lines
import HouseStyle.Proofs.Text.Literal
import HouseStyle.Proofs.Text.Order

/-!
# Sorted case labels

The labels of a case are cut out of its line at the commas of its code and put back in order, each
behind one space.  A label leaves no literal open, so the new line is cut between the same labels.

* `IsCaseCut`, `caseLabels?_eq_some_iff`: the pieces of a case line.
* `spaced`: the pieces of a line that labels were put back into.
* `clean_of_sortLabels`: a case line with its labels in order can be cut from a text.
* `sortLabels_eq_none_iff`, `sortLabels_of_eq_some`: which labels stay, and that sorted ones do.
* `sortLabels_isCaseCut`: **labels are sorted in place**, and nothing else of the line changes.
-/

namespace HouseStyle

open Text

variable {line : String} {dent : Nat} {labels : List String} {pieces : List (List Char)}
  {front tail : List Char}

/-- The label that a piece of a case line holds. -/
def labelOf (piece : List Char) : String := String.ofList (trim piece)

/-- Whether a line is a case of an indentation, cut at the commas of its code into the given pieces,
and from its first arrow on the given text. -/
def IsCaseCut (dent : Nat) (line : String) (pieces : List (List Char)) (tail : List Char) : Prop :=
  ∃ text, line.toList = List.replicate dent ' ' ++ ("case ".toList ++ text) ∧
    IsCut text pieces tail

/-! ## Cut lines -/

theorem IsCaseCut.unindented_eq (h : IsCaseCut dent line pieces tail) :
    leadingSpaces line = dent ∧ ∃ text, unindented line = "case ".toList ++ text ∧
      IsCut text pieces tail := by
  obtain ⟨text, hline, hcut⟩ := h
  have hne : ("case ".toList ++ text).head? ≠ some ' ' := by simp
  rw [← String.ofList_toList (s := line), hline, leadingSpaces_ofList hne, unindented_ofList hne]
  exact ⟨rfl, text, rfl, hcut⟩

theorem startsWith_case_iff : startsWith "case " line = true ↔
    ∃ text, unindented line = "case ".toList ++ text := by
  rw [startsWith, List.isPrefixOf_iff_prefix]
  exact exists_congr fun text => eq_comm

/-- The labels of a line are what its pieces hold. -/
theorem caseLabels?_eq_some_iff : caseLabels? line = some (labels, tail) ↔
    ∃ pieces, labels = pieces.map labelOf ∧ IsCaseCut (leadingSpaces line) line pieces tail := by
  constructor
  · intro h
    unfold caseLabels? at h
    split at h
    · next hcase =>
      obtain ⟨text, htext⟩ := startsWith_case_iff.1 hcase
      rw [htext, Option.map_eq_some_iff] at h
      obtain ⟨⟨pieces, tail'⟩, hcut, h⟩ := h
      cases h
      refine ⟨pieces, rfl, text, ?_, cutBeforeArrow_eq_some_iff.1 hcut⟩
      rw [← htext, ← toList_eq_indented]
    · cases h
  · rintro ⟨pieces, rfl, h⟩
    obtain ⟨-, text, htext, hcut⟩ := h.unindented_eq
    have hdrop : ("case ".toList ++ text).drop 5 = text := rfl
    rw [caseLabels?, if_pos (startsWith_case_iff.2 ⟨text, htext⟩), htext, hdrop, hcut.cutBeforeArrow_eq]
    rfl

theorem hasArrow_cons {c : Char} (hc : isQuote c = false) (hdash : c ≠ '-') (text : List Char) :
    hasArrow (c :: text) = hasArrow text := by
  rw [hasArrow, mark, markFrom_code hc, cutBeforeArrow_code, if_neg fun h => hdash h.1]
  split <;> exact Option.isSome_map

theorem IsCaseCut.isCaseAt (h : IsCaseCut dent line pieces tail) : isCaseAt dent line = true := by
  obtain ⟨hdent, text, htext, hcut⟩ := h.unindented_eq
  have hcase := startsWith_case_iff.2 ⟨text, htext⟩
  have harrow : hasArrow (unindented line) = true := by
    rw [htext]
    show hasArrow ('c' :: 'a' :: 's' :: 'e' :: ' ' :: text) = true
    repeat rw [hasArrow_cons rfl (by decide)]
    rw [hasArrow, hcut.cutBeforeArrow_eq]
    rfl
  rw [HouseStyle.isCaseAt, isCaseLine, hcase, harrow,
    indentation_of_not_isBlank (isBlank_of_startsWith (c := 'c') rfl rfl hcase), hdent]
  simp

/-! ## Lines put together -/

/-- The pieces of a line that some labels were put back into: all but the first begin with a space,
and the last one ends with one. -/
def spaced (front : List Char) : List String → List (List Char)
  | [] => []
  | [label] => [front ++ (label.toList ++ [' '])]
  | label :: next :: labels => (front ++ (label.toList ++ [])) :: spaced [' '] (next :: labels)

theorem joinLabels_cons_cons (label next : String) (labels : List String) :
    joinLabels (label :: next :: labels) =
      label.toList ++ (", ".toList ++ joinLabels (next :: labels)) := by
  simp [joinLabels]

theorem intercalate_spaced (front : List Char) (h : labels ≠ []) :
    [','].intercalate (spaced front labels) = front ++ joinLabels labels ++ [' '] := by
  induction labels generalizing front with
  | nil => exact absurd rfl h
  | cons label labels ih =>
    cases labels with
    | nil => simp [spaced, joinLabels, List.intercalate]
    | cons next labels =>
      have hmore := ih [' '] (List.cons_ne_nil _ _)
      obtain ⟨piece, pieces, hp⟩ : ∃ piece pieces, spaced [' '] (next :: labels) = piece :: pieces := by
        cases labels <;> exact ⟨_, _, rfl⟩
      rw [spaced, joinLabels_cons_cons, hp, List.intercalate_cons_cons, ← hp, hmore]
      simp

theorem forall₂_spaced {r : List Char → String → Prop} (hf : ∀ c ∈ front, isSpace c = true)
    (h : ∀ label ∈ labels, ∀ before after : List Char, (∀ c ∈ before, isSpace c = true) →
      (∀ c ∈ after, isSpace c = true) → r (before ++ (label.toList ++ after)) label) :
    List.Forall₂ r (spaced front labels) labels := by
  induction labels generalizing front with
  | nil => exact .nil
  | cons label labels ih =>
    obtain ⟨hlabel, hlabels⟩ := List.forall_mem_cons.1 h
    cases labels with
    | nil => exact .cons (hlabel _ _ hf (by simp)) .nil
    | cons next labels => exact .cons (hlabel _ _ hf (by simp)) (ih (by simp) hlabels)

/-- A line that labels were put back into is cut between these labels. -/
theorem isCaseCut_spaced (dent : Nat) (hne : labels ≠ [])
    (hl : ∀ label ∈ labels, ∃ piece, label = labelOf piece ∧ IsPiece none piece)
    (ht : "->".toList <+: tail) :
    labels = (spaced [] labels).map labelOf ∧
      IsCaseCut dent (String.ofList (List.replicate dent ' ' ++ "case ".toList ++
        joinLabels labels ++ ' ' :: tail)) (spaced [] labels) tail := by
  have hpieces : List.Forall₂ (fun piece label => IsPiece none piece ∧ label = labelOf piece)
      (spaced [] labels) labels := by
    refine forall₂_spaced (by simp) fun label hlabel before after hb ha => ?_
    obtain ⟨piece, rfl, hpiece⟩ := hl label hlabel
    rw [labelOf, labelOf, String.toList_ofList, trim_append_trim hb ha]
    exact ⟨hpiece.trim_spaces hb ha, rfl⟩
  obtain ⟨hpiece, hlabels⟩ := (List.forall₂_and_left _ _).1 hpieces
  refine ⟨(forall₂_iff_eq_map fun _ _ _ => Iff.rfl).1 hlabels,
    joinLabels labels ++ ' ' :: tail, ?_, ?_, hpiece, ht, ?_⟩
  · simp
  · exact fun hnil => hne (by simpa [hnil] using hlabels)
  · rw [intercalate_spaced [] hne]
    simp

/-! ## Sorted labels -/

/-- The pieces of a line whose labels get sorted, and those of the line it becomes. -/
theorem isCaseCut_of_sortLabels {sorted : String} (h : sortLabels line = some sorted) :
    ∃ pieces pieces' tail, IsCaseCut (leadingSpaces line) line pieces tail ∧
      IsCaseCut (leadingSpaces line) sorted pieces' tail ∧
      pieces'.map labelOf = sortTexts (pieces.map labelOf) := by
  unfold sortLabels at h
  split at h
  · cases h
  next labels tail hlabels =>
  obtain ⟨pieces, rfl, hcut⟩ := caseLabels?_eq_some_iff.1 hlabels
  dsimp only at h
  split at h
  · cases h
  cases h
  obtain ⟨-, text, -, hne, hpiece, harrow, -⟩ := hcut.unindented_eq
  have hperm := sortTexts_perm (pieces.map labelOf)
  have hsorted : sortTexts (pieces.map labelOf) ≠ [] := by
    intro hnil
    rw [hnil, List.nil_perm, List.map_eq_nil_iff] at hperm
    exact hne hperm
  have hl : ∀ label ∈ sortTexts (pieces.map labelOf), ∃ piece, label = labelOf piece ∧
      IsPiece none piece := by
    intro label hlabel
    obtain ⟨piece, hmem, rfl⟩ := List.mem_map.1 (hperm.mem_iff.1 hlabel)
    exact ⟨piece, rfl, hpiece piece hmem⟩
  obtain ⟨hmap, hcut'⟩ := isCaseCut_spaced (leadingSpaces line) hsorted hl harrow
  exact ⟨pieces, _, tail, hcut, hcut', hmap.symm⟩

theorem subset_intercalate {piece : List Char} (h : piece ∈ pieces) :
    piece ⊆ [','].intercalate pieces := by
  induction pieces with
  | nil => cases h
  | cons first pieces ih =>
    cases pieces with
    | nil => simp [List.mem_singleton.1 h]
    | cons next pieces =>
      rw [List.intercalate_cons_cons]
      rcases List.mem_cons.1 h with rfl | h
      · exact fun c hc => by simp [hc]
      · exact fun c hc => List.mem_append_right _ (ih h hc)

theorem mem_joinLabels {c : Char} (h : c ∈ joinLabels labels) :
    c ∈ ", ".toList ∨ ∃ label ∈ labels, c ∈ label.toList := by
  induction labels with
  | nil => simp [joinLabels] at h
  | cons label labels ih =>
    cases labels with
    | nil => exact Or.inr ⟨label, List.mem_cons_self, by simpa [joinLabels] using h⟩
    | cons next labels =>
      rw [joinLabels_cons_cons, List.mem_append, List.mem_append] at h
      rcases h with h | h | h
      · exact Or.inr ⟨label, List.mem_cons_self, h⟩
      · exact Or.inl h
      · exact (ih h).imp_right fun ⟨l, hl, hc⟩ => ⟨l, List.mem_cons_of_mem _ hl, hc⟩

theorem clean_of_sortLabels {sorted : String} (h : sortLabels line = some sorted)
    (hclean : Clean line) : Clean sorted := by
  unfold sortLabels at h
  split at h
  · cases h
  next labels tail hlabels =>
  obtain ⟨pieces, rfl, text, hline, -, -, ⟨rest, rfl⟩, rfl⟩ := caseLabels?_eq_some_iff.1 hlabels
  dsimp only at h
  split at h
  · cases h
  cases h
  have hfeed := hclean.feed
  have hlast := hclean.last
  rw [hline] at hfeed hlast
  have hlabel : ∀ label ∈ sortTexts (pieces.map labelOf), '\n' ∉ label.toList := by
    intro label hlabel hn
    obtain ⟨piece, hmem, rfl⟩ := List.mem_map.1 ((sortTexts_perm _).mem_iff.1 hlabel)
    rw [labelOf, String.toList_ofList] at hn
    have hpiece := subset_intercalate hmem (trim_subset piece hn)
    exact hfeed (by simp [hpiece])
  have hjoin : '\n' ∉ joinLabels (sortTexts (pieces.map labelOf)) := by
    intro hn
    rcases mem_joinLabels hn with hn | ⟨label, hmem, hn⟩
    · exact absurd hn (by decide)
    · exact hlabel label hmem hn
  constructor
  · simp only [String.toList_ofList, List.mem_append, List.mem_cons, not_or] at hfeed ⊢
    exact ⟨⟨⟨hfeed.1, hfeed.2.1⟩, hjoin⟩, by decide, hfeed.2.2.2⟩
  · -- the arrow and what follows it stand at the end of both lines
    intro c hc
    refine hlast c ?_
    simpa [List.getLast?_append, List.getLast?_cons] using hc

theorem IsCaseCut.caseLabels?_eq (h : IsCaseCut dent line pieces tail) :
    caseLabels? line = some (pieces.map labelOf, tail) := by
  refine caseLabels?_eq_some_iff.2 ⟨pieces, rfl, ?_⟩
  rw [h.unindented_eq.1]
  exact h

/-- Labels stay if there are less than two, if one of them is fixed, or if they are in order. -/
theorem sortLabels_eq_none_iff_of_eq_some (h : caseLabels? line = some (labels, tail)) :
    sortLabels line = none ↔ labels.length < 2 ∨ (∃ label ∈ labels, isFixedLabel label = true) ∨
      labels.Pairwise fun a b => (compareTexts a b).isLE = true := by
  have hsorted : sortTexts labels = labels ↔
      labels.Pairwise fun a b => (compareTexts a b).isLE = true := by
    constructor
    · intro heq
      rw [← heq]
      exact pairwise_mergeSort compareTexts labels
    · intro hpairs
      exact List.mergeSort_of_pairwise hpairs
  rw [sortLabels, h]
  simp only [ite_eq_left_iff, reduceCtorEq, imp_false, not_not, Bool.or_eq_true, decide_eq_true_eq,
    List.any_eq_true, beq_iff_eq, hsorted, or_assoc]

theorem sortLabels_eq_none_iff : sortLabels line = none ↔
    ∀ dent pieces tail, IsCaseCut dent line pieces tail →
      pieces.length < 2 ∨ (∃ piece ∈ pieces, isFixedLabel (labelOf piece) = true) ∨
        (pieces.map labelOf).Pairwise fun a b => (compareTexts a b).isLE = true := by
  have hcut : ∀ {dent pieces tail}, IsCaseCut dent line pieces tail → (sortLabels line = none ↔ _) :=
    fun hcut => sortLabels_eq_none_iff_of_eq_some hcut.caseLabels?_eq
  simp only [List.length_map, List.mem_map, exists_exists_and_eq_and] at hcut
  constructor
  · intro h dent pieces tail hpieces
    exact (hcut hpieces).1 h
  · intro h
    cases hlabels : caseLabels? line with
    | none => rw [sortLabels, hlabels]
    | some found =>
      obtain ⟨pieces, -, hpieces⟩ := caseLabels?_eq_some_iff.1 hlabels
      exact (hcut hpieces).2 (h _ _ _ hpieces)

theorem sortLabels_of_eq_some {sorted : String} (h : sortLabels line = some sorted) :
    sortLabels sorted = none := by
  obtain ⟨pieces, pieces', tail, -, hcut, hlabels⟩ := isCaseCut_of_sortLabels h
  refine (sortLabels_eq_none_iff_of_eq_some hcut.caseLabels?_eq).2 (Or.inr (Or.inr ?_))
  rw [hlabels]
  exact pairwise_mergeSort compareTexts _

/-- **Labels are sorted in place.**  The new line has the indentation of the old one and is the same
from its arrow on; in front of the arrow, cut at the commas of their code, both have the same labels,
those of the new line in increasing order; and they are sorted once.  There is no new line if the line
has less than two labels, a fixed one, or all of them in order. -/
theorem sortLabels_isCaseCut (line : String) :
    (∀ sorted, sortLabels line = some sorted →
      (∃ dent pieces pieces' tail, IsCaseCut dent line pieces tail ∧
        IsCaseCut dent sorted pieces' tail ∧
        (pieces'.map labelOf).Perm (pieces.map labelOf) ∧
        ((pieces'.map labelOf).Pairwise fun a b => (compareTexts a b).isLE = true) ∧
        isCaseAt dent line = true ∧ isCaseAt dent sorted = true) ∧
      sortLabels sorted = none) ∧
    (sortLabels line = none ↔ ∀ dent pieces tail, IsCaseCut dent line pieces tail →
      pieces.length < 2 ∨ (∃ piece ∈ pieces, isFixedLabel (labelOf piece) = true) ∨
        (pieces.map labelOf).Pairwise fun a b => (compareTexts a b).isLE = true) := by
  refine ⟨fun sorted h => ⟨?_, sortLabels_of_eq_some h⟩, sortLabels_eq_none_iff⟩
  obtain ⟨pieces, pieces', tail, hcut, hcut', hlabels⟩ := isCaseCut_of_sortLabels h
  refine ⟨_, pieces, pieces', tail, hcut, hcut', ?_, ?_, hcut.isCaseAt, hcut'.isCaseAt⟩
  · rw [hlabels]
    exact sortTexts_perm _
  · rw [hlabels]
    exact pairwise_mergeSort compareTexts _

/-- Labels that hold a comma, an arrow and a parenthesis. -/
theorem sortLabels_isCaseCut_literals :
    let line := "  case ',', \"->\",'(' -> punct();"
    let sorted := "  case \"->\", '(', ',' -> punct();"
    sortLabels line = some sorted ∧
      (∃ dent pieces pieces' tail, IsCaseCut dent line pieces tail ∧
        IsCaseCut dent sorted pieces' tail ∧
        (pieces'.map labelOf).Perm (pieces.map labelOf) ∧
        ((pieces'.map labelOf).Pairwise fun a b => (compareTexts a b).isLE = true) ∧
        isCaseAt dent line = true ∧ isCaseAt dent sorted = true) ∧
      sortLabels sorted = none := by
  intro line sorted
  have hlabels : caseLabels? line = some (["','", "\"->\"", "'('"], "-> punct();".toList) := by
    decide +kernel
  have hsorted : sortTexts ["','", "\"->\"", "'('"] = ["\"->\"", "'('", "','"] :=
    mergeSort_eq_of_perm (by decide) (by decide +kernel)
  have hline : sortLabels line = some sorted := by
    rw [sortLabels, hlabels]
    dsimp only
    rw [hsorted, if_neg (by decide +kernel)]
    decide +kernel
  exact ⟨hline, (sortLabels_isCaseCut line).1 sorted hline⟩

end HouseStyle
