import HouseStyle.Proofs.Declaration.CaseLabels

/-!
# Parentheses in case labels

The labels of a case are cut at every comma of its code, also at one that stands between parentheses.
A pattern is kept whole by the space between its type and its name; a pattern without one, made of
record names and underscores alone, is cut at its inner commas, and the sort tears the parts apart.

* `openParens`, `isBalanced`: the parentheses that a text leaves open, and a text whose parentheses match.
* `forall_isBalanced_iff`: the pieces of a balanced text are balanced if they are cut at its top level.
* `sortLabels_balanced_iff`: **sorted labels are balanced exactly if every comma is at the top level.**
-/

namespace HouseStyle

open Text

variable {line sorted : String} {dent depth : Nat} {pieces : List (List Char)}
  {text front back tail : List Char}

/-- The number of parentheses open behind a character of a line, `depth` of them in front of it; `none`
if it closes one that was not opened. -/
def stepParens (depth : Nat) : Char × Bool → Option Nat
  | ('(', true) => some (depth + 1)
  | (')', true) => if depth = 0 then none else some (depth - 1)
  | _ => some depth

/-- The number of parentheses that the code of a line leaves open; `none` if it closes one that was not
opened. -/
def openParens (marked : List (Char × Bool)) : Option Nat := marked.foldlM stepParens 0

/-- Whether the parentheses of a text match, those in its literals not counted. -/
def isBalanced (text : List Char) : Bool := openParens (mark text) == some 0

/-- Whether every code comma of a text stands outside all parentheses. -/
def CommasOutside (text : List Char) : Prop :=
  ∀ before after, mark text = before ++ (',', true) :: after → openParens before = some 0

/-! ## Marked texts -/

theorem stepParens_of_ne {c : Char} (h : c ≠ '(') (h' : c ≠ ')') (code : Bool) :
    stepParens depth (c, code) = some depth := by
  unfold stepParens
  split
  · next he => exact absurd (congrArg Prod.fst he) h
  · next he => exact absurd (congrArg Prod.fst he) h'
  · rfl

theorem openParens_append {a b : List (Char × Bool)} (h : openParens a = some 0) :
    openParens (a ++ b) = openParens b := by
  rw [openParens, List.foldlM_append, ← openParens, h]
  rfl

theorem openParens_comma_cons (m : List (Char × Bool)) :
    openParens ((',', true) :: m) = openParens m := rfl

theorem isBalanced_iff : isBalanced text = true ↔ openParens (mark text) = some 0 := beq_iff_eq

theorem foldlM_stepParens_spaces (h : ∀ c ∈ text, isSpace c = true) :
    (mark text).foldlM stepParens depth = some depth := by
  induction text with
  | nil => rfl
  | cons c cs ih =>
    obtain ⟨hc, hcs⟩ := List.forall_mem_cons.1 h
    have hopen : c ≠ '(' := by
      rintro rfl
      cases hc
    have hclose : c ≠ ')' := by
      rintro rfl
      cases hc
    rw [mark, markFrom_code (isQuote_of_isSpace hc), List.foldlM_cons, stepParens_of_ne hopen hclose]
    exact ih hcs

theorem isBalanced_trim (h : IsPiece none text) : isBalanced (trim text) = isBalanced text := by
  have hfront : ∀ c ∈ text.takeWhile isSpace, isSpace c = true :=
    List.all_eq_true.1 List.all_takeWhile
  obtain ⟨dropped, happ, hdropped⟩ := exists_dropTrailing_append isSpace (text.dropWhile isSpace)
  have htext : text = text.takeWhile isSpace ++ (trim text ++ dropped) := by
    rw [trim, trimEnd, happ, List.takeWhile_append_dropWhile]
  have hmark : mark text = mark (text.takeWhile isSpace) ++ (mark (trim text) ++ mark dropped) := by
    conv_lhs => rw [htext]
    rw [mark, (markFrom_append (IsPiece.of_spaces hfront).closed _).1, mark,
      (markFrom_append h.trim.closed _).1]
    rfl
  have hopen : openParens (mark text) = openParens (mark (trim text)) := by
    rw [hmark, openParens_append (foldlM_stepParens_spaces hfront), openParens, List.foldlM_append]
    have hback : ∀ depth, (mark dropped).foldlM stepParens depth = some depth :=
      fun _ => foldlM_stepParens_spaces hdropped
    simp only [hback]
    exact bind_pure _
  rw [isBalanced, isBalanced, hopen]

/-! ## Pieces -/

/-- The first piece of a text is marked apart from the comma behind it and the pieces that follow. -/
theorem mark_intercalate_cons_cons {piece next : List Char} (h : IsPiece none piece) :
    mark ([','].intercalate (piece :: next :: pieces)) =
      mark piece ++ (',', true) :: mark ([','].intercalate (next :: pieces)) := by
  have hcomma : mark (',' :: [','].intercalate (next :: pieces)) =
      (',', true) :: mark ([','].intercalate (next :: pieces)) := markFrom_code rfl _
  rw [List.intercalate_cons_cons, List.append_assoc, List.singleton_append, mark,
    (markFrom_append h.closed _).1, hcomma]
  rfl

/-- A comma of a text is the one behind its first piece, or one of the text behind that. -/
theorem append_comma_eq_iff {m rest before after : List (Char × Bool)} (hm : (',', true) ∉ m) :
    m ++ (',', true) :: rest = before ++ (',', true) :: after ↔
      (before = m ∧ rest = after) ∨
        ∃ inner, before = m ++ (',', true) :: inner ∧ rest = inner ++ (',', true) :: after := by
  constructor
  · intro h
    rcases List.append_eq_append_iff.1 h with ⟨as, rfl, has⟩ | ⟨bs, rfl, hbs⟩
    · cases as with
      | nil =>
        rw [List.append_nil]
        exact Or.inl ⟨rfl, (List.cons.inj has).2⟩
      | cons a as =>
        obtain ⟨rfl, hrest⟩ := List.cons.inj has
        exact Or.inr ⟨as, rfl, hrest⟩
    · cases bs with
      | nil => exact Or.inl ⟨by rw [List.append_nil], ((List.cons.inj hbs).2).symm⟩
      | cons b bs =>
        obtain ⟨rfl, -⟩ := List.cons.inj hbs
        exact absurd (List.mem_append_right _ List.mem_cons_self) hm
  · rintro (⟨rfl, rfl⟩ | ⟨inner, rfl, rfl⟩)
    · rfl
    · rw [List.append_assoc, List.cons_append]

/-- **The pieces of a balanced text are balanced** exactly if no comma stands between parentheses. -/
theorem forall_isBalanced_iff (hp : ∀ piece ∈ pieces, IsPiece none piece)
    (h : isBalanced ([','].intercalate pieces) = true) :
    (∀ piece ∈ pieces, isBalanced piece = true) ↔ CommasOutside ([','].intercalate pieces) := by
  simp only [isBalanced_iff, CommasOutside] at h ⊢
  induction pieces with
  | nil =>
    refine ⟨fun _ before after he => ?_, fun _ _ hm => absurd hm List.not_mem_nil⟩
    exact absurd he.symm (by simp [mark, markFrom])
  | cons piece pieces ih =>
    obtain ⟨hpiece, hpieces⟩ := List.forall_mem_cons.1 hp
    cases pieces with
    | nil =>
      rw [List.intercalate_singleton] at h ⊢
      refine ⟨fun _ before after he => ?_, fun _ => List.forall_mem_singleton.2 h⟩
      have hmem : (',', true) ∈ mark piece := he ▸ List.mem_append_right _ List.mem_cons_self
      exact absurd hmem hpiece.comma
    | cons next pieces =>
      have hsplit := fun before after => @append_comma_eq_iff (mark piece)
        (mark ([','].intercalate (next :: pieces))) before after hpiece.comma
      rw [mark_intercalate_cons_cons hpiece] at h ⊢
      simp only [hsplit]
      constructor
      · rintro hall before after (⟨rfl, -⟩ | ⟨inner, rfl, hinner⟩)
        · exact hall piece List.mem_cons_self
        · -- a comma further on: what stands in front of it is open behind the first piece as well
          obtain ⟨hfirst, hmore⟩ := List.forall_mem_cons.1 hall
          rw [openParens_append hfirst, openParens_comma_cons] at h ⊢
          exact (ih hpieces h).1 hmore inner after hinner
      · intro hcommas
        have hfirst : openParens (mark piece) = some 0 := hcommas _ _ (Or.inl ⟨rfl, rfl⟩)
        rw [openParens_append hfirst, openParens_comma_cons] at h
        refine List.forall_mem_cons.2 ⟨hfirst, (ih hpieces h).2 fun inner after hinner => ?_⟩
        have hopen := hcommas _ after (Or.inr ⟨inner, rfl, hinner⟩)
        rwa [openParens_append hfirst, openParens_comma_cons] at hopen

/-! ## Sorted labels -/

/-- **Sorted labels are balanced exactly if every comma is at the top level**, outside all parentheses.
The label text of the line is what its pieces are with commas between them. -/
theorem sortLabels_balanced_iff (h : sortLabels line = some sorted)
    (hcut : IsCaseCut dent line pieces tail)
    (hbalanced : isBalanced ([','].intercalate pieces) = true) :
    ∃ pieces', IsCaseCut dent sorted pieces' tail ∧
      (pieces'.map labelOf).Perm (pieces.map labelOf) ∧
      ((∀ piece ∈ pieces', isBalanced (labelOf piece).toList = true) ↔
        CommasOutside ([','].intercalate pieces)) := by
  obtain ⟨pieces₁, pieces', tail₁, hcut₁, hcut', hlabels⟩ := isCaseCut_of_sortLabels h
  obtain ⟨hdent, text, htext, hpieces⟩ := hcut.unindented_eq
  obtain ⟨-, text₁, htext₁, hpieces₁⟩ := hcut₁.unindented_eq
  obtain rfl : text = text₁ := List.append_cancel_left (htext.symm.trans htext₁)
  obtain ⟨rfl, rfl⟩ : pieces = pieces₁ ∧ tail = tail₁ := by
    have heq := hpieces.cutBeforeArrow_eq.symm.trans hpieces₁.cutBeforeArrow_eq
    exact Prod.mk.inj (Option.some.inj heq)
  have hperm : (pieces'.map labelOf).Perm (pieces.map labelOf) := hlabels ▸ sortTexts_perm _
  rw [hdent] at hcut'
  refine ⟨pieces', hcut', hperm, ?_⟩
  rw [← forall_isBalanced_iff hpieces.isPiece hbalanced]
  calc (∀ piece ∈ pieces', isBalanced (labelOf piece).toList = true)
      ↔ ∀ label ∈ pieces'.map labelOf, isBalanced label.toList = true := by
        rw [List.forall_mem_map]
    _ ↔ ∀ label ∈ pieces.map labelOf, isBalanced label.toList = true :=
        forall_congr' fun label => by rw [hperm.mem_iff]
    _ ↔ ∀ piece ∈ pieces, isBalanced piece = true := by
        rw [List.forall_mem_map]
        refine forall₂_congr fun piece hpiece => ?_
        rw [labelOf, String.toList_ofList, isBalanced_trim (hpieces.isPiece piece hpiece)]

/-- A record pattern inside another one, and parentheses in literals. -/
theorem sortLabels_balanced_iff_patterns :
    let line := "  case '(', Box(Lid(_)), \",)\", Bag(_) -> pack();"
    let sorted := "  case \",)\", '(', Bag(_), Box(Lid(_)) -> pack();"
    let pieces := ["'('", " Box(Lid(_))", " \",)\"", " Bag(_) "].map String.toList
    sortLabels line = some sorted ∧ IsCaseCut 2 line pieces "-> pack();".toList ∧
      isBalanced ([','].intercalate pieces) = true ∧ CommasOutside ([','].intercalate pieces) ∧
      ∃ pieces', IsCaseCut 2 sorted pieces' "-> pack();".toList ∧
        (pieces'.map labelOf).Perm (pieces.map labelOf) ∧
        ∀ piece ∈ pieces', isBalanced (labelOf piece).toList = true := by
  intro line sorted pieces
  have hlabels : caseLabels? line =
      some (["'('", "Box(Lid(_))", "\",)\"", "Bag(_)"], "-> pack();".toList) := by decide +kernel
  have hsorted : sortTexts ["'('", "Box(Lid(_))", "\",)\"", "Bag(_)"] =
      ["\",)\"", "'('", "Bag(_)", "Box(Lid(_))"] :=
    mergeSort_eq_of_perm (by decide) (by decide +kernel)
  have hline : sortLabels line = some sorted := by
    rw [sortLabels, hlabels]
    dsimp only
    rw [hsorted, if_neg (by decide +kernel)]
    decide +kernel
  have hcut : IsCaseCut 2 line pieces "-> pack();".toList := by
    refine ⟨"'(', Box(Lid(_)), \",)\", Bag(_) -> pack();".toList, by decide +kernel,
      cutBeforeArrow_eq_some_iff.1 (by decide +kernel)⟩
  have hbalanced : isBalanced ([','].intercalate pieces) = true := by decide +kernel
  obtain ⟨pieces', hcut', hperm, hiff⟩ := sortLabels_balanced_iff hline hcut hbalanced
  have hall : ∀ piece ∈ pieces, isBalanced piece = true := by decide +kernel
  obtain ⟨-, _, -, hpieces⟩ := hcut.unindented_eq
  have hcommas := (forall_isBalanced_iff hpieces.isPiece hbalanced).1 hall
  exact ⟨hline, hcut, hbalanced, hcommas, pieces', hcut', hperm, hiff.2 hcommas⟩

/-- A record pattern without a space: it is cut at its comma, and its parts change places. -/
theorem sortLabels_not_balanced :
    let line := "  case Pair(_,Box(_)) -> open();"
    let sorted := "  case Box(_)), Pair(_ -> open();"
    sortLabels line = some sorted ∧
      ∃ pieces pieces', IsCaseCut 2 line pieces "-> open();".toList ∧
        isBalanced ([','].intercalate pieces) = true ∧
        IsCaseCut 2 sorted pieces' "-> open();".toList ∧
        pieces'.map labelOf = ["Box(_))", "Pair(_"] ∧
        ∀ piece ∈ pieces', isBalanced (labelOf piece).toList = false := by
  intro line sorted
  have hlabels : caseLabels? line = some (["Pair(_", "Box(_))"], "-> open();".toList) := by
    decide +kernel
  have hsorted : sortTexts ["Pair(_", "Box(_))"] = ["Box(_))", "Pair(_"] :=
    mergeSort_eq_of_perm (by decide) (by decide +kernel)
  have hline : sortLabels line = some sorted := by
    rw [sortLabels, hlabels]
    dsimp only
    rw [hsorted, if_neg (by decide +kernel)]
    decide +kernel
  refine ⟨hline, ["Pair(_", "Box(_)) "].map String.toList, ["Box(_))", " Pair(_ "].map String.toList,
    ⟨"Pair(_,Box(_)) -> open();".toList, by decide +kernel,
      cutBeforeArrow_eq_some_iff.1 (by decide +kernel)⟩, by decide +kernel,
    ⟨"Box(_)), Pair(_ -> open();".toList, by decide +kernel,
      cutBeforeArrow_eq_some_iff.1 (by decide +kernel)⟩, by decide +kernel, by decide +kernel⟩

end HouseStyle
