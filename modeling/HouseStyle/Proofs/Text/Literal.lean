import HouseStyle.Proofs.Text.Space
import HouseStyle.Text.Literal
import Mathlib.Tactic.MkIffOfInductiveProp
import Mathlib.Tactic.Tauto

/-!
# Facts about literals

A text that leaves no literal open is read apart from what follows it.  The pieces that a line is cut
into are such texts, so a line put together of them is cut in the same places.

* `openAtEnd`, `markFrom_append`: the literal that a text leaves open, and a text that leaves none.
* `IsPiece`: a text without a place to cut that leaves no literal open.
* `IsCut`, `cutBeforeArrow_eq_some_iff`: a line is its pieces, commas between them, and its end.
* `IsPiece.trim`: a piece stays one without the white space around it.
-/

namespace HouseStyle.Text

variable {quote : Option Char} {text piece rest tail : List Char} {pieces : List (List Char)}
  {c q : Char}

/-! ## Open literals -/

theorem isQuote_iff {c : Char} : isQuote c = true ↔ c = '\x22' ∨ c = '\x27' := by
  simp [isQuote]

/-- The literal that a text leaves open at its end; `quote` is the one open at its start. -/
def openAtEnd : (quote : Option Char) → List Char → Option Char
  | quote, [] => quote
  | none, c :: cs => openAtEnd (if isQuote c then some c else none) cs
  | some q, c :: cs =>
    if c = '\\' then
      match cs with
      | [] => some q
      | _ :: ds => openAtEnd (some q) ds
    else openAtEnd (if c = q then none else some q) cs

theorem markFrom_quote (hc : isQuote c = true) (cs : List Char) :
    markFrom none (c :: cs) = (c, false) :: markFrom (some c) cs := by
  rw [markFrom, if_pos hc]

theorem markFrom_code (hc : isQuote c = false) (cs : List Char) :
    markFrom none (c :: cs) = (c, true) :: markFrom none cs := by
  rw [markFrom, if_neg (by simp [hc])]

theorem markFrom_escape (q c : Char) (cs : List Char) :
    markFrom (some q) ('\\' :: c :: cs) = ('\\', false) :: (c, false) :: markFrom (some q) cs := by
  rw [markFrom, if_pos rfl]

theorem markFrom_literal (hc : c ≠ '\\') (q : Char) (cs : List Char) :
    markFrom (some q) (c :: cs) = (c, false) :: markFrom (if c = q then none else some q) cs := by
  rw [markFrom.eq_def]
  simp [hc]

theorem openAtEnd_quote (hc : isQuote c = true) (cs : List Char) :
    openAtEnd none (c :: cs) = openAtEnd (some c) cs := by
  rw [openAtEnd, if_pos hc]

theorem openAtEnd_code (hc : isQuote c = false) (cs : List Char) :
    openAtEnd none (c :: cs) = openAtEnd none cs := by
  rw [openAtEnd, if_neg (by simp [hc])]

theorem openAtEnd_escape (q c : Char) (cs : List Char) :
    openAtEnd (some q) ('\\' :: c :: cs) = openAtEnd (some q) cs := by
  rw [openAtEnd, if_pos rfl]

theorem openAtEnd_literal (hc : c ≠ '\\') (q : Char) (cs : List Char) :
    openAtEnd (some q) (c :: cs) = openAtEnd (if c = q then none else some q) cs := by
  rw [openAtEnd.eq_def]
  simp [hc]

/-- A text that leaves no literal open is read apart from what follows it. -/
theorem markFrom_append (h : openAtEnd quote text = none) (rest : List Char) :
    markFrom quote (text ++ rest) = markFrom quote text ++ mark rest ∧
      openAtEnd quote (text ++ rest) = openAtEnd none rest := by
  fun_induction markFrom quote text with
  | case1 quote =>
    rw [openAtEnd] at h
    rw [h]
    exact ⟨rfl, rfl⟩
  | case2 c cs hc ih =>
    rw [openAtEnd_quote hc] at h
    rw [List.cons_append, markFrom_quote hc, openAtEnd_quote hc, (ih h).1, (ih h).2]
    exact ⟨rfl, rfl⟩
  | case3 c cs hc ih =>
    have hc := Bool.eq_false_iff.2 hc
    rw [openAtEnd_code hc] at h
    rw [List.cons_append, markFrom_code hc, openAtEnd_code hc, (ih h).1, (ih h).2]
    exact ⟨rfl, rfl⟩
  | case4 q => simp [openAtEnd] at h
  | case5 q d ds ih =>
    rw [openAtEnd_escape] at h
    rw [List.cons_append, List.cons_append, markFrom_escape, openAtEnd_escape, (ih h).1, (ih h).2]
    exact ⟨rfl, rfl⟩
  | case6 q c cs hc ih =>
    rw [openAtEnd_literal hc] at h
    rw [List.cons_append, markFrom_literal hc, openAtEnd_literal hc, (ih h).1, (ih h).2]
    exact ⟨rfl, rfl⟩

theorem isQuote_of_isSpace (h : isSpace c = true) : isQuote c = false := by
  by_contra hq
  rcases isQuote_iff.1 (Bool.of_not_eq_false hq) with rfl | rfl <;> cases h

theorem openAtEnd_spaces {spaces : List Char} (hs : ∀ c ∈ spaces, isSpace c = true)
    (hq : isQuote q = true) : openAtEnd (some q) spaces = some q := by
  induction spaces with
  | nil => rfl
  | cons c cs ih =>
    obtain ⟨hc, hcs⟩ := List.forall_mem_cons.1 hs
    have hcq : c ≠ q := by
      rintro rfl
      rw [isQuote_of_isSpace hc] at hq
      cases hq
    rw [openAtEnd_literal (by rintro rfl; cases hc), if_neg hcq, ih hcs]

/-- White space at the end of a text closes no literal. -/
theorem openAtEnd_of_append_spaces {spaces : List Char} (hs : ∀ c ∈ spaces, isSpace c = true)
    (hq : ∀ q ∈ quote, isQuote q = true) (h : openAtEnd quote (text ++ spaces) = none) :
    openAtEnd quote text = none := by
  fun_induction markFrom quote text with
  | case1 quote =>
    cases quote with
    | none => rfl
    | some q =>
      rw [List.nil_append, openAtEnd_spaces hs (hq q rfl)] at h
      cases h
  | case2 c cs hc ih =>
    rw [List.cons_append, openAtEnd_quote hc] at h
    rw [openAtEnd_quote hc]
    exact ih (by simpa using hc) h
  | case3 c cs hc ih =>
    have hc := Bool.eq_false_iff.2 hc
    rw [List.cons_append, openAtEnd_code hc] at h
    rw [openAtEnd_code hc]
    exact ih (by simp) h
  | case4 q =>
    -- a backslash takes a space with it and leaves the literal open
    have hq := hq q rfl
    cases spaces with
    | nil => exact h
    | cons d ds =>
      rw [List.singleton_append, openAtEnd_escape,
        openAtEnd_spaces (List.forall_mem_cons.1 hs).2 hq] at h
      cases h
  | case5 q d ds ih =>
    rw [List.cons_append, List.cons_append, openAtEnd_escape] at h
    rw [openAtEnd_escape]
    exact ih hq h
  | case6 q c cs hc ih =>
    rw [List.cons_append, openAtEnd_literal hc] at h
    rw [openAtEnd_literal hc]
    refine ih (fun q' hq' => ?_) h
    split at hq'
    · cases hq'
    · exact hq q' hq'

/-! ## Pieces -/

/-- Whether a text has no code comma and no code arrow and leaves no literal open; `quote` is the
literal open at its start. -/
@[mk_iff]
structure IsPiece (quote : Option Char) (text : List Char) : Prop where
  closed : openAtEnd quote text = none
  comma : (',', true) ∉ markFrom quote text
  arrow : ¬ [('-', true), ('>', true)] <:+: markFrom quote text

theorem arrow_infix_cons_iff {x : Char × Bool} {m : List (Char × Bool)} :
    [('-', true), ('>', true)] <:+: x :: m ↔
      (x = ('-', true) ∧ m.head? = some ('>', true)) ∨ [('-', true), ('>', true)] <:+: m := by
  have hhead : [('>', true)] <+: m ↔ m.head? = some ('>', true) := by
    cases m with
    | nil => simp
    | cons y m =>
      rw [List.cons_prefix_cons, List.head?_cons, Option.some_inj]
      exact ⟨fun h => h.1.symm, fun h => ⟨h.symm, List.nil_prefix⟩⟩
  rw [List.infix_cons_iff, List.cons_prefix_cons, hhead, @eq_comm _ x]

theorem head?_markFrom_eq_iff :
    (markFrom none text).head? = some ('>', true) ↔ text.head? = some '>' := by
  cases text with
  | nil => simp [markFrom]
  | cons c cs =>
    cases hc : isQuote c with
    | true =>
      have hgt : c ≠ '>' := by
        rintro rfl
        cases hc
      simp [markFrom_quote hc, hgt]
    | false => simp [markFrom_code hc]

namespace IsPiece

theorem nil : IsPiece none [] := ⟨rfl, List.not_mem_nil, by simp [markFrom]⟩

theorem quote_iff (hc : isQuote c = true) : IsPiece none (c :: text) ↔ IsPiece (some c) text := by
  simp only [isPiece_iff, openAtEnd_quote hc, markFrom_quote hc, List.mem_cons,
    arrow_infix_cons_iff]
  simp

theorem code_iff (hc : isQuote c = false) : IsPiece none (c :: text) ↔
    c ≠ ',' ∧ (c = '-' → text.head? ≠ some '>') ∧ IsPiece none text := by
  simp only [isPiece_iff, openAtEnd_code hc, markFrom_code hc, List.mem_cons,
    arrow_infix_cons_iff, head?_markFrom_eq_iff, Prod.mk.injEq, and_true]
  tauto

theorem escape_iff : IsPiece (some q) ('\\' :: c :: text) ↔ IsPiece (some q) text := by
  simp only [isPiece_iff, openAtEnd_escape, markFrom_escape, List.mem_cons,
    arrow_infix_cons_iff]
  simp

theorem literal_iff (hc : c ≠ '\\') :
    IsPiece (some q) (c :: text) ↔ IsPiece (if c = q then none else some q) text := by
  simp only [isPiece_iff, openAtEnd_literal hc, markFrom_literal hc, List.mem_cons,
    arrow_infix_cons_iff]
  simp

theorem append (h : IsPiece quote text) (hr : IsPiece none rest) (hhead : rest.head? ≠ some '>') :
    IsPiece quote (text ++ rest) := by
  fun_induction markFrom quote text with
  | case1 quote =>
    obtain rfl : quote = none := h.closed
    exact hr
  | case2 c cs hc ih => exact (quote_iff hc).2 (ih ((quote_iff hc).1 h))
  | case3 c cs hc ih =>
    have hc := Bool.eq_false_iff.2 hc
    obtain ⟨hcomma, harrow, h⟩ := (code_iff hc).1 h
    refine (code_iff hc).2 ⟨hcomma, fun hdash => ?_, ih h⟩
    cases cs with
    | nil => exact hhead
    | cons d ds => exact harrow hdash
  | case4 q => exact absurd h.closed (by simp [openAtEnd])
  | case5 q d ds ih => exact escape_iff.2 (ih (escape_iff.1 h))
  | case6 q c cs hc ih => exact (literal_iff hc).2 (ih ((literal_iff hc).1 h))

theorem of_append (h : IsPiece quote (text ++ rest)) (hclosed : openAtEnd quote text = none) :
    IsPiece quote text ∧ IsPiece none rest := by
  obtain ⟨hmark, hopen⟩ := markFrom_append hclosed rest
  have hcomma := h.comma
  have harrow := h.arrow
  rw [hmark] at hcomma harrow
  refine ⟨⟨hclosed, ?_, ?_⟩, hopen.symm.trans h.closed, ?_, ?_⟩
  · exact fun hm => hcomma (List.mem_append_left _ hm)
  · exact fun hi => harrow (hi.trans (List.prefix_append _ _).isInfix)
  · exact fun hm => hcomma (List.mem_append_right _ hm)
  · exact fun hi => harrow (hi.trans (List.suffix_append _ _).isInfix)

theorem spaces_append (h : IsPiece none text) {spaces : List Char}
    (hs : ∀ c ∈ spaces, isSpace c = true) : IsPiece none (spaces ++ text) := by
  induction spaces with
  | nil => exact h
  | cons c cs ih =>
    obtain ⟨hc, hcs⟩ := List.forall_mem_cons.1 hs
    refine (code_iff (isQuote_of_isSpace hc)).2 ⟨?_, ?_, ih hcs⟩
    · rintro rfl
      cases hc
    · rintro rfl
      cases hc

theorem of_spaces {spaces : List Char} (hs : ∀ c ∈ spaces, isSpace c = true) :
    IsPiece none spaces := by
  rw [← List.append_nil spaces]
  exact nil.spaces_append hs

theorem trim (h : IsPiece none text) : IsPiece none (trim text) := by
  have hfront : ∀ c ∈ text.takeWhile isSpace, isSpace c = true :=
    List.all_eq_true.1 List.all_takeWhile
  rw [← List.takeWhile_append_dropWhile (p := isSpace) (l := text)] at h
  have hrest := (h.of_append (of_spaces hfront).closed).2
  obtain ⟨dropped, happ, hdropped⟩ := exists_dropTrailing_append isSpace (text.dropWhile isSpace)
  rw [← happ] at hrest
  exact (hrest.of_append (openAtEnd_of_append_spaces hdropped (by simp) hrest.closed)).1

theorem trim_spaces (h : IsPiece none text) {front back : List Char}
    (hf : ∀ c ∈ front, isSpace c = true) (hb : ∀ c ∈ back, isSpace c = true) :
    IsPiece none (front ++ (Text.trim text ++ back)) := by
  refine (h.trim.append (of_spaces hb) fun hhead => ?_).spaces_append hf
  cases hb '>' (List.mem_of_mem_head? hhead)

end IsPiece

/-! ## Cuts -/

/-- Whether a text is some pieces with commas between them and an end that begins with an arrow. -/
structure IsCut (text : List Char) (pieces : List (List Char)) (tail : List Char) : Prop where
  ne_nil : pieces ≠ []
  isPiece : ∀ piece ∈ pieces, IsPiece none piece
  arrow : "->".toList <+: tail
  eq : text = [','].intercalate pieces ++ tail

theorem unmark_of_cutBeforeArrow {marked : List (Char × Bool)}
    (h : cutBeforeArrow marked = some (pieces, tail)) :
    pieces ≠ [] ∧ unmark marked = [','].intercalate pieces ++ tail := by
  induction marked generalizing pieces tail with
  | nil => cases h
  | cons mark rest ih =>
    obtain ⟨c, code⟩ := mark
    rw [cutBeforeArrow] at h
    split at h
    · cases h
      exact ⟨List.cons_ne_nil _ _, rfl⟩
    split at h
    · cases h
    · next pieces' tail' hrest =>
      obtain ⟨hne, hunmark⟩ := ih hrest
      obtain ⟨piece, pieces', rfl⟩ := List.exists_cons_of_ne_nil hne
      have hcons : unmark ((c, code) :: rest) = c :: unmark rest := rfl
      split at h
      · next hcomma =>
        cases h
        rw [Bool.and_eq_true, beq_iff_eq] at hcomma
        refine ⟨List.cons_ne_nil _ _, ?_⟩
        rw [hcons, hunmark, hcomma.2]
        simp [List.intercalate_cons_cons]
      · cases h
        refine ⟨List.cons_ne_nil _ _, ?_⟩
        rw [hcons, hunmark]
        cases pieces' <;> simp [List.intercalate_cons_cons]

/-- A character of a literal in front of a cut line. -/
theorem cutBeforeArrow_literal (c : Char) (m : List (Char × Bool)) :
    cutBeforeArrow ((c, false) :: m) =
      (cutBeforeArrow m).map fun cut => (cut.1.modifyHead (c :: ·), cut.2) := by
  rw [cutBeforeArrow]
  cases hm : cutBeforeArrow m with
  | none => rfl
  | some cut =>
    obtain ⟨pieces, tail⟩ := cut
    obtain ⟨piece, more, rfl⟩ := List.exists_cons_of_ne_nil (unmark_of_cutBeforeArrow hm).1
    rfl

/-- A character of code in front of a cut line. -/
theorem cutBeforeArrow_code (c : Char) (m : List (Char × Bool)) :
    cutBeforeArrow ((c, true) :: m) =
      if c = '-' ∧ (unmark m).head? = some '>' then some ([[]], c :: unmark m)
      else if c = ',' then (cutBeforeArrow m).map fun cut => ([] :: cut.1, cut.2)
      else (cutBeforeArrow m).map fun cut => (cut.1.modifyHead (c :: ·), cut.2) := by
  have hhead : (true && c == '-' && (m.head?.map Prod.fst) == some '>') =
      decide (c = '-' ∧ (unmark m).head? = some '>') := by
    rw [unmark, List.head?_map, Bool.true_and, Bool.eq_iff_iff]
    simp
  rw [cutBeforeArrow, hhead]
  simp only [decide_eq_true_eq]
  split
  · rfl
  cases hm : cutBeforeArrow m with
  | none => simp
  | some cut =>
    obtain ⟨pieces, tail⟩ := cut
    obtain ⟨piece, more, rfl⟩ := List.exists_cons_of_ne_nil (unmark_of_cutBeforeArrow hm).1
    by_cases hc : c = ',' <;> simp [hc]

theorem isPiece_of_cutBeforeArrow (h : cutBeforeArrow (markFrom quote text) = some (pieces, tail)) :
    ∃ piece more, pieces = piece :: more ∧ IsPiece quote piece ∧ (∀ p ∈ more, IsPiece none p) ∧
      "->".toList <+: tail := by
  fun_induction markFrom quote text generalizing pieces tail with
  | case1 quote => cases h
  | case2 c cs hc ih =>
    rw [cutBeforeArrow_literal, Option.map_eq_some_iff] at h
    obtain ⟨⟨pieces', tail'⟩, hcut, h⟩ := h
    obtain ⟨piece, more, rfl, hpiece, hmore, harrow⟩ := ih hcut
    cases h
    exact ⟨c :: piece, more, rfl, (IsPiece.quote_iff hc).2 hpiece, hmore, harrow⟩
  | case3 c cs hc ih =>
    have hc := Bool.eq_false_iff.2 hc
    rw [cutBeforeArrow_code, unmark_markFrom] at h
    split at h
    · next harrow =>
      obtain ⟨rfl, hhead⟩ := harrow
      obtain ⟨ds, rfl⟩ := List.head?_eq_some_iff.1 hhead
      cases h
      exact ⟨[], [], rfl, .nil, by simp, ⟨ds, rfl⟩⟩
    next harrow =>
    split at h
    · rw [Option.map_eq_some_iff] at h
      obtain ⟨⟨pieces', tail'⟩, hcut, h⟩ := h
      obtain ⟨piece, more, rfl, hpiece, hmore, htail⟩ := ih hcut
      cases h
      exact ⟨[], piece :: more, rfl, .nil, List.forall_mem_cons.2 ⟨hpiece, hmore⟩, htail⟩
    · next hcomma =>
      rw [Option.map_eq_some_iff] at h
      obtain ⟨⟨pieces', tail'⟩, hcut, h⟩ := h
      obtain ⟨piece, more, rfl, hpiece, hmore, htail⟩ := ih hcut
      have hcs := (unmark_of_cutBeforeArrow hcut).2
      cases h
      refine ⟨c :: piece, more, rfl, (IsPiece.code_iff hc).2 ⟨hcomma, ?_, hpiece⟩, hmore, htail⟩
      -- the text behind a dash begins as its first piece does
      intro hdash hhead
      obtain ⟨ds, rfl⟩ := List.head?_eq_some_iff.1 hhead
      rw [unmark_markFrom] at hcs
      refine harrow ⟨hdash, ?_⟩
      rw [hcs]
      cases more <;> simp [List.intercalate_cons_cons]
  | case4 q => cases h
  | case5 q d ds ih =>
    rw [cutBeforeArrow_literal, cutBeforeArrow_literal, Option.map_map,
      Option.map_eq_some_iff] at h
    obtain ⟨⟨pieces', tail'⟩, hcut, h⟩ := h
    obtain ⟨piece, more, rfl, hpiece, hmore, harrow⟩ := ih hcut
    cases h
    exact ⟨'\\' :: d :: piece, more, rfl, IsPiece.escape_iff.2 hpiece, hmore, harrow⟩
  | case6 q c cs hc ih =>
    rw [cutBeforeArrow_literal, Option.map_eq_some_iff] at h
    obtain ⟨⟨pieces', tail'⟩, hcut, h⟩ := h
    obtain ⟨piece, more, rfl, hpiece, hmore, harrow⟩ := ih hcut
    cases h
    exact ⟨c :: piece, more, rfl, (IsPiece.literal_iff hc).2 hpiece, hmore, harrow⟩

/-- A piece in front of a cut line belongs to its first piece. -/
theorem cutBeforeArrow_append (h : IsPiece quote text) {m : List (Char × Bool)}
    (hm : cutBeforeArrow m = some (piece :: pieces, tail)) (hhead : (unmark m).head? ≠ some '>') :
    cutBeforeArrow (markFrom quote text ++ m) = some ((text ++ piece) :: pieces, tail) := by
  fun_induction markFrom quote text with
  | case1 quote => exact hm
  | case2 c cs hc ih =>
    rw [List.cons_append, cutBeforeArrow_literal, ih ((IsPiece.quote_iff hc).1 h)]
    rfl
  | case3 c cs hc ih =>
    obtain ⟨hcomma, harrow, h⟩ := (IsPiece.code_iff (Bool.eq_false_iff.2 hc)).1 h
    have hnext : ¬(c = '-' ∧ (unmark (markFrom none cs ++ m)).head? = some '>') := by
      rintro ⟨hdash, hgt⟩
      rw [unmark, List.map_append, ← unmark, unmark_markFrom] at hgt
      cases cs with
      | nil => exact hhead hgt
      | cons d ds => exact harrow hdash hgt
    rw [List.cons_append, cutBeforeArrow_code, if_neg hnext, if_neg hcomma, ih h]
    rfl
  | case4 q => exact absurd h.closed (by simp [openAtEnd])
  | case5 q d ds ih =>
    rw [List.cons_append, List.cons_append, cutBeforeArrow_literal, cutBeforeArrow_literal,
      ih (IsPiece.escape_iff.1 h)]
    rfl
  | case6 q c cs hc ih =>
    rw [List.cons_append, cutBeforeArrow_literal, ih ((IsPiece.literal_iff hc).1 h)]
    rfl

theorem IsCut.cutBeforeArrow_eq (h : IsCut text pieces tail) :
    cutBeforeArrow (mark text) = some (pieces, tail) := by
  obtain ⟨hne, hpiece, ⟨after, rfl⟩, rfl⟩ := h
  have harrow : cutBeforeArrow (mark ("->".toList ++ after)) = some ([[]], "->".toList ++ after) := by
    have hm : mark ("->".toList ++ after) = ('-', true) :: ('>', true) :: mark after := rfl
    have hafter : unmark (('>', true) :: mark after) = '>' :: after :=
      congrArg ('>' :: ·) (unmark_markFrom none after)
    rw [hm, cutBeforeArrow_code, hafter, if_pos ⟨rfl, rfl⟩]
    rfl
  induction pieces with
  | nil => exact absurd rfl hne
  | cons piece pieces ih =>
    obtain ⟨hp, hps⟩ := List.forall_mem_cons.1 hpiece
    cases pieces with
    | nil =>
      rw [List.intercalate_singleton, mark, (markFrom_append hp.closed _).1,
        cutBeforeArrow_append hp harrow (by simp [mark, unmark_markFrom]), List.append_nil]
    | cons next pieces =>
      have hcomma := ih (List.cons_ne_nil _ _) hps
      generalize hrest : [','].intercalate (next :: pieces) ++ ("->".toList ++ after) = rest at hcomma
      have hsep : cutBeforeArrow (mark (',' :: rest)) = some ([] :: next :: pieces,
          "->".toList ++ after) := by
        rw [mark, markFrom_code rfl, cutBeforeArrow_code, if_neg (by simp), if_pos rfl]
        rw [mark] at hcomma
        rw [hcomma]
        rfl
      have htext : [','].intercalate (piece :: next :: pieces) ++ ("->".toList ++ after) =
          piece ++ ',' :: rest := by
        rw [List.intercalate_cons_cons, ← hrest]
        simp
      rw [htext, mark, (markFrom_append hp.closed _).1,
        cutBeforeArrow_append hp hsep (by simp [mark, unmark_markFrom]), List.append_nil]

/-- **The cut of a line is the one cut there is**: pieces that leave no literal open and have no place
to cut, with commas between them, in front of an arrow. -/
theorem cutBeforeArrow_eq_some_iff :
    cutBeforeArrow (mark text) = some (pieces, tail) ↔ IsCut text pieces tail := by
  refine ⟨fun h => ?_, IsCut.cutBeforeArrow_eq⟩
  obtain ⟨hne, htext⟩ := unmark_of_cutBeforeArrow h
  obtain ⟨piece, more, rfl, hpiece, hmore, harrow⟩ := isPiece_of_cutBeforeArrow h
  rw [mark, unmark_markFrom] at htext
  exact ⟨hne, List.forall_mem_cons.2 ⟨hpiece, hmore⟩, harrow, htext⟩

end HouseStyle.Text
