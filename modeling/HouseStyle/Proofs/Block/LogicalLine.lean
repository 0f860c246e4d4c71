import HouseStyle.Block.LogicalLine
import HouseStyle.Proofs.Text.Line
import HouseStyle.Proofs.Text.Space

/-!
# Where a logical line ends

A logical line ends where nothing is open, or in front of the one blank line that ends what a
backslash, or a string in single quotation marks, has left open.  Brackets and strings in triple
quotation marks go on past any number of blank lines.

* `scan_code`, `scan_of_ne_mark` and the lemmas around them: what one character opens and closes.
* `Moves`, `scan_induction`: **how a scan moves on behind a character**, in strings and in code.
* `advance_of_isBlank`: a blank line closes a backslash and a short string and nothing else.
* `isClosed`, `isClosed_or_beginsBlank`: how a logical line that was found ends.
* `logicalLine_of_logicalLine`: what may follow a logical line without changing it.
-/

namespace HouseStyle.Block

open Text

/-! ## Single characters -/

/-- The quotation mark of an open string. -/
def Quote.mark : Quote → Char
  | .single mark => mark
  | .triple mark => mark

section Scan

variable {depth : Nat} {mark c : Char} {cs : List Char}

theorem scan_escape (q : Quote) (c : Char) (cs : List Char) :
    scan depth (some q) ('\\' :: c :: cs) = scan depth (some q) cs := by
  cases q <;> simp [scan]

theorem scan_of_ne_mark {q : Quote} (hc : c ≠ '\\') (hm : c ≠ q.mark) (cs : List Char) :
    scan depth (some q) (c :: cs) = scan depth (some q) cs := by
  cases q with
  | single mark =>
    have hm : c ≠ mark := hm
    simp [scan, hc, hm]
  | triple mark =>
    have hm : mark ≠ c := hm.symm
    simp [scan, hc, beginsTriple, hm]

theorem scan_single (hc : c ≠ '\\') (cs : List Char) :
    scan depth (some (.single mark)) (c :: cs) =
      scan depth (if c = mark then none else some (.single mark)) cs := by
  rw [scan]
  simp [hc]

theorem scan_triple_close (hc : mark ≠ '\\') (cs : List Char) :
    scan depth (some (.triple mark)) (mark :: mark :: mark :: cs) = scan depth none cs := by
  rw [scan]
  simp [hc, beginsTriple]

theorem scan_triple (hc : c ≠ '\\') (ht : beginsTriple mark (c :: cs) = false) :
    scan depth (some (.triple mark)) (c :: cs) = scan depth (some (.triple mark)) cs := by
  rw [scan]
  simp [hc, ht]

theorem ne_sign_of_isQuotationMark (h : isQuotationMark mark = true) : mark ≠ '#' := by
  rintro rfl
  cases h

theorem scan_opens_triple (hm : isQuotationMark mark = true) (cs : List Char) :
    scan depth none (mark :: mark :: mark :: cs) = scan depth (some (.triple mark)) cs := by
  have hc := ne_sign_of_isQuotationMark hm
  rw [scan]
  simp [hc, hm, beginsTriple]

theorem scan_opens_single (hm : isQuotationMark mark = true)
    (ht : beginsTriple mark (mark :: cs) = false) :
    scan depth none (mark :: cs) = scan depth (some (.single mark)) cs := by
  have hc := ne_sign_of_isQuotationMark hm
  rw [scan]
  simp [hc, hm, ht]

theorem scan_opens_comment (cs : List Char) : scan depth none ('#' :: cs) = ⟨depth, none, true⟩ := by
  rw [scan]
  simp

/-- The number of open brackets behind a character of code. -/
def depthBehind (depth : Nat) (c : Char) : Nat :=
  if isOpeningBracket c then depth + 1 else if isClosingBracket c then depth - 1 else depth

theorem scan_code (hc : c ≠ '#') (hm : isQuotationMark c = false) (cs : List Char) :
    scan depth none (c :: cs) = scan (depthBehind depth c) none cs := by
  rw [scan, depthBehind]
  simp only [hc, hm, if_false, Bool.false_eq_true]
  split_ifs <;> rfl

end Scan

/-! ## Moves -/

/-- How a scan moves on behind a character: the brackets and the string that are open there, and the
text that is left. -/
inductive Moves (depth : Nat) (c : Char) (cs : List Char) :
    Option Quote → Nat → Option Quote → List Char → Prop
  | escape (q : Quote) (hc : c = '\\') : Moves depth c cs (some q) depth (some q) (cs.drop 1)
  | closesTriple {mark : Char} (hc : c ≠ '\\') (ht : beginsTriple mark (c :: cs) = true) :
      Moves depth c cs (some (.triple mark)) depth none (cs.drop 2)
  | triple {mark : Char} (hc : c ≠ '\\') (ht : beginsTriple mark (c :: cs) = false) :
      Moves depth c cs (some (.triple mark)) depth (some (.triple mark)) cs
  | single {mark : Char} (hc : c ≠ '\\') :
      Moves depth c cs (some (.single mark)) depth (if c = mark then none else some (.single mark)) cs
  | opensTriple (hm : isQuotationMark c = true) (ht : beginsTriple c (c :: cs) = true) :
      Moves depth c cs none depth (some (.triple c)) (cs.drop 2)
  | opensSingle (hm : isQuotationMark c = true) (ht : beginsTriple c (c :: cs) = false) :
      Moves depth c cs none depth (some (.single c)) cs
  | code (hc : c ≠ '#') (hm : isQuotationMark c = false) :
      Moves depth c cs none (depthBehind depth c) none cs

section Moves

variable {depth depth' : Nat} {quote quote' : Option Quote} {mark c : Char} {cs rest : List Char}

theorem exists_of_beginsTriple (h : beginsTriple mark (c :: cs) = true) :
    ∃ rest, c = mark ∧ cs = mark :: mark :: rest := by
  obtain ⟨rest, hrest⟩ := List.isPrefixOf_iff_prefix.1 h
  obtain ⟨hc, hcs⟩ := List.cons.inj hrest
  exact ⟨rest, hc.symm, hcs.symm⟩

theorem Moves.scan_eq (h : Moves depth c cs quote depth' quote' rest) :
    scan depth quote (c :: cs) = scan depth' quote' rest := by
  cases h with
  | escape q hc => cases q <;> simp [scan, hc]
  | closesTriple hc ht =>
    obtain ⟨rest, rfl, rfl⟩ := exists_of_beginsTriple ht
    exact scan_triple_close hc rest
  | triple hc ht => exact scan_triple hc ht
  | single hc => exact scan_single hc cs
  | opensTriple hm ht =>
    obtain ⟨rest, -, rfl⟩ := exists_of_beginsTriple ht
    exact scan_opens_triple hm rest
  | opensSingle hm ht => exact scan_opens_single hm ht
  | code hc hm => exact scan_code hc hm cs

/-- **A scan ends with its text, ends at a comment, or moves on.** -/
theorem scan_induction {motive : Nat → Option Quote → List Char → Prop}
    (nil : ∀ depth quote, motive depth quote [])
    (comment : ∀ depth cs, motive depth none ('#' :: cs))
    (move : ∀ depth c cs quote depth' quote' rest, Moves depth c cs quote depth' quote' rest →
      motive depth' quote' rest → motive depth quote (c :: cs))
    (depth : Nat) (quote : Option Quote) (text : List Char) : motive depth quote text := by
  fun_induction scan depth quote text with
  | case1 depth quote => exact nil depth quote
  | case2 depth cs mark ih | case5 depth cs mark ih => exact move _ _ _ _ _ _ _ (.escape _ rfl) ih
  | case3 depth c cs mark hc ht ih => exact move _ _ _ _ _ _ _ (.closesTriple hc ht) ih
  | case4 depth c cs mark hc ht ih =>
    exact move _ _ _ _ _ _ _ (.triple hc (Bool.eq_false_iff.2 ht)) ih
  | case6 depth c cs mark hc ih => exact move _ _ _ _ _ _ _ (.single hc) ih
  | case7 depth cs => exact comment depth cs
  | case8 depth c cs _ hm ht ih => exact move _ _ _ _ _ _ _ (.opensTriple hm ht) ih
  | case9 depth c cs _ hm ht ih =>
    exact move _ _ _ _ _ _ _ (.opensSingle hm (Bool.eq_false_iff.2 ht)) ih
  | case10 depth c cs hc hm hopening ih =>
    refine move _ _ _ _ _ _ _ (.code hc (Bool.eq_false_iff.2 hm)) ?_
    rwa [depthBehind, if_pos hopening]
  | case11 depth c cs hc hm hopening hclosing ih =>
    refine move _ _ _ _ _ _ _ (.code hc (Bool.eq_false_iff.2 hm)) ?_
    rwa [depthBehind, if_neg hopening, if_pos hclosing]
  | case12 depth c cs hc hm hopening hclosing ih =>
    refine move _ _ _ _ _ _ _ (.code hc (Bool.eq_false_iff.2 hm)) ?_
    rwa [depthBehind, if_neg hopening, if_neg hclosing]

/-- Whether an open string was opened by a quotation mark. -/
def Marked (quote : Option Quote) : Prop := ∀ q ∈ quote, isQuotationMark q.mark = true

theorem marked_none : Marked none := fun _ h => nomatch h

theorem Moves.marked (h : Moves depth c cs quote depth' quote' rest) (hmarked : Marked quote) :
    Marked quote' := by
  cases h with
  | escape | triple => exact hmarked
  | closesTriple | code => exact marked_none
  | single =>
    split
    · exact marked_none
    · exact hmarked
  | opensTriple hm | opensSingle hm =>
    intro q hq
    cases hq
    exact hm

theorem marked_scan {text : List Char} (h : Marked quote) :
    Marked (scan depth quote text).quote := by
  induction depth, quote, text using scan_induction with
  | nil depth quote => rwa [scan]
  | comment depth cs => exact scan_opens_comment cs ▸ marked_none
  | move depth c cs quote depth' quote' rest hmove ih =>
    rw [hmove.scan_eq]
    exact ih (hmove.marked h)

end Moves

/-! ## Blank lines -/

theorem marked_advance {state : Continuation} (line : String) (h : Marked state.quote) :
    Marked (state.advance line).quote := by
  have hscan : Marked (scan state.depth state.quote line.toList).quote := marked_scan h
  unfold Continuation.advance
  dsimp only
  split
  · split
    · next hq _ => rwa [hq] at hscan
    · exact marked_none
  · exact hscan

theorem marked_first (line : String) : Marked (Continuation.advance {} line).quote :=
  marked_advance line marked_none

theorem scan_of_all_isSpace {text : List Char} (h : ∀ c ∈ text, isSpace c = true) (depth : Nat)
    {quote : Option Quote} (hq : Marked quote) : scan depth quote text = ⟨depth, quote, false⟩ := by
  have hne : ∀ {c d : Char}, isSpace c = true → isSpace d = false → c ≠ d := by
    rintro c d hc hd rfl
    exact absurd (hd.symm.trans hc) Bool.false_ne_true
  induction text with
  | nil => rw [scan]
  | cons c cs ih =>
    obtain ⟨hc, hcs⟩ := List.forall_mem_cons.1 h
    have hmark : ∀ mark, isQuotationMark mark = true → c ≠ mark := by
      intro mark hm
      rcases Bool.or_eq_true_iff.1 hm with he | he <;> rw [eq_of_beq he] <;> exact hne hc rfl
    cases quote with
    | none =>
      have h1 : isQuotationMark c = false := Bool.eq_false_iff.2 fun hm => hmark c hm rfl
      have h2 : isOpeningBracket c = false := by
        simp [isOpeningBracket, hne hc (d := '(') rfl, hne hc (d := '[') rfl,
          hne hc (d := '\x7b') rfl]
      have h3 : isClosingBracket c = false := by
        simp [isClosingBracket, hne hc (d := ')') rfl, hne hc (d := ']') rfl,
          hne hc (d := '\x7d') rfl]
      rw [scan_code (hne hc rfl) h1, depthBehind, if_neg (by simp [h2]), if_neg (by simp [h3]), ih hcs]
    | some q => rw [scan_of_ne_mark (hne hc rfl) (hmark q.mark (hq q rfl)), ih hcs]

/-- What is left open past a blank line. -/
def Continuation.lapse (state : Continuation) : Continuation :=
  ⟨state.depth, match state.quote with
    | some (.single _) => none
    | other => other, false⟩

/-- A blank line closes a backslash and a string in single quotation marks and nothing else. -/
theorem advance_of_isBlank {state : Continuation} {line : String} (hq : Marked state.quote)
    (h : isBlank line = true) : state.advance line = state.lapse := by
  have hspace : ∀ c ∈ line.toList, isSpace c = true := List.all_eq_true.1 h
  have hlast : (line.toList.getLast? == some '\\') = false := by
    refine beq_eq_false_iff_ne.2 fun hl => ?_
    exact absurd (hspace _ (List.mem_of_getLast? hl)) (by decide)
  unfold Continuation.advance Continuation.lapse
  rw [scan_of_all_isSpace hspace _ hq]
  rcases state.quote with _ | _ | _ <;> simp [hlast]

theorem lapse_lapse (state : Continuation) : state.lapse.lapse = state.lapse := by
  cases state with
  | mk depth quote backslash => rcases quote with _ | _ | _ <;> rfl

/-! ## Physical lines of a statement -/

/-- What is open after some physical lines. -/
def Continuation.after (state : Continuation) (lines : List String) : Continuation :=
  lines.foldl Continuation.advance state

@[simp] theorem after_nil (state : Continuation) : state.after [] = state := rfl

@[simp] theorem after_cons (state : Continuation) (line : String) (lines : List String) :
    state.after (line :: lines) = (state.advance line).after lines := rfl

@[simp] theorem after_append (state : Continuation) (a b : List String) :
    state.after (a ++ b) = (state.after a).after b := List.foldl_append

/-- Whether something is open in front of each of the lines. -/
def GoesOn (state : Continuation) : List String → Prop
  | [] => True
  | line :: lines => state.isOpen = true ∧ GoesOn (state.advance line) lines

theorem goesOn_append {state : Continuation} {a b : List String} :
    GoesOn state (a ++ b) ↔ GoesOn state a ∧ GoesOn (state.after a) b := by
  induction a generalizing state with
  | nil => simp [GoesOn]
  | cons line a ih => simp [GoesOn, ih, and_assoc]

theorem marked_after {state : Continuation} (lines : List String) (h : Marked state.quote) :
    Marked (state.after lines).quote := by
  induction lines generalizing state with
  | nil => exact h
  | cons line lines ih => exact ih (marked_advance line h)

/-- Blank lines after the first one change nothing. -/
theorem after_lapse {state : Continuation} {lines : List String} (hq : Marked state.lapse.quote)
    (h : ∀ l ∈ lines, isBlank l = true) : state.lapse.after lines = state.lapse := by
  induction lines with
  | nil => rfl
  | cons line lines ih =>
    obtain ⟨hl, hls⟩ := List.forall_mem_cons.1 h
    rw [after_cons, advance_of_isBlank hq hl, lapse_lapse, ih hls]

theorem continued_eq_some_iff {state : Continuation} {lines inner rest : List String} :
    continued state lines = some (inner, rest) ↔
      inner ++ rest = lines ∧ GoesOn state inner ∧ (state.after inner).isOpen = false := by
  induction lines generalizing state inner with
  | nil =>
    unfold continued
    cases ho : state.isOpen
    · simp only [Bool.false_eq_true, if_false, Option.some.injEq, Prod.mk.injEq,
        List.append_eq_nil_iff]
      constructor
      · rintro ⟨rfl, rfl⟩
        exact ⟨⟨rfl, rfl⟩, trivial, ho⟩
      · rintro ⟨⟨rfl, rfl⟩, -⟩
        exact ⟨rfl, rfl⟩
    · simp only [if_true, reduceCtorEq, false_iff, List.append_eq_nil_iff]
      rintro ⟨⟨rfl, -⟩, -, hc⟩
      exact Bool.false_ne_true (hc.symm.trans ho)
  | cons line lines ih =>
    unfold continued
    cases ho : state.isOpen
    · simp only [Bool.false_eq_true, if_false, Option.some.injEq, Prod.mk.injEq]
      constructor
      · rintro ⟨rfl, rfl⟩
        exact ⟨rfl, trivial, ho⟩
      · rintro ⟨happ, hgo, -⟩
        cases inner with
        | nil => exact ⟨rfl, happ.symm⟩
        | cons l inner => exact absurd (ho.symm.trans hgo.1) Bool.false_ne_true
    · simp only [if_true, Option.map_eq_some_iff, Prod.exists, Prod.mk.injEq]
      constructor
      · rintro ⟨inner, rest, hc, rfl, rfl⟩
        obtain ⟨happ, hgo, hclosed⟩ := ih.1 hc
        exact ⟨congrArg (line :: ·) happ, ⟨ho, hgo⟩, hclosed⟩
      · rintro ⟨happ, hgo, hclosed⟩
        cases inner with
        | nil => exact absurd (hclosed.symm.trans ho) Bool.false_ne_true
        | cons l inner =>
          obtain ⟨rfl, hlines⟩ := List.cons.inj happ
          exact ⟨inner, rest, ih.2 ⟨hlines, hgo.2, hclosed⟩, rfl, rfl⟩

/-! ## Logical lines -/

/-- Whether nothing is open after the physical lines of a statement. -/
def isClosed (lines : List String) : Bool := !(Continuation.after {} lines).isOpen

/-- Whether the first of the lines is blank. -/
def beginsBlank (lines : List String) : Bool := lines.head?.any isBlank

/-- What is known of a logical line: it ends with a line that is not blank, where nothing is open or
in front of the blank line that closes what is open. -/
theorem logicalLine_eq_some {line : String} {below lines after : List String}
    (h : logicalLine line below = some (lines, after)) :
    ∃ kept, lines = line :: kept ∧ kept ++ after = below ∧ dropTrailing isBlank kept = kept ∧
      GoesOn (Continuation.advance {} line) kept ∧
      (isClosed lines = true ∨
        (Continuation.after {} lines).isOpen = true ∧
          (Continuation.after {} lines).lapse.isOpen = false ∧ beginsBlank after = true) := by
  obtain ⟨⟨inner, rest⟩, hc, he⟩ := Option.map_eq_some_iff.1 h
  obtain ⟨rfl, hgo, hclosed⟩ := continued_eq_some_iff.1 hc
  obtain ⟨dropped, happ, hblank⟩ := exists_dropTrailing_append isBlank inner
  obtain ⟨rfl, rfl⟩ := Prod.mk.inj he
  have hdrop : (inner ++ rest).drop (dropTrailing isBlank inner).length = dropped ++ rest := by
    rw [show inner ++ rest = dropTrailing isBlank inner ++ (dropped ++ rest) by
      rw [← List.append_assoc, happ]]
    exact List.drop_left
  rw [hdrop]
  rw [← happ, goesOn_append] at hgo
  refine ⟨_, rfl, by rw [← List.append_assoc, happ], dropTrailing_dropTrailing _ _, hgo.1, ?_⟩
  rw [← happ, after_append] at hclosed
  have hmarked := marked_after (dropTrailing isBlank inner) (marked_first line)
  cases dropped with
  | nil => exact Or.inl (by simpa [isClosed] using hclosed)
  | cons blank blanks =>
    obtain ⟨hb, hbs⟩ := List.forall_mem_cons.1 hblank
    rw [after_cons, advance_of_isBlank hmarked hb, after_lapse _ hbs] at hclosed
    · exact Or.inr ⟨hgo.2.1, hclosed, by simpa [beginsBlank] using hb⟩
    · rw [← advance_of_isBlank hmarked hb]
      exact marked_advance blank hmarked

theorem append_of_logicalLine {line : String} {below lines after : List String}
    (h : logicalLine line below = some (lines, after)) : lines ++ after = line :: below := by
  obtain ⟨kept, rfl, rfl, -⟩ := logicalLine_eq_some h
  rfl

theorem head?_of_logicalLine {line : String} {below lines after : List String}
    (h : logicalLine line below = some (lines, after)) : lines.head? = some line := by
  obtain ⟨kept, rfl, -⟩ := logicalLine_eq_some h
  rfl

theorem isClosed_or_beginsBlank {line : String} {below lines after : List String}
    (h : logicalLine line below = some (lines, after)) :
    isClosed lines = true ∨ beginsBlank after = true := by
  obtain ⟨kept, -, -, -, -, hclosed | ⟨-, -, hblank⟩⟩ := logicalLine_eq_some h
  · exact Or.inl hclosed
  · exact Or.inr hblank

/-- **A logical line stays one wherever it ends as it did**: where nothing is open after it, or in
front of a blank line. -/
theorem logicalLine_of_logicalLine {line : String} {below lines after after' : List String}
    (h : logicalLine line below = some (lines, after))
    (hends : isClosed lines = true ∨ beginsBlank after' = true) :
    ∃ kept, lines = line :: kept ∧ logicalLine line (kept ++ after') = some (lines, after') := by
  obtain ⟨kept, rfl, rfl, hkept, hgo, hend⟩ := logicalLine_eq_some h
  refine ⟨kept, rfl, ?_⟩
  rw [logicalLine]
  by_cases hclosed : isClosed (line :: kept) = true
  · have hc : continued (Continuation.advance {} line) (kept ++ after') = some (kept, after') :=
      continued_eq_some_iff.2 ⟨rfl, hgo, by simpa [isClosed] using hclosed⟩
    simp [hc, hkept]
  · obtain ⟨hopen, hlapse, -⟩ := hend.resolve_left hclosed
    cases after' with
    | nil => exact absurd (hends.resolve_left hclosed) Bool.false_ne_true
    | cons blank rest =>
      have hblank : isBlank blank = true := hends.resolve_left hclosed
      have hmarked := marked_after kept (marked_first line)
      have hadvance := advance_of_isBlank hmarked hblank
      have hc : continued (Continuation.advance {} line) (kept ++ blank :: rest) =
          some (kept ++ [blank], rest) := by
        refine continued_eq_some_iff.2 ⟨by simp, goesOn_append.2 ⟨hgo, hopen, trivial⟩, ?_⟩
        rw [after_append, after_cons, after_nil, hadvance]
        exact hlapse
      have hdrop : dropTrailing isBlank (kept ++ [blank]) = kept := by
        rw [dropTrailing_append_of_all (by simpa using hblank), hkept]
      simp [hc, hdrop]

end HouseStyle.Block
