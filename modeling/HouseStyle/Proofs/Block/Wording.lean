import HouseStyle.Block.Parser
import HouseStyle.Proofs.Block.LogicalLine
import Mathlib.Data.List.Basic
import Mathlib.Logic.Relation

/-!
# What strings and comments say

Where a logical line ends is decided by the quotation marks of its strings and the signs in front of
its comments, and not by what the strings and comments say.  Two scans of the same code are compared,
one for each wording.  They run through the same states until the text of the string begins, pass over
the two texts, and run through the same states from the closing mark on.

The closing mark of one string and the opening mark of the next may stand side by side, as in `''`
followed by `'a'`.  Then the three marks begin a string of their own, whatever its text is:
`FollowedBy` keeps this case apart.

* `EndsInCode`, `followedBy_of_scan`: a text with no open string and no comment, and what follows it.
* `Rewords`, `advance_of_rewords`: one string or comment of a line in other words.
* `RewordsWhileOpen`: the lines below, as far as they are read.
* `length_logicalLine_of_rewords`: **a logical line has as many physical lines in other words.**
-/

namespace HouseStyle.Block

open Text

variable {depth depth' : Nat} {quote : Option Quote} {mark c : Char} {cs front text text' back : List Char}

/-! ## Code and what follows it -/

theorem ne_backslash_of_isQuotationMark (h : isQuotationMark mark = true) : mark ≠ '\\' := by
  rintro rfl
  cases h

/-- Three characters say whether they are three marks, whatever follows them. -/
theorem beginsTriple_append (h : 2 ≤ cs.length) (rest : List Char) :
    beginsTriple mark (c :: (cs ++ rest)) = beginsTriple mark (c :: cs) := by
  match cs, h with
  | _ :: _ :: _, _ => simp [beginsTriple, List.isPrefixOf]

/-- Two characters behind a character say how a scan moves on, whatever follows them. -/
theorem Moves.append {rest : List Char} {quote' : Option Quote}
    (h : Moves depth c cs quote depth' quote' rest) (hlen : 2 ≤ cs.length) (after : List Char) :
    Moves depth c (cs ++ after) quote depth' quote' (rest ++ after) := by
  have htriple : ∀ mark, beginsTriple mark (c :: (cs ++ after)) = beginsTriple mark (c :: cs) :=
    fun _ => beginsTriple_append hlen after
  cases h with
  | escape q hc =>
    rw [← List.drop_append_of_le_length (by omega)]
    exact .escape q hc
  | closesTriple hc ht =>
    rw [← List.drop_append_of_le_length hlen]
    exact .closesTriple hc ((htriple _).trans ht)
  | triple hc ht => exact .triple hc ((htriple _).trans ht)
  | single hc => exact .single hc
  | opensTriple hm ht =>
    rw [← List.drop_append_of_le_length hlen]
    exact .opensTriple hm ((htriple _).trans ht)
  | opensSingle hm ht => exact .opensSingle hm ((htriple _).trans ht)
  | code hc hm => exact .code hc hm

theorem two_le_of_beginsTriple (h : beginsTriple mark (c :: cs) = true) : 2 ≤ cs.length := by
  obtain ⟨rest, -, rfl⟩ := exists_of_beginsTriple h
  exact Nat.le_add_left 2 rest.length

theorem quote_scan_of_length_le (h : text.length ≤ 2) :
    (scan depth (some (.triple mark)) text).quote = some (.triple mark) := by
  have hone : ∀ c : Char, (scan depth (some (.triple mark)) [c]).quote = some (.triple mark) := by
    intro c
    rw [scan]
    split <;> simp [beginsTriple, scan]
  rcases text with _ | ⟨c, _ | ⟨d, _ | ⟨e, rest⟩⟩⟩
  · rw [scan]
  · exact hone c
  · by_cases hc : c = '\\'
    · rw [hc, scan_escape, scan]
    · rw [scan_triple hc (by simp [beginsTriple, List.isPrefixOf]), hone]
  · simp at h

/-- How a character follows a text that leaves nothing but brackets open.  Either the scan goes on with
the character as if nothing were in front of it, or the text ends with two quotation marks and the
character is the third. -/
def FollowedBy (depth : Nat) (quote : Option Quote) (front : List Char) (depth' : Nat) (c : Char) :
    Prop :=
  (∀ rest, scan depth quote (front ++ c :: rest) = scan depth' none (c :: rest)) ∨
    isQuotationMark c = true ∧
      ∀ rest, scan depth quote (front ++ c :: rest) = scan depth' (some (.triple c)) rest

theorem FollowedBy.of_scan_eq {depth₁ : Nat} {quote₁ : Option Quote} {front₁ : List Char}
    (h : FollowedBy depth₁ quote₁ front₁ depth' c)
    (hscan : ∀ rest, scan depth quote (front ++ c :: rest) =
      scan depth₁ quote₁ (front₁ ++ c :: rest)) : FollowedBy depth quote front depth' c :=
  h.imp (fun h rest => (hscan rest).trans (h rest))
    (And.imp_right fun h rest => (hscan rest).trans (h rest))

theorem eq_mark_of_scan (h : scan depth (some (.single mark)) [c] = ⟨depth', none, false⟩) :
    c = mark ∧ depth = depth' := by
  by_cases hc : c = '\\'
  · rw [hc, scan] at h
    simp [scan] at h
  · rw [scan_single hc] at h
    split at h <;> simp_all [scan]

/-- Behind an empty string a third quotation mark begins a string in three. -/
theorem followedBy_empty (hm : isQuotationMark mark = true) (c : Char) :
    FollowedBy depth none [mark, mark] depth c := by
  by_cases hc : c = mark
  · subst hc
    exact .inr ⟨hm, fun rest => scan_opens_triple hm rest⟩
  · have hthird : mark ≠ c := fun he => hc he.symm
    refine .inl fun rest => ?_
    rw [List.cons_append, List.singleton_append,
      scan_opens_single hm (by simp [beginsTriple, List.isPrefixOf, hthird]),
      scan_single (ne_backslash_of_isQuotationMark hm), if_pos rfl]

/-- **Code is scanned apart from what follows it**, but for a third quotation mark. -/
theorem followedBy_of_scan (h : scan depth quote front = ⟨depth', none, false⟩) (c : Char) :
    FollowedBy depth quote front depth' c := by
  induction depth, quote, front using scan_induction with
  | nil depth quote =>
    rw [scan] at h
    cases h
    exact .inl fun rest => rfl
  | comment depth cs =>
    rw [scan_opens_comment] at h
    cases h
  | move depth x cs quote depth₁ quote₁ rest hmove ih =>
    rw [hmove.scan_eq] at h
    by_cases hlen : 2 ≤ cs.length
    · exact (ih h).of_scan_eq fun after => (hmove.append hlen (c :: after)).scan_eq
    -- near the end of the text a move may depend on the character that follows
    cases hmove with
    | escape q hx =>
      have hnil : cs.drop 1 = [] := List.drop_eq_nil_of_le (by omega)
      rw [hnil, scan] at h
      cases h
    | closesTriple _ htriple | opensTriple _ htriple =>
      exact absurd (two_le_of_beginsTriple htriple) hlen
    | @triple mark hx htriple =>
      have hopen : (scan depth (some (.triple mark)) cs).quote = some (.triple mark) :=
        quote_scan_of_length_le (by omega)
      rw [h] at hopen
      cases hopen
    | single hx => exact (ih h).of_scan_eq fun after => scan_single hx (cs ++ c :: after)
    | opensSingle hmark htriple =>
      obtain _ | ⟨y, _ | ⟨z, cs⟩⟩ := cs
      · rw [scan] at h
        cases h
      · obtain ⟨rfl, rfl⟩ := eq_mark_of_scan h
        exact followedBy_empty hmark c
      · exact absurd (Nat.le_add_left 2 cs.length) hlen
    | code hx hmark => exact (ih h).of_scan_eq fun after => scan_code hx hmark (cs ++ c :: after)

/-! ## One line in other words -/

/-- Whether a text can stand between two of the given quotation marks: it is not empty and holds
neither the mark nor a backslash. -/
structure IsContent (mark : Char) (text : List Char) : Prop where
  ne_nil : text ≠ []
  mark : mark ∉ text
  backslash : '\\' ∉ text

/-- Whether a text ends in code: scanned from what is open in front of it, it leaves no string open and
begins no comment. -/
structure EndsInCode (state : Continuation) (text : List Char) : Prop where
  quote : (scan state.depth state.quote text).quote = none
  comment : (scan state.depth state.quote text).comment = false

/-- Whether the second line is the first one with another text in one string or one comment. -/
inductive Rewords (state : Continuation) : String → String → Prop
  | string (front text text' back : List Char) {mark : Char} (hf : EndsInCode state front)
      (hm : isQuotationMark mark = true) (ht : IsContent mark text) (ht' : IsContent mark text') :
      Rewords state (String.ofList (front ++ mark :: (text ++ mark :: back)))
        (String.ofList (front ++ mark :: (text' ++ mark :: back)))
  | comment (front text text' : List Char) (hf : EndsInCode state front) :
      Rewords state (String.ofList (front ++ '#' :: text)) (String.ofList (front ++ '#' :: text'))

theorem EndsInCode.followedBy {state : Continuation} (h : EndsInCode state front) (c : Char) :
    FollowedBy state.depth state.quote front (scan state.depth state.quote front).depth c := by
  refine followedBy_of_scan ?_ c
  have hquote := h.quote
  have hcomment := h.comment
  generalize scan state.depth state.quote front = opened at hquote hcomment
  cases opened
  exact congrArg₂ (Opened.mk _) hquote hcomment

theorem scan_content {q : Quote} (hm : q.mark ∉ text) (he : '\\' ∉ text) (rest : List Char) :
    scan depth (some q) (text ++ rest) = scan depth (some q) rest := by
  induction text with
  | nil => rfl
  | cons c cs ih =>
    rw [List.mem_cons, not_or] at hm he
    rw [List.cons_append, scan_of_ne_mark (Ne.symm he.1) (Ne.symm hm.1), ih hm.2 he.2]

/-- A quotation mark with the text of a string behind it opens the string. -/
theorem scan_opens_content (hm : isQuotationMark mark = true) (ht : IsContent mark text)
    (rest : List Char) :
    scan depth none (mark :: (text ++ rest)) = scan depth (some (.single mark)) rest := by
  obtain ⟨c, cs, rfl⟩ := List.exists_cons_of_ne_nil ht.ne_nil
  have hc : mark ≠ c := fun he => ht.mark (he ▸ List.mem_cons_self)
  rw [List.cons_append, scan_opens_single hm (by simp [beginsTriple, List.isPrefixOf, hc])]
  exact scan_content ht.mark ht.backslash rest

/-- A string leaves the same open whatever its text is. -/
theorem scan_string {state : Continuation} (hf : EndsInCode state front)
    (hm : isQuotationMark mark = true) (ht : IsContent mark text) (ht' : IsContent mark text') :
    scan state.depth state.quote (front ++ mark :: (text' ++ mark :: back)) =
      scan state.depth state.quote (front ++ mark :: (text ++ mark :: back)) := by
  rcases hf.followedBy mark with hscan | ⟨-, hscan⟩
  · rw [hscan, hscan, scan_opens_content hm ht, scan_opens_content hm ht']
  · -- the mark is the third one of a string in three
    rw [hscan, hscan, scan_content ht.mark ht.backslash, scan_content ht'.mark ht'.backslash]

theorem scan_commented {state : Continuation} (hf : EndsInCode state front) (text : List Char) :
    scan state.depth state.quote (front ++ '#' :: text) =
      ⟨(scan state.depth state.quote front).depth, none, true⟩ := by
  rcases hf.followedBy '#' with hscan | ⟨hmark, -⟩
  · rw [hscan, scan_opens_comment]
  · cases hmark

/-- **A line leaves the same open in other words.** -/
theorem advance_of_rewords {state : Continuation} {line line' : String}
    (h : Rewords state line line') : state.advance line' = state.advance line := by
  cases h with
  | @string front text text' back mark hf hm ht ht' =>
    have hlast : ∀ text : List Char, (front ++ mark :: (text ++ mark :: back)).getLast? =
        (mark :: back).getLast? := by
      intro text
      rw [List.append_cons, ← List.append_assoc,
        List.getLast?_append_of_ne_nil _ (List.cons_ne_nil mark back)]
    simp only [Continuation.advance, String.toList_ofList, scan_string hf hm ht ht', hlast]
  | comment _ _ _ hf =>
    simp only [Continuation.advance, String.toList_ofList, scan_commented hf, Bool.not_true,
      Bool.false_and]

theorem isBlank_of_rewords {state : Continuation} {line line' : String}
    (h : Rewords state line line') : isBlank line' = isBlank line := by
  have hnot : ∀ {front rest : List Char} {c : Char}, isSpace c = false →
      isBlank (String.ofList (front ++ c :: rest)) = false := by
    intro front rest c hc
    rw [isBlank, String.toList_ofList, List.all_append, List.all_cons, hc, Bool.false_and,
      Bool.and_false]
  cases h with
  | @string _ _ _ _ mark _ hm _ _ =>
    have hspace : isSpace mark = false := by
      rcases Bool.or_eq_true_iff.1 hm with he | he <;> rw [eq_of_beq he] <;> rfl
    rw [hnot hspace, hnot hspace]
  | comment _ _ _ _ => rw [hnot rfl, hnot rfl]

/-! ## Logical lines in other words -/

open Relation (ReflTransGen)

/-- Whether the second lines are the first ones with other texts in their strings and comments, as far
as they are read: where nothing is open any more, they need only be as many. -/
inductive RewordsWhileOpen : Continuation → List String → List String → Prop
  | nil (state : Continuation) : RewordsWhileOpen state [] []
  | cons {state : Continuation} {line line' : String} {lines lines' : List String}
      (h : ReflTransGen (Rewords state) line line')
      (hs : RewordsWhileOpen (state.advance line) lines lines') :
      RewordsWhileOpen state (line :: lines) (line' :: lines')
  | closed {state : Continuation} {lines lines' : List String} (h : state.isOpen = false)
      (hlen : lines'.length = lines.length) : RewordsWhileOpen state lines lines'

/-- What holds of a line after one new wording holds after any number of them. -/
theorem eq_of_rewords {β : Type} {f : String → β} {state : Continuation} {line line' : String}
    (hf : ∀ line line', Rewords state line line' → f line' = f line)
    (h : ReflTransGen (Rewords state) line line') : f line' = f line := by
  induction h with
  | refl => rfl
  | tail _ hstep ih => exact (hf _ _ hstep).trans ih

theorem RewordsWhileOpen.length_eq {state : Continuation} {lines lines' : List String}
    (h : RewordsWhileOpen state lines lines') : lines'.length = lines.length := by
  induction h with
  | nil => rfl
  | cons _ _ ih => exact congrArg (· + 1) ih
  | closed _ hlen => exact hlen

theorem continued_of_closed {state : Continuation} (h : state.isOpen = false) (lines : List String) :
    continued state lines = some ([], lines) := by
  cases lines <;> simp [continued, h]

/-- The lines that are read are as many, and blank at the same places. -/
theorem map_isBlank_continued {state : Continuation} {lines lines' : List String}
    (h : RewordsWhileOpen state lines lines') :
    (continued state lines').map (·.1.map isBlank) = (continued state lines).map (·.1.map isBlank) := by
  induction h with
  | nil => rfl
  | @cons state line line' lines lines' h _ ih =>
    have hadvance : state.advance line' = state.advance line :=
      eq_of_rewords (fun _ _ => advance_of_rewords) h
    have hblank : isBlank line' = isBlank line := eq_of_rewords (fun _ _ => isBlank_of_rewords) h
    cases ho : state.isOpen with
    | false => rw [continued_of_closed ho, continued_of_closed ho]; rfl
    | true =>
      have hcons := congrArg (Option.map (isBlank line :: ·)) ih
      rw [Option.map_map, Option.map_map] at hcons
      simpa [continued, ho, hadvance, Option.map_map, Function.comp_def, hblank] using hcons
  | closed ho _ => rw [continued_of_closed ho, continued_of_closed ho]; rfl

/-- How many lines are left at the end is decided by which of them are blank. -/
theorem length_dropTrailing_isBlank (lines : List String) :
    (dropTrailing isBlank lines).length = (dropTrailing id (lines.map isBlank)).length := by
  induction lines with
  | nil => rfl
  | cons line lines ih =>
    rw [List.map_cons, dropTrailing, dropTrailing]
    cases hd : dropTrailing isBlank lines with
    | nil =>
      rw [hd, List.length_nil, eq_comm, List.length_eq_zero_iff] at ih
      rw [ih]
      simp only [id_eq]
      split <;> rfl
    | cons x xs =>
      rw [hd] at ih
      cases hd' : dropTrailing id (lines.map isBlank) with
      | nil =>
        rw [hd'] at ih
        cases ih
      | cons y ys =>
        rw [hd'] at ih
        exact congrArg (· + 1) ih

/-- **What strings and comments say does not decide where a logical line ends.**  A line whose strings
and comments are put in other words leaves the same open, from whatever is open in front of it.  So a
logical line takes as many physical lines as it did, or is left open as it was, and then the error is
found at the same place. -/
theorem length_logicalLine_of_rewords :
    (∀ (state : Continuation) (line line' : String), Rewords state line line' →
      state.advance line' = state.advance line) ∧
    ∀ (line line' : String) (below below' : List String), ReflTransGen (Rewords {}) line line' →
      RewordsWhileOpen (Continuation.advance {} line) below below' →
        (logicalLine line' below').map (·.1.length) = (logicalLine line below).map (·.1.length) ∧
          (unfinished line' below').line = (unfinished line below).line := by
  refine ⟨fun _ _ _ => advance_of_rewords, fun line line' below below' hline hbelow => ⟨?_, ?_⟩⟩
  · have hadvance : Continuation.advance {} line' = Continuation.advance {} line :=
      eq_of_rewords (fun _ _ => advance_of_rewords) hline
    have hmap := congrArg (Option.map fun blanks => (dropTrailing id blanks).length + 1)
      (map_isBlank_continued hbelow)
    simpa [logicalLine, hadvance, Option.map_map, Function.comp_def, length_dropTrailing_isBlank]
      using hmap
  · rw [unfinished, unfinished, hbelow.length_eq]

/-- A bracket in a string, and quotation marks in a comment, do not end the call one line earlier. -/
theorem length_logicalLine_of_rewords_brackets :
    Rewords {} "x = f('a',  # one" "x = f(')]',  # one" ∧
      Rewords {} "x = f(')]',  # one" "x = f(')]',  # \"\"\"" ∧
      Rewords ⟨1, none, false⟩ "  \"b\")" "  \"(#\")" ∧
      (logicalLine "x = f(')]',  # \"\"\"" ["  \"(#\")", "y = 1"]).map (·.1.length) = some 2 := by
  have hfirst : Rewords {} "x = f('a',  # one" "x = f(')]',  # one" :=
    .string "x = f(".toList ['a'] [')', ']'] ",  # one".toList ⟨by decide +kernel, by decide +kernel⟩
      rfl ⟨by decide, by decide, by decide⟩ ⟨by decide, by decide, by decide⟩
  have hnext : Rewords {} "x = f(')]',  # one" "x = f(')]',  # \"\"\"" :=
    .comment "x = f(')]',  ".toList " one".toList " \"\"\"".toList
      ⟨by decide +kernel, by decide +kernel⟩
  have hbelow : Rewords ⟨1, none, false⟩ "  \"b\")" "  \"(#\")" :=
    .string [' ', ' '] ['b'] ['(', '#'] [')'] ⟨by decide +kernel, by decide +kernel⟩ rfl
      ⟨by decide, by decide, by decide⟩ ⟨by decide, by decide, by decide⟩
  have hopen : Continuation.advance {} "x = f('a',  # one" = ⟨1, none, false⟩ := by decide +kernel
  have hlines : RewordsWhileOpen (Continuation.advance {} "x = f('a',  # one")
      ["  \"b\")", "y = 1"] ["  \"(#\")", "y = 1"] := by
    rw [hopen]
    exact .cons (.single hbelow) (.closed (by decide +kernel) rfl)
  have hlength := length_logicalLine_of_rewords.2 _ _ _ _ ((ReflTransGen.single hfirst).tail hnext)
    hlines
  refine ⟨hfirst, hnext, hbelow, hlength.1.trans ?_⟩
  decide +kernel

end HouseStyle.Block
