import HouseStyle.Proofs.Declaration.Cases
import HouseStyle.Proofs.Machine.Line
import HouseStyle.Proofs.Machine.Scan

/-!
# Sorting cases in a machine

A case line is cut at the offsets that the scanner found, in front of its indentation and at its
arrow.  Case groups are ranges of the body, found by a cursor that passes over the deeper lines and
over one closing line.

* `sortLabels?_eq`: the labels of a line, in order.
* `groups?_eq`, `sortGroupsFrom?_eq`: the groups of one indentation.
* `normalizeCases?_eq`: **no method body stops the sort of its cases.**
-/

namespace HouseStyle.Machine

open Text

/-! ## Labels -/

/-- The pieces of a text from an offset on, between the commas and up to the arrow. -/
def piecesFrom? (text : List Char) (arrow start : Nat) : List Nat → Option (List (List Char))
  | [] => do
    let piece ← middle? text start arrow
    return [piece]
  | comma :: commas => do
    let piece ← middle? text start comma
    let next ← word? (comma + 1)
    let more ← piecesFrom? text arrow next commas
    return piece :: more

/-- The text of a line behind its indentation and the keyword `case`. -/
def behindCase? (line : String) (dent : Nat) : Option (List Char) := do
  let cut ← cut? line.toList dent
  if "case ".toList.isPrefixOf cut.2 then return cut.2.drop 5 else none

/-- The case line with its labels in order; no line if that changes nothing. -/
def sortLabels? (line : String) : Option (Option String) := do
  let dent ← indentation? line
  match behindCase? line dent with
  | none => return none
  | some rest =>
    let scanned ← scan? (bytes rest) none [] 0
    match scanned.2 with
    | none => return none
    | some arrow =>
      if scanned.1.isEmpty then return none
      else
        let pieces ← piecesFrom? rest arrow 0 scanned.1
        let labels := pieces.map fun piece => String.ofList (trim piece)
        let sorted := sortTexts labels
        if labels.any isFixedLabel || sorted == labels then return none
        else
          let indent ← cut? line.toList dent
          let tail ← cut? rest arrow
          return some (String.ofList
            (indent.1 ++ "case ".toList ++ joinLabels sorted ++ ' ' :: tail.2))

/-! ## Groups -/

/-- Whether a line is a case, or the default, with an arrow. -/
def caseLine? (line : String) : Option Bool :=
  if startsWith "case " line || startsWith "default " line then do
    let scanned ← scan? (bytes (unindented line)) none [] 0
    return scanned.2.isSome
  else some false

/-- Whether a line is a case line of the given indentation. -/
def caseAt? (dent : Nat) (line : String) : Option Bool := do
  if ← caseLine? line then
    let depth ← indentation? line
    return depth == dent
  else return false

/-- The cursor behind the group whose case line is at a cursor. -/
def groupEnd? (lines : List String) (start : Nat) : Option Nat := do
  let first ← (lines[start]? : Option String)
  let dent ← indentation? first
  let below ← word? (start + 1)
  let stop ← advance? (fun line => return decide (dent < (← indentation? line))) lines below
  match lines[stop]? with
  | none => return stop
  | some line => if ← closes? line dent "\x7d" then word? (stop + 1) else return stop

/-- The groups of one indentation at a cursor, and the cursor behind the last of them. -/
def groups? (dent : Nat) (lines : List String) (start : Nat) :
    Option (List (List String) × Nat) :=
  match _h : lines[start]? with
  | none => some ([], start)
  | some line => do
    if ← caseAt? dent line then
      let stop ← groupEnd? lines start
      let group ← slice? lines start stop
      if _on : start < stop then
        let more ← groups? dent lines stop
        return (group :: more.1, more.2)
      else none
    else return ([], start)
termination_by lines.length - start
decreasing_by
  have := (List.getElem?_eq_some_iff.1 _h).1
  omega

/-- The lines from a cursor on, with every run of groups of one indentation sorted. -/
def sortGroupsFrom? (dent : Nat) (lines : List String) (start : Nat) : Option (List String) :=
  match _h : lines[start]? with
  | none => some []
  | some line => do
    if ← caseAt? dent line then
      let run ← groups? dent lines start
      if _on : start < run.2 then
        let more ← sortGroupsFrom? dent lines run.2
        return (sortGroups run.1).flatten ++ more
      else none
    else
      let _ ← word? (start + 1)
      let more ← sortGroupsFrom? dent lines (start + 1)
      return line :: more
termination_by lines.length - start
decreasing_by
  all_goals
    have := (List.getElem?_eq_some_iff.1 _h).1
    omega

/-- The indentation of a case line. -/
def caseDent? (line : String) : Option (Option Nat) := do
  if ← caseLine? line then
    let dent ← indentation? line
    return some dent
  else return none

/-- The lines with every run of case groups sorted, the deepest first. -/
def sortCaseGroups? (lines : List String) : Option (List String) := do
  let dents ← lines.mapM caseDent?
  ((dents.filterMap id).mergeSort fun a b => b ≤ a).eraseDups.foldlM
    (fun lines dent => sortGroupsFrom? dent lines 0) lines

/-- The lines of a method body with case labels and case groups in order. -/
def normalizeCases? (lines : List String) : Option (List String) := do
  let labeled ← lines.mapM fun line => do return (← sortLabels? line).getD line
  sortCaseGroups? labeled

/-! ## What is done to a line -/

section Line

variable {line : String} {text front tail : List Char} {pieces : List (List Char)} {dent : Nat}

theorem piecesFrom?_eq (hne : pieces ≠ []) (hsize : size text < wordValues)
    (ht : text = front ++ ([','].intercalate pieces ++ tail)) :
    piecesFrom? text (size front + size ([','].intercalate pieces)) (size front)
      (commaOffsets (size front) pieces) = some pieces := by
  induction pieces generalizing front with
  | nil => exact absurd rfl hne
  | cons piece pieces ih =>
    cases pieces with
    | nil =>
      rw [List.intercalate_singleton, ← List.append_assoc] at ht
      rw [List.intercalate_singleton, commaOffsets, piecesFrom?, ht, middle?_append]
      rfl
    | cons next pieces =>
      rw [List.intercalate_cons_cons] at ht
      have hcut : text = front ++ piece ++ (',' :: ([','].intercalate (next :: pieces) ++ tail)) := by
        simp [ht]
      have hcomma : ','.utf8Size = 1 := rfl
      have hfront : size (front ++ piece ++ [',']) = size front + size piece + 1 := by
        simp only [size_append, size_cons, size_nil, hcomma, Nat.add_zero]
      have ih := @ih (front ++ piece ++ [',']) (List.cons_ne_nil _ _) (by simp [ht])
      have hword : size front + size piece + 1 < wordValues := by
        have hle := congrArg size hcut
        simp only [size_append, size_cons, hcomma] at hle
        omega
      have hpiece : middle? text (size front) (size front + size piece) = some piece := by
        rw [hcut, middle?_append]
      have harrow : size front + size ([','].intercalate (piece :: next :: pieces)) =
          size (front ++ piece ++ [',']) + size ([','].intercalate (next :: pieces)) := by
        rw [List.intercalate_cons_cons]
        simp only [size_append, Nat.add_assoc]
      rw [hfront] at ih harrow
      rw [commaOffsets, piecesFrom?, hpiece, harrow]
      simp only [Option.bind_eq_bind, Option.bind_some, word?_eq hword, ih, Option.pure_def]

theorem behindCase?_eq (h : Fits line) : behindCase? line (word (indentation line)) =
    if startsWith "case " line then some ((unindented line).drop 5) else none := by
  rw [behindCase?]
  cases hblank : isBlank line with
  | true =>
    have hcase : ¬ startsWith "case " line = true := fun hs => by
      rw [isBlank_of_startsWith (c := 'c') rfl rfl hs] at hblank
      cases hblank
    rw [indentation, hblank, if_pos rfl, word, cut?_blankIndentation h, if_neg hcase]
    rfl
  | false =>
    rw [indentation_of_not_isBlank hblank, word, cut?_indentation]
    rfl

theorem scan?_mark (h : size text < sizeLimit) :
    scan? (bytes text) none [] 0 = some (found 0 (mark text)) := by
  have hlen : (bytes text).length + 1 < wordValues := by
    unfold size sizeLimit at h
    unfold wordValues
    omega
  have hscan := @scan?_eq (bytes text) [] [] text none hlen (List.nil_append _).symm nofun
  rw [List.length_nil, List.nil_append] at hscan
  exact hscan

theorem isEmpty_commaOffsets (hne : pieces ≠ []) (offset : Nat) :
    (commaOffsets offset pieces).isEmpty = decide (pieces.length < 2) := by
  rcases pieces with _ | ⟨piece, _ | ⟨next, pieces⟩⟩
  · exact absurd rfl hne
  · rfl
  · simp [commaOffsets]

theorem size_drop_unindented_lt (h : Fits line) (n : Nat) :
    size ((unindented line).drop n) < sizeLimit := by
  have hle := size_line line
  have hdrop := congrArg size (List.take_append_drop n (unindented line))
  rw [size_append] at hdrop
  unfold Fits at h
  omega

theorem sortLabels?_eq (h : Fits line) : sortLabels? line = some (sortLabels line) := by
  rw [sortLabels?, indentation?_eq, Option.bind_eq_bind, Option.bind_some, behindCase?_eq h,
    sortLabels, caseLabels?]
  cases hcase : startsWith "case " line with
  | false => rfl
  | true =>
    have hblank : isBlank line = false := isBlank_of_startsWith (c := 'c') rfl rfl hcase
    have hsize := size_drop_unindented_lt h 5
    simp only [if_true, scan?_mark hsize, Option.bind_eq_bind, Option.bind_some]
    cases hcut : cutBeforeArrow (mark ((unindented line).drop 5)) with
    | none => simp only [found_eq_none hcut, Option.map_none, Option.pure_def]
    | some cut =>
      obtain ⟨pieces, tail⟩ := cut
      obtain ⟨hne, hunmark⟩ := unmark_of_cutBeforeArrow hcut
      rw [mark, unmark_markFrom] at hunmark
      have hpieces := @piecesFrom?_eq _ [] _ _ hne (Nat.lt_trans hsize (by decide)) hunmark
      have harrow : cut? ((unindented line).drop 5) (size ([','].intercalate pieces)) =
          some ([','].intercalate pieces, tail) := by rw [hunmark, cut?_append]
      rw [size_nil, Nat.zero_add] at hpieces
      simp only [found_eq_offsets hcut, isEmpty_commaOffsets hne, Nat.zero_add, hpieces, harrow,
        indentation_of_not_isBlank hblank, word, cut?_indentation, Option.bind_some,
        Option.map_some, List.length_map, Option.pure_def]
      by_cases hfew : pieces.length < 2
      · simp [hfew]
      · simp only [hfew, decide_false, Bool.false_eq_true, if_false, Bool.false_or]
        split <;> rfl

theorem caseLine?_eq (h : Fits line) : caseLine? line = some (isCaseLine line) := by
  unfold caseLine? isCaseLine
  split
  · next hstart =>
    have hsize := size_drop_unindented_lt h 0
    rw [List.drop_zero] at hsize
    rw [scan?_mark hsize, hstart, Bool.true_and, hasArrow]
    cases hcut : cutBeforeArrow (mark (unindented line)) with
    | none => simp [found_eq_none hcut]
    | some cut =>
      obtain ⟨pieces, tail⟩ := cut
      simp [found_eq_offsets hcut]
  · next hstart => rw [Bool.eq_false_iff.2 hstart, Bool.false_and]

theorem caseAt?_eq (h : Fits line) (hdent : dent < sizeLimit) :
    caseAt? dent line = some (isCaseAt dent line) := by
  rw [caseAt?, caseLine?_eq h, isCaseAt, Option.bind_eq_bind, Option.bind_some]
  split
  · next hcase =>
    rw [indentation?_eq, hcase, Bool.true_and, Option.bind_eq_bind, Option.bind_some,
      Option.pure_def, Option.some_inj, Bool.eq_iff_iff, beq_iff_eq, beq_iff_eq]
    exact word_inj (b := .spaces dent) h.bounded hdent
  · next hcase => rw [Bool.eq_false_iff.2 hcase, Bool.false_and, Option.pure_def]

end Line

/-! ## What is done to the groups -/

section Groups

variable {lines below rest : List String} {line : String} {dent i : Nat}

variable (hlength : lines.length < sizeLimit) (hfits : ∀ l ∈ lines, Fits l)

include hlength in
theorem succ_lt_wordValues (hi : i ≤ lines.length) : i + 1 < wordValues := by
  unfold sizeLimit at hlength
  unfold wordValues
  omega

include hlength hfits

theorem groupEnd?_eq (hdrop : lines.drop i = line :: below) (hcase : isCaseAt dent line = true) :
    groupEnd? lines i = some (i + 1 + (splitGroup dent below).1.length) := by
  have hline := hfits line (List.mem_of_getElem? (getElem?_of_drop hdrop))
  have hindent : indentation line = .spaces dent := by
    rw [isCaseAt, Bool.and_eq_true, beq_iff_eq] at hcase
    exact hcase.2
  have hdent : dent < sizeLimit := by
    have hbounded := hline.bounded
    rw [hindent] at hbounded
    exact hbounded
  have hbelow := drop_succ_of_drop hdrop
  have hdeep : ∀ l ∈ lines.drop (i + 1),
      (do return decide (dent < (← indentation? l)) : Option Bool) = some (isInside dent l) := by
    intro l hl
    rw [indentation?_eq, Option.bind_eq_bind, Option.bind_some, Option.pure_def, Option.some_inj,
      Bool.eq_iff_iff, decide_eq_true_eq, lt_word_iff (hfits l (List.mem_of_mem_drop hl)) hdent]
  have hsplit := List.takeWhile_append_dropWhile (p := isInside dent) (l := below)
  have hstop := drop_add_of_drop (hbelow.trans hsplit.symm)
  have hword := succ_lt_wordValues hlength (Nat.le_of_lt (lt_length_of_drop hdrop))
  have hadvance := advance?_eq (Nat.lt_trans hlength (by decide)) hdeep
  rw [hbelow] at hadvance
  rw [groupEnd?, getElem?_of_drop hdrop, splitGroup]
  simp only [Option.bind_eq_bind, Option.bind_some, indentation?_eq, hindent, word,
    word?_eq hword] at hadvance ⊢
  rw [hadvance, Option.bind_some]
  cases hd : below.dropWhile (isInside dent) with
  | nil =>
    have hall : below.takeWhile (isInside dent) = below := by
      rw [hd, List.append_nil] at hsplit
      exact hsplit
    rw [getElem?_of_drop_nil (hstop.trans hd), hall]
    rfl
  | cons last more =>
    rw [hd] at hstop
    have hlast := getElem?_of_drop hstop
    have hend := succ_lt_wordValues hlength (Nat.le_of_lt (lt_length_of_drop hstop))
    simp only [hlast, closes?_eq hdent (by decide : size "\x7d".toList ≤ 2), Option.bind_some]
    split
    · rw [word?_eq hend, List.length_append, List.length_singleton, Nat.add_assoc]
    · rfl

omit hlength hfits in
theorem groups?_of_nil (hls : lines.drop i = []) : groups? dent lines i = some ([], i) := by
  rw [groups?]
  split
  · rfl
  · next h => rw [getElem?_of_drop_nil hls] at h; cases h

omit hlength hfits in
/-- One step over the groups of an indentation. -/
theorem groups?_of_drop (hls : lines.drop i = line :: below) : groups? dent lines i = do
    if ← caseAt? dent line then
      let stop ← groupEnd? lines i
      let group ← slice? lines i stop
      if i < stop then
        let more ← groups? dent lines stop
        return (group :: more.1, more.2)
      else none
    else return ([], i) := by
  rw [groups?]
  split
  · next h => rw [getElem?_of_drop hls] at h; cases h
  · next h =>
    obtain rfl := Option.some.inj ((getElem?_of_drop hls).symm.trans h)
    rfl

theorem groups?_eq (hdent : dent < sizeLimit) (ls : List String) :
    ∀ i ≤ lines.length, lines.drop i = ls →
      groups? dent lines i = some ((leadingGroups dent ls).1,
        lines.length - (leadingGroups dent ls).2.length) := by
  fun_induction leadingGroups dent ls with
  | case1 =>
    intro i hi hls
    rw [groups?_of_nil hls, length_sub_length_of_drop hi hls]
  | case2 line below hcase group more ih =>
    intro i hi hls
    have hline := hfits line (List.mem_of_getElem? (getElem?_of_drop hls))
    have hgroup : line :: below = (line :: group.1) ++ group.2 :=
      congrArg (line :: ·) (splitGroup_append dent below).symm
    have hslice := slice?_eq_of_drop hi (hls.trans hgroup)
    have hdrop := drop_add_of_drop (hls.trans hgroup)
    have hlen := congrArg List.length (hls.trans hgroup)
    rw [List.length_drop, List.length_append, List.length_cons] at hlen
    rw [List.length_cons, Nat.add_comm group.1.length, ← Nat.add_assoc] at hslice hdrop
    have hmore := ih (i + 1 + group.1.length) (by omega) hdrop
    have hon : i < i + 1 + group.1.length := by omega
    have hstop : groupEnd? lines i = some (i + 1 + group.1.length) :=
      groupEnd?_eq hlength hfits hls hcase
    rw [groups?_of_drop hls]
    simp only [caseAt?_eq hline hdent, hcase, if_true, Option.bind_eq_bind, Option.bind_some,
      hstop, hslice, if_pos hon, hmore]
    rfl
  | case3 line below hcase =>
    intro i hi hls
    have hline := hfits line (List.mem_of_getElem? (getElem?_of_drop hls))
    rw [groups?_of_drop hls, length_sub_length_of_drop hi hls]
    simp only [caseAt?_eq hline hdent, hcase, Option.bind_eq_bind, Option.bind_some]
    rfl

omit hlength hfits in
theorem sortGroupsFrom?_of_nil (hls : lines.drop i = []) :
    sortGroupsFrom? dent lines i = some [] := by
  rw [sortGroupsFrom?]
  split
  · rfl
  · next h => rw [getElem?_of_drop_nil hls] at h; cases h

omit hlength hfits in
theorem sortGroupsFrom?_of_drop (hls : lines.drop i = line :: below) :
    sortGroupsFrom? dent lines i = do
      if ← caseAt? dent line then
        let run ← groups? dent lines i
        if i < run.2 then
          let more ← sortGroupsFrom? dent lines run.2
          return (sortGroups run.1).flatten ++ more
        else none
      else
        let _ ← word? (i + 1)
        let more ← sortGroupsFrom? dent lines (i + 1)
        return line :: more := by
  rw [sortGroupsFrom?]
  split
  · next h => rw [getElem?_of_drop hls] at h; cases h
  · next h =>
    obtain rfl := Option.some.inj ((getElem?_of_drop hls).symm.trans h)
    rfl

theorem sortGroupsFrom?_eq (hdent : dent < sizeLimit) (ls : List String) :
    ∀ i ≤ lines.length, lines.drop i = ls →
      sortGroupsFrom? dent lines i = some (sortGroupsAt dent ls) := by
  fun_induction sortGroupsAt dent ls with
  | case1 =>
    intro i hi hls
    exact sortGroupsFrom?_of_nil hls
  | case2 line below hcase group more ih =>
    intro i hi hls
    have hline := hfits line (List.mem_of_getElem? (getElem?_of_drop hls))
    have hrun : ((line :: group.1) :: more.1).flatten ++ more.2 = line :: below :=
      run_append dent line below
    have hsuffix : more.2 <:+ lines :=
      (List.suffix_append _ _).trans (hrun ▸ hls ▸ List.drop_suffix i lines)
    have hgroups := groups?_eq hlength hfits hdent (line :: below) i hi hls
    have hleading : leadingGroups dent (line :: below) = ((line :: group.1) :: more.1, more.2) := by
      rw [leadingGroups, if_pos hcase]
    have hlen := congrArg List.length (hls.trans hrun.symm)
    rw [List.flatten_cons, List.length_drop, List.length_append, List.length_append,
      List.length_cons] at hlen
    have hon : i < lines.length - more.2.length := by omega
    have hmore := ih (lines.length - more.2.length) (Nat.sub_le _ _) (drop_of_suffix hsuffix)
    rw [hleading] at hgroups
    rw [sortGroupsFrom?_of_drop hls]
    simp only [caseAt?_eq hline hdent, hcase, if_true, Option.bind_eq_bind, Option.bind_some,
      hgroups, if_pos hon, hmore]
    rfl
  | case3 line below hcase ih =>
    intro i hi hls
    have hline := hfits line (List.mem_of_getElem? (getElem?_of_drop hls))
    have hmore := ih (i + 1) (lt_length_of_drop hls) (drop_succ_of_drop hls)
    rw [sortGroupsFrom?_of_drop hls]
    simp only [caseAt?_eq hline hdent, hcase, Option.bind_eq_bind, Option.bind_some,
      word?_eq (succ_lt_wordValues hlength hi), hmore]
    rfl

end Groups

/-! ## Method bodies -/

section Bodies

variable {lines : List String}

theorem isBlank_of_isCaseLine {line : String} (h : isCaseLine line = true) :
    isBlank line = false := by
  simp only [isCaseLine, Bool.and_eq_true, Bool.or_eq_true] at h
  rcases h.1 with h | h
  · exact isBlank_of_startsWith (c := 'c') rfl rfl h
  · exact isBlank_of_startsWith (c := 'd') rfl rfl h

theorem caseDent?_eq {line : String} (h : Fits line) : caseDent? line =
    some (if isCaseLine line then some (leadingSpaces line) else none) := by
  rw [caseDent?, caseLine?_eq h, Option.bind_eq_bind, Option.bind_some]
  split
  · next hcase =>
    rw [indentation?_of_not_isBlank (isBlank_of_isCaseLine hcase)]
    rfl
  · rfl

theorem filterMap_caseDents :
    (lines.map fun line => if isCaseLine line then some (leadingSpaces line) else none).filterMap id =
      (lines.filter isCaseLine).map leadingSpaces := by
  rw [List.filterMap_map]
  induction lines with
  | nil => rfl
  | cons line lines ih =>
    cases hcase : isCaseLine line with
    | true => rw [List.filter_cons_of_pos hcase, List.map_cons, ← ih]; simp [hcase]
    | false => rw [List.filter_cons_of_neg (by simp [hcase]), ← ih]; simp [hcase]

/-- Sorting the groups of one indentation leaves the lines that there were for the next one. -/
theorem foldlM_sortGroups_eq {dents : List Nat} (hdents : ∀ dent ∈ dents, dent < sizeLimit)
    (hlength : lines.length < sizeLimit) (hfits : ∀ l ∈ lines, Fits l) :
    dents.foldlM (fun lines dent => sortGroupsFrom? dent lines 0) lines =
      some (dents.foldl (fun lines dent => sortGroupsAt dent lines) lines) := by
  induction dents generalizing lines with
  | nil => rfl
  | cons dent dents ih =>
    have hperm := sortGroupsAt_perm dent lines
    have hsorted := sortGroupsFrom?_eq hlength hfits (hdents dent List.mem_cons_self) lines 0
      (Nat.zero_le _) List.drop_zero
    rw [List.foldlM_cons, hsorted, Option.bind_eq_bind, Option.bind_some, List.foldl_cons]
    exact ih (fun d hd => hdents d (List.mem_cons_of_mem dent hd)) (hperm.length_eq ▸ hlength)
      fun l hl => hfits l (hperm.mem_iff.1 hl)

theorem sortCaseGroups?_eq (hlength : lines.length < sizeLimit) (hfits : ∀ l ∈ lines, Fits l) :
    sortCaseGroups? lines = some (sortCaseGroups lines) := by
  have hdents : ∀ dent ∈ caseIndentations lines, dent < sizeLimit := by
    intro dent hdent
    rw [caseIndentations, List.mem_eraseDups, List.mem_mergeSort] at hdent
    obtain ⟨line, hline, rfl⟩ := List.mem_map.1 hdent
    exact (hfits line (List.mem_filter.1 hline).1).leadingSpaces_lt
  rw [sortCaseGroups?, mapM_eq_some fun l hl => caseDent?_eq (hfits l hl), Option.bind_eq_bind,
    Option.bind_some, filterMap_caseDents]
  exact foldlM_sortGroups_eq hdents hlength hfits

/-- **No method body stops the sort of its cases.** -/
theorem normalizeCases?_eq (hlength : lines.length < sizeLimit) (hfits : ∀ l ∈ lines, Fits l)
    (hlabels : ∀ l ∈ lines, Fits ((sortLabels l).getD l)) :
    normalizeCases? lines = some (normalizeCases lines) := by
  have hlabel : ∀ l ∈ lines, (do return (← sortLabels? l).getD l : Option String) =
      some ((sortLabels l).getD l) := fun l hl => by
    rw [sortLabels?_eq (hfits l hl)]
    rfl
  rw [normalizeCases?, mapM_eq_some hlabel, Option.bind_eq_bind, Option.bind_some,
    sortCaseGroups?_eq (by rwa [List.length_map]) fun l hl => ?_]
  · rfl
  · obtain ⟨l', hl', rfl⟩ := List.mem_map.1 hl
    exact hlabels l' hl'

end Bodies

end HouseStyle.Machine
