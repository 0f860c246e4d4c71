import HouseStyle.Block.Layout
import HouseStyle.Proofs.Block.Reads
import HouseStyle.Proofs.CodeLines

/-!
# The logical lines of a file

Whatever the tree looks like, reading takes the logical lines off the input one after the other and
writing puts them back, each as the physical lines it was.  Only the blank lines between them
differ.

* `logicalLines`: the logical lines of a text.
* `Segments`: the logical lines a tree is made of.
* `Spread`: logical lines with any number of blank lines around them.
* `Reads.takes`, `Segments.spread`: what reading takes and what writing gives.
* `compose_spread`: **writing a file that was read keeps its logical lines.**
-/

namespace HouseStyle.Block

open Text

/-! ## Definitions -/

/-- The logical lines of a text; `none` if the last one is left open. -/
def logicalLines (lines : List String) : Option (List (List String)) :=
  match _h : skipBlank lines with
  | [] => some []
  | line :: below =>
    match _hl : logicalLine line below with
    | none => none
    | some (block, rest) => (logicalLines rest).map (block :: ·)
termination_by lines.length
decreasing_by
  have hs := (skipBlank_sublist lines).length_le
  have hr := length_rest_logicalLine _hl
  rw [_h, List.length_cons] at hs
  omega

theorem logicalLines_eq (lines : List String) :
    logicalLines lines = match skipBlank lines with
      | [] => some []
      | line :: below =>
        match logicalLine line below with
        | none => none
        | some (block, rest) => (logicalLines rest).map (block :: ·) := by
  rw [logicalLines]
  split
  · next hs => rw [hs]
  · next line below hs =>
    simp only [hs]
    split
    · next hl => rw [hl]
    · next hl => simp only [hl]

/-- The lines are logical lines, one after the other, and blank lines around them. -/
inductive Spread : List (List String) → List String → Prop
  | nil : Spread [] []
  | blank {blocks : List (List String)} {line : String} {lines : List String}
      (h : isBlank line = true) (hs : Spread blocks lines) : Spread blocks (line :: lines)
  | block {blocks : List (List String)} {lines : List String} (block : List String)
      (hs : Spread blocks lines) : Spread (block :: blocks) (block ++ lines)

/-- The logical lines of a list of nodes: those of decorators, signature and body for a block. -/
inductive Segments : List Node → List (List String) → Prop
  | nil : Segments [] []
  | statement {nodes : List Node} {blocks : List (List String)} (lines : List String)
      (hs : Segments nodes blocks) : Segments (.statement lines :: nodes) (lines :: blocks)
  | block {body nodes : List Node} {inner blocks : List (List String)} (kind : Kind)
      (decorators : List (List String)) (signature : List String) (hb : Segments body inner)
      (hs : Segments nodes blocks) :
      Segments (.block kind decorators.flatten signature body :: nodes)
        (decorators ++ signature :: (inner ++ blocks))

/-- Whether a logical line begins and ends with a line that is not blank. -/
structure Bounded (block : List String) : Prop where
  first : ∃ line, block.head? = some line ∧ isBlank line = false
  last : ∀ line ∈ block.getLast?, isBlank line = false

/-- `Takes lines blocks rest` says that `blocks` are logical lines at the start of `lines`, in front
of `rest`. -/
inductive Takes : List String → List (List String) → List String → Prop
  | nil (lines : List String) : Takes lines [] lines
  | blank {line : String} {lines rest : List String} {blocks : List (List String)}
      (h : isBlank line = true) (ht : Takes lines blocks rest) : Takes (line :: lines) blocks rest
  | block {line : String} {below block after rest : List String} {blocks : List (List String)}
      (h : isBlank line = false) (hl : logicalLine line below = some (block, after))
      (ht : Takes after blocks rest) : Takes (line :: below) (block :: blocks) rest

/-! ## Logical lines of a text -/

namespace Spread

variable {a b : List (List String)} {lines rest : List String}

theorem append (ha : Spread a lines) (hb : Spread b rest) : Spread (a ++ b) (lines ++ rest) := by
  induction ha with
  | nil => exact hb
  | blank h _ ih => exact .blank h ih
  | block block _ ih =>
    rw [List.append_assoc]
    exact .block block ih

theorem blanks (count : Nat) (h : Spread a lines) :
    Spread a (List.replicate count "" ++ lines) := by
  induction count with
  | zero => exact h
  | succ count ih => exact .blank rfl ih

theorem flatten (blocks : List (List String)) : Spread blocks blocks.flatten := by
  induction blocks with
  | nil => exact .nil
  | cons block blocks ih => exact .block block ih

theorem codeLines_eq (h : Spread a lines) : codeLines lines = codeLines a.flatten := by
  induction h with
  | nil => rfl
  | blank h _ ih => rw [codeLines_cons_of_isBlank h, ih]
  | block block _ ih => rw [codeLines_append, ih, List.flatten_cons, codeLines_append]

end Spread

namespace Takes

variable {a b : List (List String)} {lines middle rest : List String}

theorem append (ha : Takes lines a middle) (hb : Takes middle b rest) :
    Takes lines (a ++ b) rest := by
  induction ha with
  | nil => exact hb
  | blank h _ ih => exact .blank h (ih hb)
  | block h hl _ ih => exact .block h hl (ih hb)

theorem of_skipBlank (h : Takes (skipBlank lines) a rest) : Takes lines a rest := by
  induction lines with
  | nil => exact h
  | cons line lines ih =>
    cases hb : isBlank line with
    | true =>
      rw [skipBlank, List.dropWhile_cons_of_pos hb] at h
      exact .blank hb (ih h)
    | false =>
      rw [skipBlank, List.dropWhile_cons_of_neg (by simp [hb])] at h
      exact h

theorem logicalLines_eq_some (h : Takes lines a rest) (hrest : skipBlank rest = []) :
    logicalLines lines = some a := by
  induction h with
  | nil => rw [logicalLines_eq, hrest]
  | @blank line lines _ _ hb _ ih =>
    have hskip : skipBlank (line :: lines) = skipBlank lines := List.dropWhile_cons_of_pos hb
    rw [← ih hrest, logicalLines_eq, logicalLines_eq lines, hskip]
  | @block line below _ _ _ _ hb hl _ ih =>
    have hskip : skipBlank (line :: below) = line :: below :=
      List.dropWhile_cons_of_neg (by simp [hb])
    rw [logicalLines_eq, hskip]
    simp only [hl, ih hrest, Option.map_some]

theorem spread (h : Takes lines a rest) : ∃ taken, lines = taken ++ rest ∧ Spread a taken := by
  induction h with
  | nil => exact ⟨[], rfl, .nil⟩
  | blank hb _ ih =>
    obtain ⟨taken, rfl, hs⟩ := ih
    exact ⟨_ :: taken, rfl, .blank hb hs⟩
  | block hb hl _ ih =>
    obtain ⟨taken, rfl, hs⟩ := ih
    exact ⟨_ ++ taken, by rw [List.append_assoc, append_of_logicalLine hl], .block _ hs⟩

theorem bounded (h : Takes lines a rest) : ∀ block ∈ a, Bounded block := by
  induction h with
  | nil => exact fun _ hm => nomatch hm
  | blank _ _ ih => exact ih
  | @block line _ _ _ _ _ hb hl _ ih =>
    refine List.forall_mem_cons.2 ⟨⟨⟨line, head?_of_logicalLine hl, hb⟩, ?_⟩, ih⟩
    obtain ⟨kept, rfl, -, hkept, -⟩ := logicalLine_eq_some hl
    intro last hlast
    cases kept with
    | nil => exact Option.some.inj hlast ▸ hb
    | cons line' kept =>
      rw [List.getLast?_cons_cons, ← hkept] at hlast
      exact getLast?_dropTrailing hlast

end Takes

/-! ## Logical lines of a tree -/

theorem takes_readDecorators {dent : Indentation} {lines header rest : List String}
    (h : readDecorators dent lines = .ok (header, rest)) :
    ∃ decorators, decorators.flatten = header ∧ Takes lines decorators rest := by
  fun_induction readDecorators dent lines generalizing header rest with
  | case1 => cases h; exact ⟨[], rfl, .nil _⟩
  | case2 => cases h
  | case3 line below hd decorator after hl _ ih =>
    obtain ⟨⟨more, rest'⟩, hr, he⟩ := exists_of_map_eq_ok h
    cases he
    obtain ⟨decorators, rfl, ht⟩ := ih hr
    rw [Bool.and_eq_true] at hd
    exact ⟨decorator :: decorators, rfl,
      .block (isBlank_of_isMarked hd.1) hl ht.of_skipBlank⟩
  | case4 => cases h; exact ⟨[], rfl, .nil _⟩

/-- The decorators of a block are logical lines in front of the line that opens it. -/
theorem takes_of_opening? {line : String} {below : List String} {o : Opening}
    (h : opening? line below = .ok (some o)) :
    ∃ decorators, decorators.flatten = o.header ∧
      Takes (line :: below) decorators (o.line :: o.below) := by
  obtain ⟨-, ⟨-, hheader, hline, hbelow⟩ | ⟨-, -, hread⟩⟩ := opening?_eq_some_iff.1 h
  · exact ⟨[], hheader.symm, by rw [hline, hbelow]; exact .nil _⟩
  · exact takes_readDecorators hread

theorem isBlank_of_skipBlank {lines : List String} {line : String} {below : List String}
    (h : skipBlank lines = line :: below) : isBlank line = false := by
  have hd := List.head?_dropWhile_not isBlank lines
  rw [show lines.dropWhile isBlank = line :: below from h] at hd
  simpa using hd

/-- **Reading takes the logical lines of the tree off the input.** -/
theorem Reads.takes {dent : Option Nat} {lines rest : List String} {nodes : List Node}
    (h : Reads dent lines nodes rest) :
    ∃ blocks, Segments nodes blocks ∧ Takes lines blocks rest := by
  induction h with
  | nil h => exact ⟨[], .nil, .of_skipBlank (h ▸ .nil _)⟩
  | stop h _ => exact ⟨[], .nil, .of_skipBlank (h ▸ .nil _)⟩
  | statement h _ _ hl _ ih =>
    obtain ⟨blocks, hseg, ht⟩ := ih
    exact ⟨_ :: blocks, .statement _ hseg,
      .of_skipBlank (h ▸ .block (isBlank_of_skipBlank h) hl ht)⟩
  | block h _ ho hl _ _ _ ihb ihr =>
    obtain ⟨decorators, hheader, hd⟩ := takes_of_opening? ho
    obtain ⟨inner, hinner, hti⟩ := ihb
    obtain ⟨blocks, hblocks, htb⟩ := ihr
    rw [← hheader]
    refine ⟨decorators ++ _ :: (inner ++ blocks), .block _ _ _ hinner hblocks, ?_⟩
    have hline := isBlank_of_kind? (opening?_eq_some_iff.1 ho).1
    exact .of_skipBlank (h ▸ hd.append (.block hline hl (hti.append htb)))

/-- **Writing gives the logical lines of the tree.** -/
theorem Segments.spread {nodes : List Node} {blocks : List (List String)}
    (h : Segments nodes blocks) :
    ∀ topLevel before, Spread blocks (composeAfter topLevel before nodes) := by
  induction h with
  | nil => exact fun _ _ => .nil
  | statement lines _ ih =>
    intro topLevel before
    rw [composeAfter, composeNode, List.append_assoc]
    exact .blanks _ (.block lines (ih _ _))
  | block kind decorators signature _ _ ihb ihr =>
    intro topLevel before
    rw [composeAfter, composeNode, List.append_assoc, List.append_assoc, List.append_assoc]
    exact .blanks _ ((Spread.flatten decorators).append
      (.block signature ((ihb _ _).append (ihr _ _))))

/-! ## Files -/

theorem reads_of_parse {lines : List String} {nodes : List Node} (h : parse lines = .ok nodes) :
    ∃ rest, Reads none lines nodes rest := by
  unfold parse at h
  cases hr : read none lines with
  | error e => rw [hr] at h; cases h
  | ok p =>
    rw [hr] at h
    cases h
    exact ⟨p.2, reads_of_read hr⟩

theorem rest_of_reads_none {lines rest : List String} {nodes : List Node}
    (h : Reads none lines nodes rest) : rest = [] := by
  generalize hd : none = dent at h
  induction h with
  | nil => rfl
  | stop h hc => subst hd; cases hc
  | statement _ _ _ _ _ ih => exact ih hd
  | block _ _ _ _ _ _ _ _ ih => exact ih hd

/-- **Writing a file that was read keeps its logical lines**, each with its physical lines, and all
its lines of code.  Blank lines differ only between logical lines. -/
theorem compose_spread {lines : List String} {nodes : List Node} (h : parse lines = .ok nodes) :
    codeLines (compose true nodes) = codeLines lines ∧
      ∃ blocks, logicalLines lines = some blocks ∧ (∀ block ∈ blocks, Bounded block) ∧
        Segments nodes blocks ∧ Spread blocks lines ∧ Spread blocks (compose true nodes) := by
  obtain ⟨rest, hr⟩ := reads_of_parse h
  obtain rfl := rest_of_reads_none hr
  obtain ⟨blocks, hseg, ht⟩ := hr.takes
  obtain ⟨taken, htaken, hspread⟩ := ht.spread
  rw [List.append_nil] at htaken
  subst htaken
  have hwritten : Spread blocks (compose true nodes) := hseg.spread true none
  exact ⟨hwritten.codeLines_eq.trans hspread.codeLines_eq.symm, blocks, ht.logicalLines_eq_some rfl,
    ht.bounded, hseg, hspread, hwritten⟩

/-- A decorator, a signature on three physical lines, one of them blank, and two statements. -/
theorem compose_spread_decorated :
    ∃ nodes, parse ["@cached", "", "def f(x,", "", "      y):", "    return x", "z = 1"] =
        .ok nodes ∧
      Spread [["@cached"], ["def f(x,", "", "      y):"], ["    return x"], ["z = 1"]]
        (compose true nodes) := by
  have h : parse ["@cached", "", "def f(x,", "", "      y):", "    return x", "z = 1"] =
      .ok [.block .function ["@cached"] ["def f(x,", "", "      y):"]
        [.statement ["    return x"]], .statement ["z = 1"]] := by decide +kernel
  obtain ⟨-, blocks, hblocks, -, -, -, hspread⟩ := compose_spread h
  have hfour : some blocks =
      some [["@cached"], ["def f(x,", "", "      y):"], ["    return x"], ["z = 1"]] := by
    rw [← hblocks]
    decide +kernel
  exact ⟨_, h, Option.some.inj hfour ▸ hspread⟩

end HouseStyle.Block
