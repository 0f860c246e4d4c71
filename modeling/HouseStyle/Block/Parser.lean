import HouseStyle.Block.Basic
import HouseStyle.Block.LogicalLine

/-!
# Reading blocks

A block owns the lines that are deeper than its opening line. Blank lines between statements carry
no structure; those inside a statement are kept. A comment belongs where the next line of code
belongs, so a comment at the margin does not end a function. While reading, an error is located by
the number of lines that were left; `parse` turns this into the line number in the file.

* `readNode`, `readNodes`: one node, and the nodes deeper than a given indentation.
* `parse`: a whole file.
-/

namespace HouseStyle.Block

open Text

/-- What is wrong with a line. -/
inductive Fault where
  /-- It opens a block of the kind and shows no name. -/
  | unnamed (kind : Kind)
  /-- The input ends inside the statement that begins with it. -/
  | unfinished
  deriving DecidableEq, Repr

/-- Why a file cannot be read. -/
structure ParseError where
  line : Nat
  text : String
  fault : Fault
  deriving DecidableEq, Repr

/-- What is said about the error. -/
def ParseError.message (e : ParseError) : String :=
  "line " ++ toString e.line ++ ": " ++
    match e.fault with
    | .unnamed kind => kind.label ++ " signature has no name: " ++ e.text
    | .unfinished => "input ends inside this statement: " ++ e.text

/-! ## Openings -/

/-- The text behind a keyword that is followed by white space. -/
def behindKeyword? (keyword : String) (text : List Char) : Option (List Char) :=
  match text.drop keyword.length with
  | c :: rest => if keyword.toList.isPrefixOf text && isSpace c then some rest else none
  | [] => none

/-- The kind of block that a line opens. -/
def kind? (line : String) : Option Kind :=
  let text := unindented line
  let afterAsync := ((behindKeyword? "async" text).map (·.dropWhile isSpace)).getD text
  if (behindKeyword? "class" text).isSome then some .namedClass
  else if (behindKeyword? "def" afterAsync).isSome then some .function
  else none

/-- The lines without the blank lines at their start. -/
def skipBlank (lines : List String) : List String := lines.dropWhile isBlank

/-- The error of a statement that begins with `line` and never ends. -/
def unfinished (line : String) (below : List String) : ParseError :=
  ⟨below.length + 1, line, .unfinished⟩

/-- The decorators of the given indentation at the start of the lines, blank lines between them
skipped, and the lines after them. -/
def readDecorators (dent : Indentation) (lines : List String) :
    Except ParseError (List String × List String) :=
  match lines with
  | [] => .ok ([], [])
  | line :: below =>
    if isMarked line && indentation line == dent then
      match h : logicalLine line below with
      | none => .error (unfinished line below)
      | some (decorator, rest) =>
        have : (skipBlank rest).length < (line :: below).length :=
          Nat.lt_succ_of_le (Nat.le_trans (List.dropWhile_sublist _).length_le
            (length_rest_logicalLine h))
        (readDecorators dent (skipBlank rest)).map fun (more, rest) => (decorator ++ more, rest)
    else .ok ([], line :: below)
termination_by lines.length
decreasing_by exact this

/-- The opening line of a block with the decorators above it. -/
structure Opening where
  kind : Kind
  header : List String
  line : String
  below : List String

/-- The block that a line opens, decorators first; `none` if it begins a statement, which a
decorator does that stands above something else than a block of its own indentation. -/
def opening? (line : String) (below : List String) : Except ParseError (Option Opening) :=
  if isMarked line then
    match readDecorators (indentation line) (line :: below) with
    | .error e => .error e
    | .ok (_, []) => .ok none
    | .ok (header, opened :: rest) =>
      if indentation opened == indentation line then
        .ok ((kind? opened).map fun kind => ⟨kind, header, opened, rest⟩)
      else .ok none
  else .ok ((kind? line).map fun kind => ⟨kind, [], line, below⟩)

theorem length_rest_readDecorators {dent : Indentation} {lines header rest : List String}
    (h : readDecorators dent lines = .ok (header, rest)) : rest.length ≤ lines.length := by
  fun_induction readDecorators dent lines generalizing header rest with
  | case1 => cases h; exact Nat.le_refl _
  | case2 => cases h
  | case3 line below _ decorator after _ hlt ih =>
    cases hr : readDecorators dent (skipBlank after) with
    | error e => rw [hr] at h; cases h
    | ok p =>
      rw [hr] at h
      cases h
      exact Nat.le_of_lt (Nat.lt_of_le_of_lt (ih hr) hlt)
  | case4 => cases h; exact Nat.le_refl _

theorem length_below_opening {line : String} {below : List String} {o : Opening}
    (h : opening? line below = .ok (some o)) : o.below.length ≤ below.length := by
  unfold opening? at h
  split at h
  · split at h
    · cases h
    · cases h
    · next heq =>
      have hle := length_rest_readDecorators heq
      split at h
      · cases hk : kind? ‹String› with
        | none => simp [hk] at h
        | some kind =>
          simp only [hk, Option.map_some] at h
          cases h
          exact Nat.le_of_succ_le_succ hle
      · cases h
  · cases hk : kind? line with
    | none => simp [hk] at h
    | some kind =>
      simp only [hk, Option.map_some] at h
      cases h
      exact Nat.le_refl _

/-! ## Nodes -/

/-- Whether the line, followed by the lines below it, belongs to a block opened at `dent`; at the
margin of the file, where there is no `dent`, every line does. -/
def continues (dent : Option Nat) (line : String) (below : List String) : Bool :=
  match dent with
  | none => true
  | some dent =>
    let code := (line :: below).find? fun l => ! isBlank l && ! isComment l
    isInside dent (code.getD line)

/-- The lines left after reading at most all of `lines`. -/
abbrev Remaining (lines : List String) := { rest : List String // rest.length ≤ lines.length }

mutual

/-- The nodes deeper than `dent` at the start of the lines, and the lines after them. -/
def readNodes (dent : Option Nat) (lines : List String) :
    Except ParseError (List Node × Remaining lines) :=
  have hs : (skipBlank lines).length ≤ lines.length := (List.dropWhile_sublist _).length_le
  match h : skipBlank lines with
  | [] => .ok ([], ⟨[], Nat.zero_le _⟩)
  | line :: below =>
    have hb : below.length < lines.length := by rw [h] at hs; exact hs
    if continues dent line below then
      match readNode line below with
      | .error e => .error e
      | .ok (node, after) =>
        match readNodes dent after.1 with
        | .error e => .error e
        | .ok (nodes, final) =>
          .ok (node :: nodes, ⟨final.1, by have := final.2; have := after.2; omega⟩)
    else .ok ([], ⟨line :: below, hb⟩)
termination_by 2 * lines.length
decreasing_by
  · omega
  · have := after.2; omega

/-- The node that begins with a line that is not blank, and the lines after it. -/
def readNode (line : String) (below : List String) :
    Except ParseError (Node × Remaining below) :=
  match ho : opening? line below with
  | .error e => .error e
  | .ok none =>
    match hl : logicalLine line below with
    | none => .error (unfinished line below)
    | some (lines, rest) => .ok (.statement lines, ⟨rest, length_rest_logicalLine hl⟩)
  | .ok (some opening) =>
    have hb := length_below_opening ho
    match hl : logicalLine opening.line opening.below with
    | none => .error (unfinished opening.line opening.below)
    | some (signature, rest) =>
      have hr := length_rest_logicalLine hl
      match opening.kind.name? opening.line with
      | none => .error ⟨opening.below.length + 1, opening.line, .unnamed opening.kind⟩
      | some _ =>
        match readNodes (some (leadingSpaces opening.line)) rest with
        | .error e => .error e
        | .ok (body, final) =>
          .ok (.block opening.kind opening.header signature body,
            ⟨final.1, by have := final.2; omega⟩)
termination_by 2 * below.length + 1
decreasing_by omega

end

/-- The nodes deeper than `dent` at the start of the lines, and the lines after them. -/
def read (dent : Option Nat) (lines : List String) :
    Except ParseError (List Node × List String) :=
  (readNodes dent lines).map fun (nodes, rest) => (nodes, rest.1)

/-- The error with its place counted from the start of an input of `total` lines. -/
def ParseError.locate (total : Nat) (e : ParseError) : ParseError :=
  { e with line := total + 1 - e.line }

/-- Reads a file. -/
def parse (lines : List String) : Except ParseError (List Node) :=
  ((read none lines).map Prod.fst).mapError (·.locate lines.length)

end HouseStyle.Block
