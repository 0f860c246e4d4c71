import HouseStyle.Text.Line

/-!
# Logical lines

A bracket, a string or a backslash left open at the end of a physical line makes the statement go
on with the next one. Brackets are only counted, not matched; what stands in strings and comments
does not count.

* `Continuation.advance`: what is open after one more physical line.
* `logicalLine`: the lines of the statement that begins with a line, and the lines after it.
-/

namespace HouseStyle.Block

open Text

/-- An open string, with the quotation mark that closes it. -/
inductive Quote where
  | single (mark : Char)
  | triple (mark : Char)
  deriving DecidableEq, Repr

/-- What is open between two physical lines. -/
structure Continuation where
  /-- The number of open brackets. -/
  depth : Nat := 0
  quote : Option Quote := none
  /-- Whether the line before ends with a backslash outside strings and comments. -/
  backslash : Bool := false
  deriving DecidableEq, Repr

/-- Whether the next line belongs to the logical line. -/
def Continuation.isOpen (state : Continuation) : Bool :=
  0 < state.depth || state.quote.isSome || state.backslash

/-- What is open within a physical line. -/
structure Opened where
  depth : Nat
  quote : Option Quote
  /-- Whether the rest of the line is a comment. -/
  comment : Bool
  deriving DecidableEq, Repr

/-- Whether a text begins with three of the given quotation marks. -/
def beginsTriple (mark : Char) (text : List Char) : Bool := [mark, mark, mark].isPrefixOf text

/-- Whether a character begins a string. -/
def isQuotationMark (c : Char) : Bool := c == '\x22' || c == '\x27'

/-- Whether a character opens a bracket. -/
def isOpeningBracket (c : Char) : Bool := c == '(' || c == '[' || c == '\x7b'

/-- Whether a character closes a bracket. -/
def isClosingBracket (c : Char) : Bool := c == ')' || c == ']' || c == '\x7d'

/-- What is open after a text. -/
def scan (depth : Nat) (quote : Option Quote) : List Char → Opened
  | [] => ⟨depth, quote, false⟩
  | c :: cs =>
    match quote with
    | some (.triple mark) =>
      if c = '\\' then scan depth quote (cs.drop 1)
      else if beginsTriple mark (c :: cs) then scan depth none (cs.drop 2)
      else scan depth quote cs
    | some (.single mark) =>
      if c = '\\' then scan depth quote (cs.drop 1)
      else scan depth (if c = mark then none else quote) cs
    | none =>
      if c = '#' then ⟨depth, none, true⟩
      else if isQuotationMark c then
        if beginsTriple c (c :: cs) then scan depth (some (.triple c)) (cs.drop 2)
        else scan depth (some (.single c)) cs
      else if isOpeningBracket c then scan (depth + 1) none cs
      else if isClosingBracket c then scan (depth - 1) none cs
      else scan depth none cs
termination_by text => text.length
decreasing_by all_goals simp only [List.length_drop, List.length_cons]; omega

/-- What is open after one more physical line. A string in single quotation marks goes on only past
a backslash at the end of the line. -/
def Continuation.advance (state : Continuation) (line : String) : Continuation :=
  let opened := scan state.depth state.quote line.toList
  let escaped := !opened.comment && line.toList.getLast? == some '\\'
  let quote := match opened.quote with
    | some (.single mark) => if escaped then some (.single mark) else none
    | other => other
  ⟨opened.depth, quote, escaped && quote.isNone⟩

/-- The lines up to where nothing is open, and the lines after them; `none` if something is still
open at the end. -/
def continued (state : Continuation) : List String → Option (List String × List String)
  | [] => if state.isOpen then none else some ([], [])
  | line :: lines =>
    if state.isOpen then
      (continued (state.advance line) lines).map fun (inner, rest) => (line :: inner, rest)
    else some ([], line :: lines)

theorem continued_append {state : Continuation} {lines inner rest : List String}
    (h : continued state lines = some (inner, rest)) : inner ++ rest = lines := by
  induction lines generalizing state inner with
  | nil =>
    unfold continued at h
    split at h
    · contradiction
    · cases h; rfl
  | cons line lines ih =>
    unfold continued at h
    split at h
    · cases hc : continued (state.advance line) lines with
      | none => rw [hc] at h; cases h
      | some p =>
        rw [hc] at h
        cases h
        exact congrArg (line :: ·) (ih hc)
    · cases h; rfl

/-- The lines of the statement that begins with `line`, and the lines after it. Blank lines at its
end do not belong to it. -/
def logicalLine (line : String) (below : List String) : Option (List String × List String) :=
  (continued (Continuation.advance {} line) below).map fun (inner, _) =>
    let kept := dropTrailing isBlank inner
    (line :: kept, below.drop kept.length)

theorem length_rest_logicalLine {line : String} {below lines rest : List String}
    (h : logicalLine line below = some (lines, rest)) : rest.length ≤ below.length := by
  unfold logicalLine at h
  cases hc : continued (Continuation.advance {} line) below with
  | none => rw [hc] at h; cases h
  | some p =>
    rw [hc] at h
    cases h
    simp only [List.length_drop]
    omega

end HouseStyle.Block
