import HouseStyle.Block.Parser
import HouseStyle.Declaration.Parser

/-!
# The trace of a reading

While a file is read, each declaration or block that is recognized leaves a note, which the log shows at
its finest level. Declarations leave one when they were read to their end, members before their owner;
blocks leave one when their opening line shows a name, in front of the notes of their body. The notes
stay if the reading of the file fails further on.

* `Note`: something that was recognized.
* `SourceFile.trace`, `Block.trace`: the notes of reading a file.
-/

namespace HouseStyle

open Text

/-- Something that was recognized: the number of its line, its kind and its name. -/
structure Note where
  line : Nat
  kind : String
  name : String
  deriving DecidableEq, Repr

/-- The note as a line of text. -/
def Note.message (note : Note) : String :=
  "line " ++ toString note.line ++ ": " ++ note.kind ++ " " ++ note.name

/-! ## Declarations -/

namespace Declaration

/-- The note on a declaration whose signature is followed by the given number of lines. -/
def noteAt (after : Nat) (d : Declaration) : Note :=
  ⟨after + 1, d.kind.label, d.name?.getD ""⟩

mutual

/-- The notes of reading the declaration at the start of the lines, with lines counted from the end
of the input. -/
def traceMember (ls : List String) : List Note :=
  match h : afterHeader ls with
  | [] => []
  | signature :: rest =>
    have hr : rest.length < ls.length := by
      have := length_afterHeader_le ls
      rw [h] at this
      exact this
    let inner :=
      match classify signature rest.head? with
      | some .openClass => traceMembers (leadingSpaces signature) "\x7d" rest
      | some .fieldClass =>
        match rest, hr with
        | [], _ => []
        | opener :: inner, hr => traceMembers (leadingSpaces opener) "\x7d;" inner
      | _ => []
    match readMember ls with
    | .error _ => inner
    | .ok (d, _) => inner ++ [noteAt rest.length d]
termination_by 2 * ls.length
decreasing_by
  · omega
  · simp only [List.length_cons] at hr; omega

/-- The notes of reading the members up to the line that closes their scope. -/
def traceMembers (dent : Nat) (closer : String) (ls : List String) : List Note :=
  match ls with
  | [] => []
  | line :: rest =>
    if closes line dent closer || (Text.indentation line).atMost (.spaces dent) then []
    else
      let first := traceMember (line :: rest)
      match readMember (line :: rest) with
      | .error _ => first
      | .ok (_, after) => first ++ traceMembers dent closer after.1
termination_by 2 * ls.length + 1
decreasing_by
  · omega
  · have := after.2; omega

end

end Declaration

/-- The notes of reading a file. -/
def SourceFile.trace (lines : List String) : List Note :=
  let numbers := codeLineNumbers lines
  (Declaration.traceMember ((codeLines lines).dropWhile isPreamble)).map fun note =>
    { note with line := numbers.getD (numbers.length - note.line) 0 }

end HouseStyle

/-! ## Blocks -/

namespace HouseStyle.Block

open Text

mutual

/-- The notes of reading the nodes deeper than `dent`, with lines counted from the end. -/
def traceNodes (dent : Option Nat) (lines : List String) : List Note :=
  have hs : (skipBlank lines).length ≤ lines.length := (List.dropWhile_sublist _).length_le
  match h : skipBlank lines with
  | [] => []
  | line :: below =>
    have hb : below.length < lines.length := by rw [h] at hs; exact hs
    if continues dent line below then
      let first := traceNode line below
      match readNode line below with
      | .error _ => first
      | .ok (_, after) => first ++ traceNodes dent after.1
    else []
termination_by 2 * lines.length
decreasing_by
  · omega
  · have := after.2; omega

/-- The notes of reading the node that begins with a line. -/
def traceNode (line : String) (below : List String) : List Note :=
  match ho : opening? line below with
  | .ok (some opening) =>
    have _hb := length_below_opening ho
    match hl : logicalLine opening.line opening.below with
    | none => []
    | some (_, rest) =>
      have _hr := length_rest_logicalLine hl
      match opening.kind.name? opening.line with
      | none => []
      | some name =>
        ⟨opening.below.length + 1, opening.kind.label, name⟩ ::
          traceNodes (some (leadingSpaces opening.line)) rest
  | _ => []
termination_by 2 * below.length + 1
decreasing_by omega

end

/-- The notes of reading a file. -/
def trace (lines : List String) : List Note :=
  (traceNodes none lines).map fun note => { note with line := lines.length + 1 - note.line }

end HouseStyle.Block
