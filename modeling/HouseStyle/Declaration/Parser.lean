import HouseStyle.Declaration.Shape

/-!
# Reading declarations

Blank lines carry no structure and are dropped first. What remains is read by recursive descent:
each step takes the lines not yet read and hands back a declaration and the shorter list of lines
after it. While reading, a fault is located by the number of lines that were left, which does not
depend on what was read before; `parse` turns this into the line number in the file.

* `readMember`, `readMembers`: one declaration, and the members of a scope up to its closing line.
* `parse`: a whole file.
-/

namespace HouseStyle

open Text

/-- What is wrong with a line. -/
inductive Fault where
  /-- It fits no shape. -/
  | unrecognized
  /-- The input ends before what it opens is closed. -/
  | unclosed
  /-- It is a member, but not deeper than the line that will close its owner. -/
  | misindented
  /-- It follows the declaration of the file. -/
  | trailing
  /-- It fits a shape and lacks the name that the shape implies. -/
  | unnamed (kind : Kind)
  deriving DecidableEq, Repr

/-- What is said about a fault of the line with the given text. -/
def Fault.message (text : String) : Fault → String
  | .unrecognized => "unrecognized declaration: " ++ text
  | .unclosed => "input ends before this declaration is closed: " ++ text
  | .misindented => "member is not indented past its enclosing declaration: " ++ text
  | .trailing => "unexpected content after the top-level declaration: " ++ text
  | .unnamed kind => (Unnamed.mk kind text).message

/-- Why a file cannot be read. -/
inductive ParseError where
  | missingDeclaration
  | atLine (line : Nat) (text : String) (fault : Fault)
  deriving DecidableEq, Repr

/-- What is said about the error. -/
def ParseError.message : ParseError → String
  | .missingDeclaration => "no declaration follows the package and import lines"
  | .atLine line text fault => "line " ++ toString line ++ ": " ++ fault.message text

namespace Declaration

/-- A line and the number of lines from it to the end of the input. -/
structure Place where
  left : Nat
  text : String
  deriving DecidableEq, Repr

/-- The error of a fault at the place. -/
def Place.error (place : Place) (fault : Fault) : ParseError :=
  .atLine place.left place.text fault

/-- The lines after something that was read from `ls`. -/
abbrev Unread (ls : List String) := { rest : List String // rest.length < ls.length }

/-! ## Headers -/

/-- Whether a line is a comment. -/
def isComment (line : String) : Bool := startsWith "//" line

/-- The comments, then the annotations, at the start of the lines. -/
def headerLines (ls : List String) : List String :=
  ls.takeWhile isComment ++ (ls.dropWhile isComment).takeWhile isMarked

/-- The lines after the header. -/
def afterHeader (ls : List String) : List String :=
  (ls.dropWhile isComment).dropWhile isMarked

theorem headerLines_append_afterHeader (ls : List String) :
    headerLines ls ++ afterHeader ls = ls := by
  rw [headerLines, afterHeader, List.append_assoc, List.takeWhile_append_dropWhile,
    List.takeWhile_append_dropWhile]

theorem length_afterHeader_le (ls : List String) : (afterHeader ls).length ≤ ls.length :=
  Nat.le_trans (List.dropWhile_sublist _).length_le (List.dropWhile_sublist _).length_le

/-- The fault of an input that ends where a declaration should begin or after its header. -/
def endOfInput (ls : List String) : ParseError :=
  match ls.getLast? with
  | none => .missingDeclaration
  | some last => .atLine 1 last .unclosed

/-! ## Leaves -/

/-- The lines up to the line that closes a construct, and the lines after that line. -/
def readLines (opened : Place) (dent : Nat) (ls : List String) :
    Except ParseError (List String × List String) :=
  match ls.dropWhile (! closes · dent "\x7d") with
  | [] => .error (opened.error .unclosed)
  | _ :: rest => .ok (ls.takeWhile (! closes · dent "\x7d"), rest)

/-- The rest of a declaration without members, after its head. -/
def readLeaf (shape : Shape) (place : Place) (head : Head) (ls : List String) :
    Except ParseError (Declaration × List String) :=
  let dent := leadingSpaces head.signature
  match shape with
  | .enum =>
    if head.signature.toList.getLast? == some '\x7d' then .ok (.leaf .enum head [], ls)
    else (readLines place dent ls).map fun (lines, rest) => (.leaf .enum head lines, rest)
  | .emptyClass => .ok (.scope none head [], ls)
  | .abstractMethod | .emptyMethod => .ok (.leaf .method head [], ls)
  | .openMethod =>
    (readLines place dent ls).map fun (lines, rest) => (.leaf .method head lines, rest)
  | .field => .ok (.leaf .field head [], ls)
  | .multilineField =>
    .ok (.leaf .field head (ls.takeWhile (isInside dent)), ls.dropWhile (isInside dent))
  | .openClass | .fieldClass => .error (place.error .unrecognized)

theorem length_le_of_readLines {opened : Place} {dent : Nat} {ls lines rest : List String}
    (h : readLines opened dent ls = .ok (lines, rest)) : rest.length ≤ ls.length := by
  unfold readLines at h
  have hd := (List.dropWhile_sublist (l := ls) (! closes · dent "\x7d")).length_le
  split at h
  · contradiction
  · next heq =>
    rw [heq] at hd
    cases h
    exact Nat.le_of_succ_le hd

theorem length_le_of_readLeaf {shape : Shape} {place : Place} {head : Head} {d : Declaration}
    {ls rest : List String} (h : readLeaf shape place head ls = .ok (d, rest)) :
    rest.length ≤ ls.length := by
  have lines : ∀ {f : List String × List String → Declaration × List String},
      (∀ p, (f p).2 = p.2) →
      (readLines place (leadingSpaces head.signature) ls).map f = .ok (d, rest) →
      rest.length ≤ ls.length := by
    intro f hf hm
    cases hr : readLines place (leadingSpaces head.signature) ls with
    | error e => rw [hr] at hm; cases hm
    | ok p =>
      rw [hr] at hm
      have hp : f p = (d, rest) := Except.ok.inj hm
      have hrest : p.2 = rest := by rw [← hf p, hp]
      exact hrest ▸ length_le_of_readLines hr
  unfold readLeaf at h
  cases shape <;> simp only [] at h
  case enum =>
    split at h
    · cases h; exact Nat.le_refl _
    · exact lines (fun _ => rfl) h
  case openMethod => exact lines (fun _ => rfl) h
  case multilineField => cases h; exact (List.dropWhile_sublist _).length_le
  all_goals cases h; try exact Nat.le_refl _

/-! ## Declarations -/

/-- A declaration that was read, provided that its signature shows its name. -/
def named {α : Type} (place : Place) (d : Declaration) (rest : α) :
    Except ParseError (Declaration × α) :=
  match d.name? with
  | some _ => .ok (d, rest)
  | none => .error (place.error (.unnamed d.kind))

mutual

/-- The declaration at the start of the lines, and the lines after it. -/
def readMember (ls : List String) : Except ParseError (Declaration × Unread ls) :=
  match h : afterHeader ls with
  | [] => .error (endOfInput ls)
  | signature :: rest =>
    have hr : rest.length < ls.length := by
      have := length_afterHeader_le ls
      rw [h] at this
      exact this
    let head : Head := ⟨headerLines ls, signature⟩
    let place : Place := ⟨rest.length + 1, signature⟩
    match classify signature rest.head? with
    | none => .error (place.error .unrecognized)
    | some .openClass =>
      match readMembers place (leadingSpaces signature) "\x7d" rest with
      | .error e => .error e
      | .ok (members, after) =>
        named place (.scope none head members) ⟨after.1, Nat.lt_trans after.2 hr⟩
    | some .fieldClass =>
      match rest, hr with
      | [], _ => .error (place.error .unrecognized)
      | opener :: inner, hr =>
        match readMembers ⟨inner.length + 1, opener⟩ (leadingSpaces opener) "\x7d;" inner with
        | .error e => .error e
        | .ok (members, after) =>
          named place (.scope (some opener) head members)
            ⟨after.1, by have := after.2; simp only [List.length_cons] at hr; omega⟩
    | some shape =>
      match hl : readLeaf shape place head rest with
      | .error e => .error e
      | .ok (d, after) =>
        named place d ⟨after, Nat.lt_of_le_of_lt (length_le_of_readLeaf hl) hr⟩
termination_by 2 * ls.length
decreasing_by
  · omega
  · simp only [List.length_cons] at hr; omega

/-- The members up to the line that closes their scope, and the lines after that line. -/
def readMembers (opened : Place) (dent : Nat) (closer : String) (ls : List String) :
    Except ParseError (List Declaration × Unread ls) :=
  match ls with
  | [] => .error (opened.error .unclosed)
  | line :: rest =>
    if closes line dent closer then .ok ([], ⟨rest, Nat.lt_succ_self _⟩)
    else if (Text.indentation line).atMost (.spaces dent) then
      .error (.atLine (rest.length + 1) line .misindented)
    else if (afterHeader (line :: rest)).isEmpty then .error (opened.error .unclosed)
    else
      match readMember (line :: rest) with
      | .error e => .error e
      | .ok (d, after) =>
        match readMembers opened dent closer after.1 with
        | .error e => .error e
        | .ok (ds, final) => .ok (d :: ds, ⟨final.1, Nat.lt_trans final.2 after.2⟩)
termination_by 2 * ls.length + 1
decreasing_by
  · omega
  · have := after.2; omega

end

/-- The declaration at the start of the lines, and the lines after it. -/
def read (ls : List String) : Except ParseError (Declaration × List String) :=
  (readMember ls).map fun (d, rest) => (d, rest.1)

end Declaration

/-! ## Files -/

/-- Whether a line belongs to the preamble: a package, an import, or a comment that is not
indented. -/
def isPreamble (line : String) : Bool :=
  ["package ", "import ", "//"].any fun start => start.toList.isPrefixOf line.toList

/-- The lines that are not blank. -/
def codeLines (lines : List String) : List String := lines.filter (! isBlank ·)

/-- The numbers, from 1, of the lines that are not blank. -/
def codeLineNumbers (lines : List String) : List Nat :=
  (lines.zipIdx.filter fun line => ! isBlank line.1).map fun line => line.2 + 1

/-- The error with its place counted from the start of the file, given the numbers of the lines
that were read. -/
def ParseError.locate (numbers : List Nat) : ParseError → ParseError
  | .missingDeclaration => .missingDeclaration
  | .atLine left text fault => .atLine (numbers.getD (numbers.length - left) 0) text fault

/-- Reads a file that holds no blank lines, with places counted from its end. -/
def SourceFile.read (code : List String) : Except ParseError SourceFile :=
  match code.dropWhile isPreamble with
  | [] => .error .missingDeclaration
  | ls =>
    match Declaration.read ls with
    | .error e => .error e
    | .ok (root, []) => .ok ⟨code.takeWhile isPreamble, root⟩
    | .ok (_, line :: rest) => .error (.atLine (rest.length + 1) line .trailing)

/-- Reads a file: the preamble, one declaration, and nothing after it. -/
def SourceFile.parse (lines : List String) : Except ParseError SourceFile :=
  (SourceFile.read (codeLines lines)).mapError (·.locate (codeLineNumbers lines))

end HouseStyle
