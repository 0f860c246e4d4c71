import HouseStyle.Declaration.Category
import HouseStyle.Declaration.Parser

/-!
# Writing declarations

A tree is written as lines by a function of the tree alone. Reading drops blank lines; `separate`
decides where writing puts them back. The line that closes a declaration is written unless the
signature closes it itself.

* `separate`: whether a blank line stands between two neighbours.
* `Declaration.compose`, `SourceFile.compose`: the lines of a declaration and of a file.
-/

namespace HouseStyle

open Text

/-- One side of the place where a blank line may stand. -/
inductive Neighbor where
  /-- A declaration other than a plain field. -/
  | structural
  /-- A plain field of the given category. -/
  | plain (category : Category)
  /-- A line of a method body. -/
  | line (text : String)
  deriving DecidableEq, Repr

/-- Whether a blank line stands between two neighbours. Plain fields are grouped by category. In a
body, a blank line stands in front of a comment that begins a block of comments, unless the line
above opens a deeper block. All else is set apart. -/
def separate : Neighbor → Neighbor → Bool
  | .plain a, .plain b => a != b
  | .line a, .line b =>
    Declaration.isComment b && !Declaration.isComment a && (indentation b).atMost (indentation a)
  | _, _ => true

/-- The blank lines between what was written before, if anything, and the next neighbour. -/
def gap (before : Option Neighbor) (next : Neighbor) : List String :=
  match before with
  | some above => if separate above next then [""] else []
  | none => []

/-- Whether the last character of a signature is one of the given. -/
def endsWithAny (endings : List Char) (signature : String) : Bool :=
  match signature.toList.getLast? with
  | some c => endings.contains c
  | none => false

/-- The line that closes a declaration with this signature, unless it ends with one of the given
characters. -/
def closing (endings : List Char) (signature : String) : List String :=
  if endsWithAny endings signature then []
  else [closingLine (leadingSpaces signature) "\x7d"]

/-- The lines of a method body with blank lines between them. -/
def composeBody (before : Option Neighbor) : List String → List String
  | [] => []
  | line :: lines => gap before (.line line) ++ line :: composeBody (some (.line line)) lines

namespace Declaration

/-- What a declaration is to the blank lines around it. -/
def neighbor (d : Declaration) : Neighbor :=
  match d with
  | .leaf .field _ _ => .plain d.category
  | _ => .structural

/-- The lines below the head of a leaf. -/
def composeLeaf (kind : LeafKind) (signature : String) (lines : List String) : List String :=
  match kind with
  | .enum => lines ++ closing ['\x7d'] signature
  | .field => lines
  | .method => composeBody none lines ++ closing [';', '\x7d'] signature

/-- The lines that close a scope. -/
def composeClosing (opener : Option String) (signature : String) : List String :=
  match opener with
  | none => closing ['\x7d'] signature
  | some opener => [closingLine (leadingSpaces opener) "\x7d;"]

mutual

/-- The lines of a declaration. -/
def compose : Declaration → List String
  | .leaf kind head lines =>
    head.header ++ head.signature :: composeLeaf kind head.signature lines
  | .scope opener head members =>
    head.header ++ head.signature ::
      (opener.toList ++ composeMembers none members ++ composeClosing opener head.signature)

/-- The lines of members with blank lines between them. -/
def composeMembers (before : Option Neighbor) : List Declaration → List String
  | [] => []
  | d :: ds => gap before d.neighbor ++ d.compose ++ composeMembers (some d.neighbor) ds

end

/-- For each pair of neighbouring members, whether a blank line stands between them. -/
def separations : List Declaration → List Bool
  | a :: b :: ds => separate a.neighbor b.neighbor :: separations (b :: ds)
  | _ => []

end Declaration

/-- The lines of a file. -/
def SourceFile.compose (file : SourceFile) : List String :=
  file.preamble ++ file.root.compose

end HouseStyle
