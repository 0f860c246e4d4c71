import HouseStyle.Block.CommentCase
import HouseStyle.Block.Layout
import HouseStyle.Block.Parser
import HouseStyle.Block.Sort
import HouseStyle.Declaration.Layout
import HouseStyle.Declaration.Pass
import HouseStyle.Files.Path
import HouseStyle.Text.Lines

/-!
# Dialects

Files named `*.py` are read as blocks, all others as declarations. Blocks take part in the sort and
comments passes only.

* `Dialect.of`: the dialect of a path.
* `Dialect.transform`: a text after a pass.
-/

namespace HouseStyle

/-- The languages whose files are worked on. -/
inductive Dialect where
  | java
  | python
  deriving DecidableEq, Repr

/-- Why a text cannot be transformed. -/
inductive TransformError where
  | parse (error : ParseError)
  | parseBlocks (error : Block.ParseError)
  | sort (error : SortError)
  | unsupported (pass : Pass) (dialect : Dialect)
  deriving DecidableEq, Repr

namespace Dialect

/-- The word for a dialect in messages. -/
def label : Dialect → String
  | .java => "java"
  | .python => "python"

/-- The dialect of the file at a path. -/
def of (path : Path) : Dialect := if path.extension? == some "py" then .python else .java

/-- What a pass does to the nodes of a file of blocks; `none` if it applies to declarations only. -/
def onBlocks? : Pass → Option (List Block.Node → List Block.Node)
  | .sort _ => some Block.sort
  | .comments => some Block.capitalizeComments
  | .visibility _ => none
  | .cases => none

/-- Whether a pass applies to the files of a dialect. -/
def supports : Dialect → Pass → Bool
  | .java, _ => true
  | .python, pass => (onBlocks? pass).isSome

/-- The lines of a file of declarations after a pass. -/
def transformDeclarations (pass : Pass) (lines : List String) :
    Except TransformError (List String) :=
  match SourceFile.parse lines with
  | .error e => .error (.parse e)
  | .ok file =>
    match pass.apply file with
    | (_, some e) => .error (.sort e)
    | (file, none) => .ok file.compose

/-- The lines of a file of blocks after a pass. -/
def transformBlocks (pass : Pass) (lines : List String) : Except TransformError (List String) :=
  match onBlocks? pass with
  | none => .error (.unsupported pass .python)
  | some change =>
    match Block.parse lines with
    | .error e => .error (.parseBlocks e)
    | .ok nodes => .ok (Block.compose true (change nodes))

/-- A text after a pass, with a line feed at the end of every line. -/
def transform (dialect : Dialect) (pass : Pass) (source : String) :
    Except TransformError String :=
  let lines := Text.ofText source
  let result := match dialect with
    | .java => transformDeclarations pass lines
    | .python => transformBlocks pass lines
  result.map Text.toText

end Dialect

/-- What is said about the error. -/
def TransformError.message : TransformError → String
  | .parse e => e.message
  | .parseBlocks e => e.message
  | .sort e => e.message
  | .unsupported pass dialect =>
    "the " ++ pass.name ++ " pass does not apply to " ++ dialect.label ++ " sources"

end HouseStyle
