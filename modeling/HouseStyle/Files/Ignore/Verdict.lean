import HouseStyle.Files.Ignore.Rule
import HouseStyle.Files.Repository

/-!
# What is ignored

Files named `.ignore` always count, and files named `.gitignore` and the patterns of a repository up
to the nearest directory that holds a repository. Nearer files come first, and `.ignore` files come
before all others.

* `Tree.verdict?`: what the ignore files say about a location.
* `Tree.malformedAbove?`: the nearest directory above a location with a malformed ignore file.
-/

namespace HouseStyle

open Text

/-- The kinds of ignore files. -/
inductive RuleSource where
  | ignore
  | gitignore
  /-- The patterns of a repository. -/
  | exclude
  deriving DecidableEq, Repr

namespace Tree

/-- The content of the file at a location, if there is one. -/
def contentAt? (tree : Tree) (location : Location) : Option ByteArray :=
  match tree.entry? location with
  | some (.file content) => some content
  | _ => none

/-- The content of the ignore file of a directory. -/
def ruleContent? (tree : Tree) (source : RuleSource) (directory : Location) :
    Except FileError (Option ByteArray) :=
  match source with
  | .ignore => .ok (tree.contentAt? (directory ++ [".ignore"]))
  | .gitignore => .ok (tree.contentAt? (directory ++ [".gitignore"]))
  | .exclude => tree.excludeContent? directory

/-- The lines of the ignore file of a directory; a file that is not there has none. -/
def ruleLines (tree : Tree) (source : RuleSource) (directory : Location) : List RuleLine :=
  match tree.ruleContent? source directory with
  | .ok (some content) => RuleLine.ofContent content
  | .ok none | .error _ => []

/-- What the nearest of some directories says about a location in its ignore file. -/
def nearestVerdict? (tree : Tree) (source : RuleSource) (directories : List Location)
    (location : Location) (isDirectory : Bool) : Option Verdict :=
  directories.findSome? fun directory =>
    Rule.verdict? ((tree.ruleLines source directory).filterMap RuleLine.rule?)
      (locationText (location.drop directory.length)) isDirectory

/-- What the ignore files above a location say about it. -/
def verdict? (tree : Tree) (location : Location) (isDirectory : Bool) : Option Verdict :=
  let directories := above location
  let inRepository := tree.repositoryDirectories directories
  (tree.nearestVerdict? .ignore directories location isDirectory).or
    ((tree.nearestVerdict? .gitignore inRepository location isDirectory).or
      (tree.nearestVerdict? .exclude inRepository location isDirectory))

/-- Whether one of the ignore files of a directory is malformed. -/
def isMalformed (tree : Tree) (directory : Location) : Bool :=
  [RuleSource.ignore, .gitignore, .exclude].any fun source =>
    !(tree.ruleContent? source directory).toBool ||
      (tree.ruleLines source directory).any RuleLine.isMalformed

/-- The nearest directory above a location with a malformed ignore file. -/
def malformedAbove? (tree : Tree) (location : Location) : Option Location :=
  (above location).find? tree.isMalformed

end Tree

end HouseStyle
