import HouseStyle.Files.Tree

/-!
# Repositories

A directory holds a repository if it holds `.git` or `.jj`. A repository has a file of its own with
patterns to ignore. If `.git` is a file, it names the directory of a work tree, which in turn names
the common directory of the repository; both names are paths from the working directory, unless the
second one begins with a dot.

* `Tree.holdsRepository`: whether a directory holds a repository.
* `Tree.repositoryDirectories`: the directories up to the first one that does.
* `Tree.excludeContent?`: the patterns that a repository ignores.
-/

namespace HouseStyle.Tree

/-- Whether a directory holds a repository. -/
def holdsRepository (tree : Tree) (directory : Location) : Bool :=
  (tree.entry? (directory ++ [".git"])).isSome || (tree.entry? (directory ++ [".jj"])).isSome

/-- The directories up to the first one that holds a repository; none if none of them does. -/
def repositoryDirectories (tree : Tree) : List Location → List Location
  | [] => []
  | directory :: farther =>
    if tree.holdsRepository directory then [directory]
    else
      match repositoryDirectories tree farther with
      | [] => []
      | found => directory :: found

/-- The first line of a file, if there is one. -/
def firstLine? (content : ByteArray) : Except FileError (Option String) :=
  match Files.byteLines content.toList with
  | [] => .ok none
  | line :: _ =>
    match Files.lineText? line with
    | some text => .ok (some text)
    | none => .error .invalidText

/-- The directory of a work tree that the first line of `.git` names. -/
def workTreePath? (line : String) : Option Path :=
  let label := "gitdir: ".toList
  if label.isPrefixOf line.toList then some ⟨String.ofList (line.toList.drop label.length)⟩
  else none

/-- The common directory that a work tree names in its first line. -/
def commonPath (workTree : Path) (line : String) : Path :=
  if line.toList.head? == some '.' then workTree.join line else ⟨line⟩

/-- The common directory of the repository whose `.git` is a file with the given content. A name
that is there but cannot be read is an error, and one that is missing is none. -/
def commonDirectory? (tree : Tree) (content : ByteArray) : Except FileError (Option Path) := do
  let some line ← firstLine? content | return none
  let some workTree := workTreePath? line | return none
  match tree.readBytes (workTree.join "commondir") with
  | .ok content => return (← firstLine? content).map (commonPath workTree)
  | .error .isADirectory => .error .isADirectory
  | .error _ => return none

/-- The content of the file with the patterns that the repository in a directory ignores. -/
def excludeContent? (tree : Tree) (directory : Location) : Except FileError (Option ByteArray) := do
  match tree.entry? (directory ++ [".git"]) with
  | some (.file content) =>
    let some common ← tree.commonDirectory? content | return none
    return (tree.readBytes (common.join "info/exclude")).toOption
  | _ =>
    match tree.entry? (directory ++ [".git", "info", "exclude"]) with
    | some (.file content) => return some content
    | _ => return none

end HouseStyle.Tree
