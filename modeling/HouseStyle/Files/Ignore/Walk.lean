import HouseStyle.Files.Ignore.Verdict

/-!
# Walks

A walk goes through the directories below a path and yields the files and directories that it comes
to, each spelled as the path with the names further down joined to it. The walk of a run leaves out
what is hidden or ignored, and stops at a path that leads nowhere and at a malformed ignore file above
its directory.

* `Walk`: what a walk yields in a tree.
* `Tree.isReached`: whether a walk from a directory comes to what lies further down.
* `Walk.unignored`: the walk that leaves out what is hidden or ignored.
-/

namespace HouseStyle

/-- Why there is no list of files. -/
inductive DiscoverError where
  /-- A path leads nowhere. -/
  | unreachable (path : Path) (cause : FileError)
  /-- An ignore file in a directory above a path is malformed. -/
  | malformedRules (path : Path) (directory : Location)
  deriving DecidableEq, Repr

/-- What is said about the error. -/
def DiscoverError.message : DiscoverError → String
  | .unreachable path cause =>
    path.text ++ ": IO error for operation on " ++ path.text ++ ": " ++ cause.message
  | .malformedRules path directory =>
    path.text ++ ": malformed ignore file in ./" ++ Tree.locationText directory

/-- What a walk comes to. -/
structure WalkEntry where
  path : Path
  isFile : Bool
  deriving DecidableEq, Repr

/-- What a walk from a path yields in a tree, or why it fails. -/
abbrev Walk := Tree → Path → Except DiscoverError (List WalkEntry)

namespace Tree

/-- Whether a walk leaves out a location: it is ignored, or hidden and not kept by a rule. -/
def isSkipped (tree : Tree) (location : Location) (isDirectory : Bool) : Bool :=
  match tree.verdict? location isDirectory with
  | some .ignored => true
  | some .kept => false
  | none =>
    match location.getLast? with
    | some name => name.toList.head? == some '.'
    | none => false

/-- Whether a walk from a directory reaches what lies further down along the given names, a file or a
directory. -/
def isReached (tree : Tree) (directory : Location) (isFile : Bool) : List String → Bool
  | [] => true
  | [name] => !tree.isSkipped (directory ++ [name]) (!isFile)
  | name :: names =>
    !tree.isSkipped (directory ++ [name]) true && isReached tree (directory ++ [name]) isFile names

/-- The names that lead from a directory to what a walk reaches there, and whether it is a file. -/
def reachedBelow (tree : Tree) (directory : Location) : List (List String × Bool) :=
  ((tree.entries.filter fun e => directory.isPrefixOf e.1).map fun e =>
    (e.1.drop directory.length, e.2.isFile)).filter fun r => tree.isReached directory r.2 r.1

end Tree

/-- The walk that leaves out what is hidden or ignored. A lone hyphen stands for standard input, which
is no file. -/
def Walk.unignored : Walk := fun tree root =>
  if root.text == "-" then .ok [⟨root, false⟩]
  else
    match tree.follow root with
    | .error cause => .error (.unreachable root cause)
    | .ok (directory, _) =>
      match tree.malformedAbove? directory with
      | some above => .error (.malformedRules root above)
      | none =>
        .ok ((tree.reachedBelow directory).map fun r => ⟨r.1.foldl Path.join root, r.2⟩)

end HouseStyle
