import HouseStyle.Files.Ignore.Walk

/-!
# Discovery

The files that a run works on. Files that are named are taken as they are; directories contribute
the files with a listed extension that a walk from them yields. The result is in path order, and of
several spellings that are equal as paths the first is kept.

* `Tree.contribution`: the files that a path contributes.
* `Tree.discoverBy`: the files for a list of paths, by any walk.
* `Tree.discover`: those by the walk that leaves out hidden and ignored files.
-/

namespace HouseStyle

/-- Whether the path has one of the extensions. -/
def Path.hasExtension (extensions : List String) (path : Path) : Bool :=
  match path.extension? with
  | some extension => extensions.contains extension
  | none => false

namespace Tree

/-- The files that a path contributes. -/
def contribution (tree : Tree) (walk : Walk) (extensions : List String) (path : Path) :
    Except DiscoverError (List Path) :=
  if tree.hasFile path then .ok [path]
  else
    (walk tree path).map fun entries =>
      (entries.filter fun e => e.isFile && e.path.hasExtension extensions).map WalkEntry.path

/-- The files that some paths contribute, or the error of the first path that has one. -/
def contributions (tree : Tree) (walk : Walk) (extensions : List String) :
    List Path → Except DiscoverError (List Path)
  | [] => .ok []
  | path :: paths =>
    match tree.contribution walk extensions path with
    | .error e => .error e
    | .ok files => (contributions tree walk extensions paths).map (files ++ ·)

/-- The files for a list of paths, in path order and without repetitions. -/
def discoverBy (tree : Tree) (walk : Walk) (extensions : List String) (paths : List Path) :
    Except DiscoverError (List Path) :=
  (tree.contributions walk extensions paths).map Path.sortDistinct

/-- The files for a list of paths, without those that are hidden or ignored in their directories. -/
def discover (tree : Tree) (extensions : List String) (paths : List Path) :
    Except DiscoverError (List Path) :=
  tree.discoverBy .unignored extensions paths

end Tree

end HouseStyle
