import HouseStyle.Text.Lines
import HouseStyle.Text.NaturalKey

/-!
# Paths

A path is kept as it was written and read as a list of components. Repeated and trailing slashes
make no component, and neither does a dot, except at the very beginning.

* `Path.components`: the components of a path.
* `Path.extension?`, `Path.stem`: the two parts of a file name.
* `Path.extended?`: a path with an ending added to its file name.
* `Path.compare`: the order of paths, component by component.
-/

namespace HouseStyle

open Text

/-- A path as it was written. -/
structure Path where
  text : String
  deriving DecidableEq, Repr, Inhabited

namespace Path

/-- One step of a path. -/
inductive Component where
  /-- A slash at the beginning. -/
  | root
  /-- A dot at the beginning. -/
  | current
  /-- Two dots. -/
  | parent
  | name (text : String)
  deriving DecidableEq, Repr

/-- The component that a piece between slashes stands for, if any. -/
def inner? (piece : List Char) : Option Component :=
  if piece.isEmpty || piece == ['.'] then none
  else if piece == ['.', '.'] then some .parent
  else some (.name (String.ofList piece))

/-- The components of a path. -/
def components (path : Path) : List Component :=
  let text := path.text.toList
  let steps := pieces '/' text
  let lead :=
    if text.head? == some '/' then [.root]
    else if steps.head? == some ['.'] then [.current]
    else []
  lead ++ steps.filterMap inner?

/-- Whether the path can only stand for a directory: it ends with a slash, perhaps and a dot. -/
def isDirectoryForm (path : Path) : Bool :=
  match path.text.toList.reverse with
  | '/' :: _ => true
  | '.' :: '/' :: _ => true
  | _ => false

/-! ## File names -/

/-- The last component, if it is a name. -/
def fileName? (path : Path) : Option String :=
  match path.components.getLast? with
  | some (.name text) => some text
  | _ => none

/-- A file name cut at its last dot; a dot at the beginning does not count. -/
def cutName (name : String) : String × Option String :=
  let reversed := name.toList.reverse
  let stem := (reversed.dropWhile (· != '.')).drop 1
  if stem.isEmpty then (name, none)
  else
    (String.ofList stem.reverse, some (String.ofList (reversed.takeWhile (· != '.')).reverse))

/-- What follows the last dot of the file name. -/
def extension? (path : Path) : Option String := path.fileName?.bind fun name => (cutName name).2

/-- The file name without its extension, empty if there is no file name. -/
def stem (path : Path) : String := (path.fileName?.map fun name => (cutName name).1).getD ""

/-- A text in reverse without the slashes, and the dots behind slashes, at its start. -/
def dropTail : List Char → List Char
  | '/' :: text => dropTail text
  | '.' :: '/' :: text => dropTail text
  | text => text

/-- The path with an ending added to its file name; `none` if there is no file name. -/
def extended? (path : Path) (ending : String) : Option Path :=
  path.fileName?.map fun _ =>
    ⟨String.ofList (dropTail path.text.toList.reverse).reverse ++ ending⟩

/-! ## Order -/

/-- The place of a kind of component in the order. -/
def Component.rank : Component → Nat
  | .root => 0
  | .current => 1
  | .parent => 2
  | .name _ => 3

/-- Two components: the root, the current directory, the parent directory, then names. -/
def compareComponents (a b : Component) : Ordering :=
  match a, b with
  | .name s, .name t => compareTexts s t
  | a, b => Ord.compare a.rank b.rank

/-- Two paths by their components. -/
def compare (a b : Path) : Ordering := a.components.compareLex compareComponents b.components

/-- The list without paths that equal the path in front of them. -/
def dropRepeats : List Path → List Path
  | a :: b :: paths =>
    if a.compare b == .eq then dropRepeats (a :: paths) else a :: dropRepeats (b :: paths)
  | paths => paths
termination_by paths => paths.length

/-- Paths in increasing order, the first of several equal ones kept. -/
def sortDistinct (paths : List Path) : List Path :=
  dropRepeats (paths.mergeSort fun a b => (a.compare b).isLE)

/-- The path of an entry of a directory. -/
def join (directory : Path) (name : String) : Path :=
  if directory.text.toList.getLast? == some '/' || directory.text == "" then
    ⟨directory.text ++ name⟩
  else ⟨directory.text ++ "/" ++ name⟩

end Path

end HouseStyle
