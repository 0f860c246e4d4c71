import HouseStyle.Files.Path

/-!
# File trees

The files below a working directory as a map from locations to contents. A path is followed from
the working directory step by step, so that it can fail in the ways in which a file system fails.
Nothing outside the working directory is in the tree, so an absolute path leads nowhere, as does one
that leaves it by two dots; and the tree holds no links.

* `Tree.entry?`: what is at a location.
* `Tree.follow`, `Tree.read`: what a path leads to.
* `Tree.put`, `Tree.overwrite`, `Tree.erase`: changes of one file.
* `Files.textLines`: the lines of a small file up to the first one that is no text.
-/

namespace HouseStyle

open Text

/-- The names from the working directory down to a file or directory. -/
abbrev Location := List String

/-- What a location holds. -/
inductive Entry where
  | file (content : ByteArray)
  | directory

/-- Whether it is a file. -/
def Entry.isFile : Entry → Bool
  | .file _ => true
  | .directory => false

/-- Why a file cannot be read. -/
inductive FileError where
  | notFound
  | notADirectory
  | isADirectory
  | invalidText
  /-- The path, or one of its names, is too long for a file system. -/
  | nameTooLong
  /-- The path holds a NUL. -/
  | nulInName
  deriving DecidableEq, Repr

/-- What is said about the error. -/
def FileError.message : FileError → String
  | .notFound => "No such file or directory (os error 2)"
  | .notADirectory => "Not a directory (os error 20)"
  | .isADirectory => "Is a directory (os error 21)"
  | .invalidText => "stream did not contain valid UTF-8"
  | .nameTooLong => "File name too long (os error 36)"
  | .nulInName => "file name contained an unexpected NUL byte"

/-- Files and directories with their locations; the working directory itself is not listed. -/
structure Tree where
  entries : List (Location × Entry)

namespace Tree

/-- The tree without files. -/
def empty : Tree := ⟨[]⟩

/-- What is at a location. -/
def entry? (tree : Tree) (location : Location) : Option Entry :=
  if location = [] then some .directory
  else (tree.entries.find? fun e => e.1 = location).map Prod.snd

/-- Whether a directory is at a location. -/
def isDirectory (tree : Tree) (location : Location) : Bool :=
  match tree.entry? location with
  | some .directory => true
  | _ => false

/-- The locations of all files. -/
def fileLocations (tree : Tree) : List Location :=
  (tree.entries.filter fun e => e.2.isFile).map Prod.fst

/-! ## Paths -/

/-- The greatest number of bytes of a name. -/
def nameLimit : Nat := 255

/-- The bound of the number of bytes of a path. -/
def pathBound : Nat := 4096

/-- Where some components lead from a location. -/
def followFrom (tree : Tree) (location : Location) :
    List Path.Component → Except FileError Location
  | [] => .ok location
  | component :: components =>
    match tree.entry? location with
    | none => .error .notFound
    | some (.file _) => .error .notADirectory
    | some .directory =>
      match component with
      | .root => .error .notFound
      | .current => followFrom tree location components
      | .parent =>
        if location = [] then .error .notFound
        else followFrom tree location.dropLast components
      | .name text =>
        if nameLimit < text.utf8ByteSize then .error .nameTooLong
        else followFrom tree (location ++ [text]) components

/-- The location and the entry to which a path leads. -/
def follow (tree : Tree) (path : Path) : Except FileError (Location × Entry) :=
  if path.text.toList.contains '\x00' then .error .nulInName
  else if path.text == "" then .error .notFound
  else if pathBound ≤ path.text.utf8ByteSize then .error .nameTooLong
  else
    match tree.followFrom [] path.components with
    | .error e => .error e
    | .ok location =>
      match tree.entry? location with
      | none => .error .notFound
      | some (.file content) =>
        if path.isDirectoryForm then .error .notADirectory else .ok (location, .file content)
      | some .directory => .ok (location, .directory)

/-- Whether a path leads to a file. -/
def hasFile (tree : Tree) (path : Path) : Bool :=
  match tree.follow path with
  | .ok (_, .file _) => true
  | _ => false

/-- The bytes of the file to which a path leads. -/
def readBytes (tree : Tree) (path : Path) : Except FileError ByteArray :=
  match tree.follow path with
  | .error e => .error e
  | .ok (_, .directory) => .error .isADirectory
  | .ok (_, .file content) => .ok content

/-- The text of the file to which a path leads. -/
def read (tree : Tree) (path : Path) : Except FileError String :=
  match tree.readBytes path with
  | .error e => .error e
  | .ok content =>
    match String.fromUTF8? content with
    | some text => .ok text
    | none => .error .invalidText

/-! ## Changes -/

/-- The tree with an entry at a location. -/
def set (tree : Tree) (location : Location) (entry : Entry) : Tree :=
  if tree.entries.any fun e => e.1 = location then
    ⟨tree.entries.map fun e => if e.1 = location then (location, entry) else e⟩
  else ⟨tree.entries ++ [(location, entry)]⟩

/-- The tree with a directory at a location, unless something is there. -/
def addDirectory (tree : Tree) (location : Location) : Tree :=
  match tree.entry? location with
  | some _ => tree
  | none => tree.set location .directory

/-- The locations above a location, the nearest first, down to the working directory. -/
def above : Location → List Location
  | [] => []
  | name :: rest => (above rest).map (name :: ·) ++ [[]]

/-- The tree with directories above a location. -/
def addAbove (tree : Tree) (location : Location) : Tree :=
  (above location).reverse.foldl addDirectory tree

/-- The tree with directories at a location and above it. -/
def makeDirectory (tree : Tree) (location : Location) : Tree :=
  (tree.addAbove location).addDirectory location

/-- The tree with a file at a location and directories above it. -/
def put (tree : Tree) (location : Location) (content : ByteArray) : Tree :=
  (tree.addAbove location).set location (.file content)

/-- The tree with another text in the file to which a path leads. -/
def overwrite (tree : Tree) (path : Path) (text : String) : Tree :=
  match tree.follow path with
  | .ok (location, .file _) => tree.set location (.file text.toUTF8)
  | _ => tree

/-- The tree without the file to which a path leads; `none` if there is none. -/
def erase (tree : Tree) (path : Path) : Option Tree :=
  match tree.follow path with
  | .ok (location, .file _) => some ⟨tree.entries.filter fun e => e.1 != location⟩
  | _ => none

/-! ## Listings -/

/-- The text of the path to a location. -/
def locationText (location : Location) : String := String.intercalate "/" location

/-- The contents of all files, in the order of the texts of their paths. -/
def snapshot (tree : Tree) : List (String × ByteArray) :=
  let files := tree.entries.filterMap fun e =>
    match e.2 with
    | .file content => some (locationText e.1, content)
    | .directory => none
  files.mergeSort fun a b => (compareTexts a.1 b.1).isLE

end Tree

/-- The location that a path names if all of its directories are there. -/
def Path.location (path : Path) : Location :=
  path.components.foldl (fun location component =>
    match component with
    | .name text => location ++ [text]
    | .parent => location.dropLast
    | .root | .current => location) []

/-! ## Lines of bytes

Small files that steer a walk are read line by line. A line is text or not for itself, so that the
lines in front of a damaged one can be used. -/

namespace Files

/-- The lines of some bytes without their line ends; nothing follows a final line end. A line feed
and a carriage return with a line feed are line ends. -/
def byteLines : List UInt8 → List (List UInt8)
  | [] => []
  | 13 :: 10 :: bytes => [] :: byteLines bytes
  | 10 :: bytes => [] :: byteLines bytes
  | byte :: bytes =>
    match byteLines bytes with
    | [] => [[byte]]
    | line :: lines => (byte :: line) :: lines

/-- The text of a line. -/
def lineText? (line : List UInt8) : Option String := String.fromUTF8? ⟨line.toArray⟩

/-- The lines of some bytes up to the first line that is no text. -/
def textLines (content : ByteArray) : List String :=
  ((byteLines content.toList).map lineText?).takeWhile Option.isSome |>.filterMap id

end Files

end HouseStyle
