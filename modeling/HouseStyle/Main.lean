import HouseStyle.CommandLine.Run

/-!
# The program

The outer layer of the command line: the files below the working directory are read into a tree, the
run is carried out on the tree, and the files that are different afterwards are written back. Links
are left alone.
-/

namespace HouseStyle.CommandLine

/-- The tree with the entries of the directory at a location, and everything below them. -/
partial def readBelow (tree : Tree) (location : Location) (entries : Array IO.FS.DirEntry) :
    IO Tree := do
  let mut tree := tree
  for entry in entries do
    let below := location ++ [entry.fileName]
    match (← entry.path.symlinkMetadata).type with
    | .dir => tree ← readBelow (tree.makeDirectory below) below (← entry.path.readDir)
    | .file => tree := tree.put below (← IO.FS.readBinFile entry.path)
    | _ => pure ()
  return tree

/-- Writes the files of a tree that are different in another tree. -/
def writeChanges (before after : Tree) : IO Unit := do
  for (name, content) in after.snapshot do
    match before.readBytes ⟨name⟩ with
    | .ok unchanged => if unchanged != content then IO.FS.writeBinFile name content
    | .error _ => IO.FS.writeBinFile name content

/-- How to use the program. -/
def usageText : String :=
  "Usage: declfmt [OPTIONS] <COMMAND>\n\n" ++
  "Commands:\n" ++
  "  sort [PATHS]...        Reorder members by category, then name\n" ++
  "  visibility [PATHS]...  Insert the default access modifier where none is declared\n" ++
  "  comments [PATHS]...    Capitalize the first line of each comment block\n" ++
  "  cases [PATHS]...       Sort arrow-style switch cases and multi-label cases\n" ++
  "  outline <FILE> [-f tree|json]\n" ++
  "                         Print the declaration tree of a file\n\n" ++
  "Options:\n" ++
  "      --dry-run            Print a diff of pending changes instead of writing files\n" ++
  "  -c, --config <FILE>      Configuration file layered over the defaults and ./declfmt.toml\n" ++
  "      --log-level <LEVEL>  Log level: error, warn, info, debug or trace\n" ++
  "      --fail-fast          Stop at the first file that fails\n"

end HouseStyle.CommandLine

open HouseStyle HouseStyle.CommandLine

/-- Carries out a command line in the working directory. -/
def main (arguments : List String) : IO UInt32 := do
  let before ← readBelow Tree.empty [] (← (← IO.currentDir).readDir)
  let (after, ending) := run before arguments
  match ending with
  | .shown code =>
    if code = 0 then IO.print usageText else IO.eprint usageText
    return code.toUInt32
  | .done output =>
    writeChanges before after
    for entry in output.log do
      IO.eprintln entry.render
    IO.print output.stdout
    for message in output.errors do
      IO.eprintln (errorLine message)
    return output.code.toUInt32
