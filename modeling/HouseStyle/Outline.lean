import HouseStyle.Dialect
import HouseStyle.Text.Quoted

/-!
# Outlines

The outline of a file shows how it was read: one node per declaration or block, with its kind, name
and sort category. Statements are left out; the blocks of a file stand under a node for the file.

* `Outline.ofDeclaration`, `Outline.ofBlocks`: the outline of what was read.
* `Outline.tree`, `Outline.json`: an outline as indented lines and as a JSON object.
-/

namespace HouseStyle

open Text

/-- A declaration, block or file with what it contains. -/
structure Outline where
  kind : String
  name : String
  category : String
  signature : String
  children : List Outline

/-- The two ways to write an outline. -/
inductive OutlineFormat where
  | tree
  | json
  deriving DecidableEq, Repr

/-- The format with the given name. -/
def OutlineFormat.ofName? : String → Option OutlineFormat
  | "tree" => some .tree
  | "json" => some .json
  | _ => none

namespace Outline

/-- A signature without the white space around it. -/
def trimmed (signature : String) : String := String.ofList (trim signature.toList)

mutual

/-- The outline of a declaration; the first unnamed one is reported, members before their owner. -/
def ofDeclaration : Declaration → Except Unnamed Outline
  | .leaf kind head lines => ofNamed (.leaf kind head lines) []
  | .scope opener head members =>
    match ofDeclarations members with
    | .error e => .error e
    | .ok children => ofNamed (.scope opener head members) children

/-- The outlines of some declarations. -/
def ofDeclarations : List Declaration → Except Unnamed (List Outline)
  | [] => .ok []
  | d :: ds =>
    match ofDeclaration d with
    | .error e => .error e
    | .ok outline => (ofDeclarations ds).map (outline :: ·)

/-- The outline of a declaration with the given children. -/
def ofNamed (d : Declaration) (children : List Outline) : Except Unnamed Outline :=
  d.name.map fun name => ⟨d.kind.label, name, d.category.label, trimmed d.signature, children⟩

end

mutual

/-- The outline of a node; statements have none. -/
def ofNode : Block.Node → List Outline
  | .statement _ => []
  | .block kind _ signature body =>
    let line := Block.firstOf signature
    [⟨kind.label, (kind.name? line).getD "", kind.label, trimmed line, ofNodes body⟩]

/-- The outlines of the blocks among some nodes. -/
def ofNodes : List Block.Node → List Outline
  | [] => []
  | node :: nodes => ofNode node ++ ofNodes nodes

end

/-- The outline of a file of blocks. -/
def ofBlocks (name : String) (nodes : List Block.Node) : Outline :=
  ⟨"module", name, "module", "", ofNodes nodes⟩

/-! ## Indented lines -/

/-- Two spaces for each level. -/
def levelIndent (level : Nat) : String := String.ofList (List.replicate (2 * level) ' ')

mutual

/-- The lines of an outline, its children one level deeper. -/
def treeLines (level : Nat) : Outline → List String
  | ⟨kind, name, category, _, children⟩ =>
    (levelIndent level ++ kind ++ " " ++ name ++ " [" ++ category ++ "]") ::
      treeLinesAll (level + 1) children

/-- The lines of some outlines. -/
def treeLinesAll (level : Nat) : List Outline → List String
  | [] => []
  | outline :: outlines => treeLines level outline ++ treeLinesAll level outlines

end

/-- An outline as indented lines. -/
def tree (outline : Outline) : String := toText (outline.treeLines 0)

/-! ## JSON -/

/-- Texts with a comma and a line feed between them. -/
def commaLines (texts : List String) : String := String.intercalate ",\n" texts

/-- Texts between brackets, which are not indented themselves, in lines of their own. -/
def enclose (opening closing : String) (level : Nat) (texts : List String) : String :=
  opening ++ "\n" ++ commaLines texts ++ "\n" ++ levelIndent level ++ closing

mutual

/-- An outline as a JSON object whose closing brace is indented by `level` levels. -/
def jsonAt (level : Nat) : Outline → String
  | ⟨kind, name, category, signature, children⟩ =>
    let field := fun (key value : String) =>
      levelIndent (level + 1) ++ jsonString key ++ ": " ++ value
    let own := [field "kind" (jsonString kind), field "name" (jsonString name),
      field "category" (jsonString category), field "signature" (jsonString signature)]
    let nested := match jsonAll (level + 2) children with
      | [] => []
      | texts => [field "children" (enclose "[" "]" (level + 1) texts)]
    enclose "\x7b" "\x7d" level (own ++ nested)

/-- Outlines as JSON objects, each in a line of its own. -/
def jsonAll (level : Nat) : List Outline → List String
  | [] => []
  | outline :: outlines =>
    (levelIndent level ++ jsonAt level outline) :: jsonAll level outlines

end

/-- An outline as a JSON object. Children are only written if there are any. -/
def json (outline : Outline) : String := outline.jsonAt 0

/-- An outline in the given format. -/
def render : OutlineFormat → Outline → String
  | .tree, outline => outline.tree
  | .json, outline => outline.json

end Outline

/-! ## Outlines of texts -/

/-- Why a text has no outline. -/
inductive OutlineError where
  | parse (error : ParseError)
  | parseBlocks (error : Block.ParseError)
  | unnamed (error : Unnamed)
  deriving DecidableEq, Repr

/-- What is said about the error. -/
def OutlineError.message : OutlineError → String
  | .parse e => e.message
  | .parseBlocks e => e.message
  | .unnamed e => e.message

/-- The outline of the text of the file at a path. -/
def Outline.ofSource (path : Path) (source : String) : Except OutlineError Outline :=
  let lines := ofText source
  match Dialect.of path with
  | .java =>
    match SourceFile.parse lines with
    | .error e => .error (.parse e)
    | .ok file => (Outline.ofDeclaration file.root).mapError .unnamed
  | .python => ((Block.parse lines).map (Outline.ofBlocks path.stem)).mapError .parseBlocks

end HouseStyle
