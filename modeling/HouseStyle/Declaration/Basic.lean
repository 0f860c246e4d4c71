import HouseStyle.Text.Line
import HouseStyle.Text.Word

/-!
# Declarations

The member declarations of a Java file as a tree. A *scope* (a class, or a field whose value is an
anonymous class) holds member declarations; a *leaf* (an enum, a field or a method) holds raw
lines. Every declaration has a head: the comments and annotations that travel with it, and the
signature, the line that opens it.

Names are not stored. They are read off the signature, so a changed signature changes the name.

* `Declaration`, `SourceFile`: the trees.
* `Declaration.name?`: the declared name, by the rule for the kind.
* `Declaration.postorder`: all declarations of a tree, members before their owner.
* `Declaration.mapText`: heads and raw lines changed throughout a tree.
-/

namespace HouseStyle

open Text

/-- What the lines of a leaf are: enum constants, the value of a field, or a method body. -/
inductive LeafKind where
  | enum
  | field
  | method
  deriving DecidableEq, Repr

/-- The five kinds of declarations. -/
inductive Kind where
  | namedClass
  | enum
  | field
  | fieldClass
  | method
  deriving DecidableEq, Repr

/-- The word for a kind in outlines and messages. -/
def Kind.label : Kind → String
  | .namedClass => "class"
  | .enum => "enum"
  | .field => "field"
  | .fieldClass => "field class"
  | .method => "method"

/-- The lines that open a declaration. -/
structure Head where
  /-- The comment and annotation lines above the signature. -/
  header : List String
  signature : String
  deriving DecidableEq, Repr

/-- A declaration with everything inside it. -/
inductive Declaration where
  | leaf (kind : LeafKind) (head : Head) (lines : List String)
  /-- A class, or with an opener `new Type() {` a field whose value is an anonymous class. -/
  | scope (opener : Option String) (head : Head) (members : List Declaration)
  deriving Repr

mutual

/-- Whether two declarations are equal. -/
def Declaration.decEq : (a b : Declaration) → Decidable (a = b)
  | .leaf kind head lines, .leaf kind' head' lines' =>
    decidable_of_iff (kind = kind' ∧ head = head' ∧ lines = lines') (by simp)
  | .scope opener head members, .scope opener' head' members' =>
    have := decEqAll members members'
    decidable_of_iff (opener = opener' ∧ head = head' ∧ members = members') (by simp)
  | .leaf .., .scope .. | .scope .., .leaf .. => isFalse nofun

/-- Whether two lists of declarations are equal. -/
def Declaration.decEqAll : (a b : List Declaration) → Decidable (a = b)
  | [], [] => isTrue rfl
  | d :: ds, e :: es =>
    have := decEq d e
    have := decEqAll ds es
    decidable_of_iff (d = e ∧ ds = es) (by simp)
  | [], _ :: _ | _ :: _, [] => isFalse nofun

end

instance : DecidableEq Declaration := Declaration.decEq

/-- A file: the package, import and comment lines, and one declaration. -/
structure SourceFile where
  preamble : List String
  root : Declaration
  deriving DecidableEq, Repr

/-- A signature that does not show the name that its kind of declaration has. -/
structure Unnamed where
  kind : Kind
  signature : String
  deriving DecidableEq, Repr

/-- What is said about the missing name. -/
def Unnamed.message (e : Unnamed) : String :=
  e.kind.label ++ " signature has no name: " ++ e.signature

/-! ## Names in signatures -/

/-- The first word in front of ` =`. -/
def assignedName (signature : List Char) : Option (List Char) :=
  wordBefore (" =".toList.isPrefixOf ·) signature

/-- The first word in front of `;`. -/
def terminatedName (signature : List Char) : Option (List Char) :=
  wordBefore (";".toList.isPrefixOf ·) signature

/-- Whether a text begins with parentheses that are closed on the same line. -/
def opensCall : List Char → Bool
  | '(' :: rest => (rest.takeWhile (· != '\n')).contains ')'
  | _ => false

/-- The first word in front of a pair of parentheses. -/
def calledName (signature : List Char) : Option (List Char) :=
  wordBefore opensCall signature

/-- The name that the signature of a declaration of this kind shows. -/
def Kind.name? (kind : Kind) (signature : String) : Option String :=
  let text := signature.toList
  let name := match kind with
    | .namedClass => wordAfter "class" text
    | .enum => wordAfter "enum" text
    | .field => (assignedName text).or (terminatedName text)
    | .fieldClass => assignedName text
    | .method => calledName text
  name.map String.ofList

namespace Declaration

/-! ## Parts -/

def head : Declaration → Head
  | .leaf _ head _ => head
  | .scope _ head _ => head

def header (d : Declaration) : List String := d.head.header

def signature (d : Declaration) : String := d.head.signature

def kind : Declaration → Kind
  | .leaf .enum _ _ => .enum
  | .leaf .field _ _ => .field
  | .leaf .method _ _ => .method
  | .scope none _ _ => .namedClass
  | .scope (some _) _ _ => .fieldClass

/-- The member declarations of a scope. -/
def members? : Declaration → Option (List Declaration)
  | .leaf _ _ _ => none
  | .scope _ _ members => some members

/-- The raw lines of a leaf. -/
def lines? : Declaration → Option (List String)
  | .leaf _ _ lines => some lines
  | .scope _ _ _ => none

/-- The indentation of the signature. -/
def indentation (d : Declaration) : Indentation := Text.indentation d.signature

/-- The declared name. -/
def name? (d : Declaration) : Option String := d.kind.name? d.signature

/-- The declared name, or what is wrong with the signature. -/
def name (d : Declaration) : Except Unnamed String :=
  match d.name? with
  | some name => .ok name
  | none => .error ⟨d.kind, d.signature⟩

/-! ## The whole tree -/

mutual

/-- All declarations of a tree, each after its members. -/
def postorder : Declaration → List Declaration
  | .leaf kind head lines => [.leaf kind head lines]
  | .scope opener head members => postorderAll members ++ [.scope opener head members]

/-- All declarations of a list of trees, each after its members. -/
def postorderAll : List Declaration → List Declaration
  | [] => []
  | d :: ds => d.postorder ++ postorderAll ds

end

mutual

/-- The tree with every head and the raw lines of every leaf changed. -/
def mapText (onHead : Head → Head) (onLines : LeafKind → List String → List String) :
    Declaration → Declaration
  | .leaf kind head lines => .leaf kind (onHead head) (onLines kind lines)
  | .scope opener head members => .scope opener (onHead head) (mapTextAll onHead onLines members)

/-- The trees with every head and the raw lines of every leaf changed. -/
def mapTextAll (onHead : Head → Head) (onLines : LeafKind → List String → List String) :
    List Declaration → List Declaration
  | [] => []
  | d :: ds => d.mapText onHead onLines :: mapTextAll onHead onLines ds

end

theorem mapTextAll_eq_map (onHead : Head → Head)
    (onLines : LeafKind → List String → List String) (ds : List Declaration) :
    mapTextAll onHead onLines ds = ds.map (mapText onHead onLines) := by
  induction ds with
  | nil => simp [mapTextAll]
  | cons d ds ih => simp [mapTextAll, ih]

theorem postorderAll_eq_flatMap (ds : List Declaration) :
    postorderAll ds = ds.flatMap postorder := by
  induction ds with
  | nil => simp [postorderAll]
  | cons d ds ih => simp [postorderAll, ih]

end Declaration

/-- The file with its preamble and its declarations changed line by line. -/
def SourceFile.mapText (onPreamble : List String → List String) (onHead : Head → Head)
    (onLines : LeafKind → List String → List String) (file : SourceFile) : SourceFile :=
  ⟨onPreamble file.preamble, file.root.mapText onHead onLines⟩

end HouseStyle
