import HouseStyle.Declaration.Category
import HouseStyle.Text.NaturalKey

/-!
# Sorting members

The members of every scope are sorted by the rank of their category, then by name in natural order,
then by signature. The sort is stable and works from the inside out. A scope with a member that has
no key keeps its order and ends the sort; what was sorted before stays sorted.

* `SortKey`, `compareSortKeys`: what members are sorted by.
* `Declaration.sort`: the tree after the sort, with the error that ended it, if one did.
-/

namespace HouseStyle

open Text

/-- How members and enum constants are sorted. -/
structure SortOptions where
  order : CategoryOrder := .default
  /-- Whether the constant lines of enums are sorted as texts. -/
  enumConstants : Bool := true
  deriving DecidableEq, Repr

/-- Why a member has no sort key. -/
inductive SortError where
  | unranked (category : Category)
  | unnamed (error : Unnamed)
  deriving DecidableEq, Repr

/-- What is said about the error. -/
def SortError.message : SortError → String
  | .unranked category => "category '" ++ category.label ++ "' has no rank in the configured order"
  | .unnamed error => error.message

/-- What a member is sorted by, the most important part first. -/
structure SortKey where
  rank : Nat
  name : List KeyPart
  signature : String
  deriving DecidableEq, Repr

/-- By rank, then name, then signature. -/
def compareSortKeys (a b : SortKey) : Ordering :=
  (compare a.rank b.rank).then
    ((compareKeys a.name b.name).then (compareTexts a.signature b.signature))

namespace Declaration

/-- The sort key of a member. -/
def sortKey (order : CategoryOrder) (d : Declaration) : Except SortError SortKey :=
  match order.rank? d.category with
  | none => .error (.unranked d.category)
  | some rank =>
    match d.name with
    | .error e => .error (.unnamed e)
    | .ok name => .ok ⟨rank, naturalKey name, d.signature⟩

/-- Members with their sort keys, or the error of the first one that has none. -/
def keyed (order : CategoryOrder) : List Declaration →
    Except SortError (List (SortKey × Declaration))
  | [] => .ok []
  | d :: ds =>
    match d.sortKey order with
    | .error e => .error e
    | .ok key =>
      match keyed order ds with
      | .error e => .error e
      | .ok rest => .ok ((key, d) :: rest)

/-- Members in the order of their sort keys, or as they are and the error of the first one that has
none. -/
def sortScope (order : CategoryOrder) (members : List Declaration) :
    List Declaration × Option SortError :=
  match keyed order members with
  | .error e => (members, some e)
  | .ok pairs =>
    ((pairs.mergeSort fun a b => (compareSortKeys a.1 b.1).isLE).map Prod.snd, none)

/-- The raw lines of a leaf after the sort. -/
def sortLines (options : SortOptions) (kind : LeafKind) (lines : List String) : List String :=
  match kind with
  | .enum => if options.enumConstants then sortTexts lines else lines
  | .field | .method => lines

mutual

/-- The tree with the members of its scopes sorted, up to the first scope that cannot be. -/
def sort (options : SortOptions) : Declaration → Declaration × Option SortError
  | .leaf kind head lines => (.leaf kind head (sortLines options kind lines), none)
  | .scope opener head members =>
    match sortEach options members with
    | (members, some e) => (.scope opener head members, some e)
    | (members, none) =>
      let (members, error) := sortScope options.order members
      (.scope opener head members, error)

/-- The trees each sorted, up to the first one that cannot be. -/
def sortEach (options : SortOptions) : List Declaration → List Declaration × Option SortError
  | [] => ([], none)
  | d :: ds =>
    match d.sort options with
    | (d, some e) => (d :: ds, some e)
    | (d, none) =>
      let (ds, error) := sortEach options ds
      (d :: ds, error)

end

end Declaration

end HouseStyle
