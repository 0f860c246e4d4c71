import HouseStyle.Declaration.Basic

/-!
# Categories and their order

Every declaration falls into one category. Members are grouped by the rank of their category in a
configured order before their names are compared; a category that the order leaves out has no rank.

* `Declaration.category`: the category of a declaration.
* `CategoryOrder.rank?`: the place of a category in an order.
* `CategoryOrder.ofNames`: the order that a list of category names describes.
-/

namespace HouseStyle

open Text

/-- What members are sorted by first. -/
inductive Category where
  | constant
  | namedClass
  | fieldClass
  | staticField
  | field
  | method
  | enum
  deriving DecidableEq, Repr

namespace Category

/-- Every category. -/
def all : List Category :=
  [.constant, .namedClass, .fieldClass, .staticField, .field, .method, .enum]

/-- The name of a category in settings, outlines and messages. -/
def label : Category → String
  | .constant => "constant"
  | .namedClass => "class"
  | .fieldClass => "field class"
  | .staticField => "static field"
  | .field => "field"
  | .method => "method"
  | .enum => "enum"

/-- The category of the given name. -/
def ofLabel? (label : String) : Option Category := all.find? fun c => c.label == label

/-- The integral types, whose `final` static fields are constants. -/
def integralTypes : List String := ["byte", "short", "int", "long", "char"]

/-- Whether `final` and an integral type stand next to each other. -/
def isFinalIntegral (signature : List Char) : Bool :=
  (words signature).any fun w =>
    match w.argument? "final".toList with
    | some type => integralTypes.any fun t => t.toList == type
    | none => false

/-- The category of a field without an anonymous class, decided by its modifiers. -/
def ofField (signature : String) : Category :=
  let text := signature.toList
  if hasWord "static" text then
    if isFinalIntegral text then .constant else .staticField
  else .field

end Category

/-- The category of a declaration. -/
def Declaration.category : Declaration → Category
  | .leaf .enum _ _ => .enum
  | .leaf .field head _ => .ofField head.signature
  | .leaf .method _ _ => .method
  | .scope none _ _ => .namedClass
  | .scope (some _) _ _ => .fieldClass

/-- A name that no category has. -/
structure UnknownCategory where
  name : String
  deriving DecidableEq, Repr

/-- What is said about the error. -/
def UnknownCategory.message (e : UnknownCategory) : String :=
  "unknown category '" ++ e.name ++ "'"

/-- Categories in ascending rank. -/
structure CategoryOrder where
  categories : List Category
  deriving DecidableEq, Repr

namespace CategoryOrder

/-- The order without enums: a scope that declares one cannot be sorted by it. -/
def default : CategoryOrder :=
  ⟨[.constant, .namedClass, .fieldClass, .staticField, .field, .method]⟩

instance : Inhabited CategoryOrder := ⟨default⟩

/-- The order given by category names; the first name that is none is reported. -/
def ofNames (names : List String) : Except UnknownCategory CategoryOrder :=
  match names with
  | [] => .ok ⟨[]⟩
  | name :: names =>
    match Category.ofLabel? name with
    | none => .error ⟨name⟩
    | some c => (ofNames names).map fun order => ⟨c :: order.categories⟩

/-- The place of the first occurrence of a category. -/
def rank? (order : CategoryOrder) (c : Category) : Option Nat :=
  order.categories.findIdx? (· == c)

end CategoryOrder

end HouseStyle
