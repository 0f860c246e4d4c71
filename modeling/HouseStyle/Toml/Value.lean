/-!
# TOML values

The values of a TOML document. Tables keep their keys in the order in which they were defined.

* `Value`: the values.
* `Item`: what stands at a key while a document is read, with how it was defined.
* `Item.define?`, `Item.openTable?`, `Item.openElement?`: the three ways in which a document defines
  something, each of which fails on a key that is already taken.
-/

namespace HouseStyle.Toml

/-- The values of a document. -/
inductive Value where
  | string (text : String)
  | integer (value : Int)
  /-- A float as decimal text. -/
  | float (text : String)
  | boolean (value : Bool)
  /-- A date, a time, or both, as text. -/
  | datetime (text : String)
  | array (items : List Value)
  | table (entries : List (String × Value))
  deriving Repr

/-- How a table came about. -/
inductive Origin where
  /-- By a header of its own. -/
  | header
  /-- By a header of a table below it. -/
  | above
  /-- By a dotted key. -/
  | dotted
  deriving DecidableEq, Repr

/-- What stands at a key while a document is read. -/
inductive Item where
  | value (value : Value)
  | table (origin : Origin) (entries : List (String × Item))
  /-- The elements of an array of tables, the last one first. -/
  | tables (elements : List (List (String × Item)))

/-- The items of a table with their keys. -/
abbrev Entries := List (String × Item)

namespace Entries

/-- The item at a key. -/
def get? (entries : Entries) (key : String) : Option Item :=
  (entries.find? fun e => e.1 == key).map Prod.snd

/-- The entries with an item at a key. -/
def set (entries : Entries) (key : String) (item : Item) : Entries :=
  if entries.any fun e => e.1 == key then
    entries.map fun e => if e.1 == key then (key, item) else e
  else entries ++ [(key, item)]

end Entries

namespace Item

/-! ## Definitions -/

/-- Changes the table to which a path of keys in a header leads, making the tables on the way. -/
def editAt? (path : List String) (change : Entries → Option Entries) (entries : Entries) :
    Option Entries :=
  match path with
  | [] => change entries
  | key :: path =>
    match Entries.get? entries key with
    | none => (editAt? path change []).map fun es => Entries.set entries key (.table .above es)
    | some (.value _) => none
    | some (.table origin inner) =>
      (editAt? path change inner).map fun es => Entries.set entries key (.table origin es)
    | some (.tables []) => none
    | some (.tables (last :: elements)) =>
      (editAt? path change last).map fun es => Entries.set entries key (.tables (es :: elements))

/-- Adds a value at a dotted key, making the tables on the way. Tables with a header are closed to
dotted keys, values can only be added to tables that dotted keys have made, and an array of tables
can only be passed on the way to such a table, through its last element. -/
def define? (path : List String) (key : String) (value : Value) (entries : Entries) :
    Option Entries :=
  match path with
  | [] =>
    match Entries.get? entries key with
    | none => some (Entries.set entries key (.value value))
    | some _ => none
  | first :: path =>
    match Entries.get? entries first with
    | none =>
      (define? path key value []).map fun es => Entries.set entries first (.table .dotted es)
    | some (.table origin inner) =>
      if origin = .dotted || (origin = .above && !path.isEmpty) then
        (define? path key value inner).map fun es => Entries.set entries first (.table origin es)
      else none
    | some (.tables (last :: elements)) =>
      if path.isEmpty then none
      else
        (define? path key value last).map fun es =>
          Entries.set entries first (.tables (es :: elements))
    | some _ => none

/-- Opens the table of a header in the table above it. A table can have only one header. -/
def openTable? (key : String) (entries : Entries) : Option Entries :=
  match Entries.get? entries key with
  | none => some (Entries.set entries key (.table .header []))
  | some (.table .above inner) => some (Entries.set entries key (.table .header inner))
  | some _ => none

/-- Adds an element to an array of tables. -/
def openElement? (key : String) (entries : Entries) : Option Entries :=
  match Entries.get? entries key with
  | none => some (Entries.set entries key (.tables [[]]))
  | some (.tables elements) => some (Entries.set entries key (.tables ([] :: elements)))
  | some _ => none

/-! ## Values of items -/

mutual

/-- The value of an item. -/
def toValue : Item → Value
  | .value v => v
  | .table _ entries => .table (toValues entries)
  | .tables elements => .array (tableValues elements).reverse

/-- The values of the items of a table. -/
def toValues : List (String × Item) → List (String × Value)
  | [] => []
  | (key, item) :: entries => (key, item.toValue) :: toValues entries

/-- The values of some tables. -/
def tableValues : List (List (String × Item)) → List Value
  | [] => []
  | element :: elements => .table (toValues element) :: tableValues elements

end

end Item

end HouseStyle.Toml
