import HouseStyle.Settings.KeyPath
import HouseStyle.Toml.Parser

/-!
# Configuration

A configuration is a table of values that is built in layers. A layer changes only what it names:
tables are merged key by key, and every other value replaces what was there. Keys are the same in
upper and lower case.

* `Config.layer`: a configuration with a table laid over it.
* `Config.set?`: a configuration with a value laid over what is at a path.
* `Config.field?`: the value of a field of one of its sections.
* `Config.boolean?`, `Config.text?`, `Config.texts?`: what a setting may be given as.
-/

namespace HouseStyle

open Toml

/-- The value at the top of a configuration. -/
structure Config where
  root : Value

namespace Config

/-! ## Layers -/

/-- A key in lower case. -/
def normalKey (key : String) : String := String.ofList (key.toList.map Char.toLower)

/-- What stands where nothing was put. -/
def nothing : Value := .table []

/-- The entries of a value, none if it is no table. -/
def entriesOf : Value → List (String × Value)
  | .table entries => entries
  | _ => []

/-- The items of a value, none if it is no array. -/
def itemsOf : Value → List Value
  | .array items => items
  | _ => []

/-- The value at a key, if the value is a table that holds it. -/
def get? (value : Value) (key : String) : Option Value :=
  ((entriesOf value).find? fun e => e.1 == key).map Prod.snd

/-- A table with a value at a key; what is no table becomes one. -/
def put (target : Value) (key : String) (value : Value) : Value :=
  let entries := entriesOf target
  if entries.any fun e => e.1 == key then
    .table (entries.map fun e => if e.1 == key then (key, value) else e)
  else .table (entries ++ [(key, value)])

mutual

/-- A value laid over another one. -/
def merge (below : Value) : Value → Value
  | .table entries => mergeEntries below entries
  | value => value

/-- Entries laid over a value one after the other. -/
def mergeEntries (target : Value) : List (String × Value) → Value
  | [] => target
  | (key, value) :: entries =>
    let key := normalKey key
    mergeEntries (put target key (merge ((get? target key).getD nothing) value)) entries

end

/-! ## Paths -/

/-- The place in an array of the given size to which an index leads. -/
def placeOf (index : Int) (size : Nat) : Nat :=
  if 0 ≤ index then index.toNat else size - index.natAbs

/-- A value changed at a step. What is of the wrong kind for the step is emptied first, and an array
that is too short is filled up. -/
def changeAt (change : Value → Value) (step : Step) (target : Value) : Value :=
  match step with
  | .key key =>
    let key := normalKey key
    put target key (change ((get? target key).getD nothing))
  | .index index =>
    let items := itemsOf target
    let place := placeOf index items.length
    let items := items ++ List.replicate (place + 1 - items.length) nothing
    .array (items.set place (change (items[place]?.getD nothing)))

/-- A value with another one laid over what is at the end of a path. An element of an array is
replaced as a whole. -/
def setAt (value : Value) : List Step → Value → Value
  | [], target => target
  | [.key key], target => changeAt (fun below => merge below value) (.key key) target
  | [.index index], target => changeAt (fun _ => value) (.index index) target
  | step :: next :: path, target => changeAt (setAt value (next :: path)) step target

/-- A configuration with a table laid over it. Keys at the top of the table may be paths. -/
def layer (config : Config) (entries : List (String × Value)) : Config :=
  ⟨entries.foldl (fun root entry =>
    setAt entry.2 ((Step.ofText? entry.1).getD [.key entry.1]) root) config.root⟩

/-- A configuration with a value laid over what is at a path. -/
def set? (config : Config) (path : String) (value : Value) : Option Config :=
  (Step.ofText? path).map fun steps => ⟨setAt value steps config.root⟩

/-! ## Reading -/

/-- The value of a field of a section. The fields of a section are given in a table by their keys,
or in an array in order. -/
def field? (config : Config) (table key : String) (place : Nat) : Option Value :=
  match get? config.root table with
  | some (.array items) => items[place]?
  | some value => get? value key
  | none => none

/-- A number as text. -/
def integerText (n : Int) : String :=
  if n < 0 then "-" ++ toString n.natAbs else toString n.natAbs

/-- The truth value that a value stands for. -/
def boolean? : Value → Option Bool
  | .boolean b => some b
  | .integer n => some (n != 0)
  | .float text => some (text != "0" && text != "-0")
  | .string text =>
    let word := normalKey text
    if ["1", "true", "on", "yes"].contains word then some true
    else if ["0", "false", "off", "no"].contains word then some false
    else none
  | _ => none

/-- The text that a value stands for. -/
def text? : Value → Option String
  | .string text => some text
  | .integer n => some (integerText n)
  | .float text => some text
  | .boolean b => some (if b then "true" else "false")
  | .datetime text => some text
  | _ => none

/-- The texts that a value stands for. -/
def texts? : Value → Option (List String)
  | .array items => items.mapM text?
  | _ => none

end Config

end HouseStyle
