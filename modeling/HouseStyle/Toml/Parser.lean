import HouseStyle.Toml.Scalar

/-!
# TOML documents

A document is a list of lines that open a table or define a value. They are read one after the
other and then carried out in order on a table that is empty at first.

* `valueFrom`: the value at the start of a text.
* `Line`, `linesOf`: the lines of a document.
* `parse`: the table that a document describes.
-/

namespace HouseStyle.Toml

/-! ## Values -/

/-- The table that the pairs of an inline table describe. -/
def inlineTable (pairs : List (List String × Value)) : Option Value :=
  (pairs.foldlM (fun (entries : Entries) (pair : List String × Value) =>
    match pair.1.getLast? with
    | some key => Item.define? pair.1.dropLast key pair.2 entries
    | none => none) []).map fun entries => .table (Item.toValues entries)

mutual

/-- The value at the start of a text, with `depth` brackets and braces around it; `limit` bounds how
many steps are taken. -/
def valueFrom : (limit depth : Nat) → List Char → Option (Value × List Char)
  | 0, _, _ => none
  | limit + 1, depth, text =>
    match text with
    | [] => none
    | c :: rest =>
      if c = '\x22' || c = '\x27' then
        (stringFrom text).map fun (text, rest) => (.string text, rest)
      else if c = '[' || c = '\x7b' then
        if depthBound ≤ depth + 1 then none
        else if c = '[' then
          (itemsFrom limit (depth + 1) rest).map fun (items, rest) => (.array items, rest)
        else
          match pairsFrom limit (depth + 1) true (skipBlank rest) with
          | none => none
          | some (pairs, rest) => (inlineTable pairs).map fun table => (table, rest)
      else
        (scalar? (scalarRun text).1).map fun value => (value, (scalarRun text).2)

/-- The items of an array up to its closing bracket. -/
def itemsFrom : (limit depth : Nat) → List Char → Option (List Value × List Char)
  | 0, _, _ => none
  | limit + 1, depth, text =>
    match skipSpace false text with
    | none => none
    | some (']' :: rest) => some ([], rest)
    | some text =>
      match valueFrom limit depth text with
      | none => none
      | some (value, rest) =>
        match skipSpace false rest with
        | some (',' :: rest) =>
          (itemsFrom limit depth rest).map fun (values, rest) => (value :: values, rest)
        | some (']' :: rest) => some ([value], rest)
        | _ => none

/-- The pairs of an inline table up to its closing brace, which may come at once only at the very
beginning. -/
def pairsFrom : (limit depth : Nat) → (first : Bool) → List Char →
    Option (List (List String × Value) × List Char)
  | 0, _, _, _ => none
  | limit + 1, depth, first, text =>
    if first && text.head? == some '\x7d' then some ([], text.drop 1)
    else
      match dottedKey text with
      | some (path, '=' :: rest) =>
        match valueFrom limit depth (skipBlank rest) with
        | none => none
        | some (value, rest) =>
          match skipBlank rest with
          | ',' :: rest =>
            (pairsFrom limit depth false (skipBlank rest)).map fun (pairs, rest) =>
              ((path, value) :: pairs, rest)
          | '\x7d' :: rest => some ([(path, value)], rest)
          | _ => none
      | _ => none

end

/-! ## Lines -/

/-- One line of a document. -/
inductive Line where
  /-- The header of a table. -/
  | table (path : List String)
  /-- The header of an element of an array of tables. -/
  | element (path : List String)
  | pair (path : List String) (value : Value)

/-- The line at the start of a text. -/
def lineFrom (text : List Char) : Option (Line × List Char) :=
  match text with
  | '[' :: '[' :: rest =>
    match dottedKey (skipBlank rest) with
    | some (path, ']' :: ']' :: rest) => some (.element path, rest)
    | _ => none
  | '[' :: rest =>
    match dottedKey (skipBlank rest) with
    | some (path, ']' :: rest) => some (.table path, rest)
    | _ => none
  | _ =>
    match dottedKey text with
    | some (path, '=' :: rest) =>
      (valueFrom (2 * rest.length + 2) 0 (skipBlank rest)).map fun (value, rest) =>
        (.pair path value, rest)
    | _ => none

/-- The lines of a text, of which there are at most `limit`. -/
def linesFrom : (limit : Nat) → List Char → Option (List Line)
  | 0, _ => none
  | limit + 1, text =>
    match skipSpace false text with
    | none => none
    | some [] => some []
    | some text =>
      match lineFrom text with
      | none => none
      | some (line, rest) =>
        match endLine rest with
        | none => none
        | some rest => (linesFrom limit rest).map (line :: ·)

/-- The lines of a document. -/
def linesOf (text : String) : Option (List Line) :=
  let chars := text.toList
  let chars := if chars.head?.any fun c => c.toNat == 0xfeff then chars.drop 1 else chars
  linesFrom (chars.length + 1) chars

/-! ## Documents -/

/-- A table and the path of the table to which pairs are added. -/
structure Building where
  entries : Entries := []
  path : List String := []

/-- The table after a line. -/
def Building.add? (building : Building) (line : Line) : Option Building :=
  match line with
  | .table path =>
    match path.getLast? with
    | none => none
    | some key =>
      (Item.editAt? path.dropLast (Item.openTable? key) building.entries).map fun es => ⟨es, path⟩
  | .element path =>
    match path.getLast? with
    | none => none
    | some key =>
      (Item.editAt? path.dropLast (Item.openElement? key) building.entries).map fun es =>
        ⟨es, path⟩
  | .pair path value =>
    match path.getLast? with
    | none => none
    | some key =>
      (Item.editAt? building.path (Item.define? path.dropLast key value) building.entries).map
        fun es => ⟨es, building.path⟩

/-- The entries of the table that a document describes; `none` if the text is no document. -/
def parse (text : String) : Option (List (String × Value)) :=
  match linesOf text with
  | none => none
  | some lines =>
    (lines.foldlM Building.add? {}).map fun building => Item.toValues building.entries

end HouseStyle.Toml
