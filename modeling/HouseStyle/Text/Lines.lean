import HouseStyle.Text.Line

/-!
# Text as lines

Reading a text cuts it after every line feed and drops trailing white space, which takes a carriage
return before the line feed with it. Writing puts a line feed after every line.

* `ofText`, `toText`: reading and writing.
* `splitLines_flatMap`: lines without a line feed are read back as they were written.
* `pieces`: a text cut at every occurrence of a separator.
-/

namespace HouseStyle.Text

/-- The pieces of a text between its line feeds; nothing follows a final line feed. -/
def splitLines : List Char → List (List Char)
  | [] => []
  | c :: cs =>
    if c = '\n' then [] :: splitLines cs
    else
      match splitLines cs with
      | [] => [[c]]
      | line :: lines => (c :: line) :: lines

theorem splitLines_append (line : List Char) (rest : List Char) (h : '\n' ∉ line) :
    splitLines (line ++ '\n' :: rest) = line :: splitLines rest := by
  induction line with
  | nil => simp [splitLines]
  | cons c cs ih =>
    simp only [List.mem_cons, not_or] at h
    simp [splitLines, ih h.2, Ne.symm h.1]

theorem splitLines_flatMap (lines : List (List Char)) (h : ∀ line ∈ lines, '\n' ∉ line) :
    splitLines (lines.flatMap fun line => line ++ ['\n']) = lines := by
  induction lines with
  | nil => rfl
  | cons line lines ih =>
    rw [List.flatMap_cons, List.append_assoc, List.singleton_append,
      splitLines_append _ _ (h line (by simp)), ih fun l hl => h l (by simp [hl])]

/-- The lines of a text, each without its trailing white space. -/
def ofText (text : String) : List String :=
  (splitLines text.toList).map fun line => String.ofList (trimEnd line)

/-- The text of a list of lines, a line feed after each. -/
def toText (lines : List String) : String :=
  String.ofList (lines.flatMap fun line => line.toList ++ ['\n'])

/-! ## Pieces -/

/-- The pieces of a text between the separators, of which there is one more than there are
separators. -/
def pieces (separator : Char) : List Char → List (List Char)
  | [] => [[]]
  | c :: cs =>
    match pieces separator cs with
    | [] => [[c]]
    | piece :: rest => if c = separator then [] :: piece :: rest else (c :: piece) :: rest

end HouseStyle.Text
