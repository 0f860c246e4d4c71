/-!
# The small parts of TOML

White space, comments, strings and keys. Every function takes a text and gives what it read with the
text behind it, or nothing if the text does not begin with it.

* `skipSpace`: white space, line ends and comments.
* `stringFrom`: the four kinds of strings.
* `dottedKey`: a key with dots.
-/

namespace HouseStyle.Toml

/-- A space or a tab. -/
def isBlank (c : Char) : Bool := c == ' ' || c == '\t'

/-- Whether a character may stand in comments and strings as it is. -/
def isPrintable (c : Char) : Bool := c == '\t' || (32 ≤ c.toNat && c.toNat != 127)

/-- The text without the spaces and tabs at its start. -/
def skipBlank (text : List Char) : List Char := text.dropWhile isBlank

/-- The text without the white space, line ends and comments at its start. -/
def skipSpace (inComment : Bool) : List Char → Option (List Char)
  | [] => some []
  | c :: cs =>
    if c = '\n' then skipSpace false cs
    else if c = '\r' then if cs.head? == some '\n' then skipSpace false cs else none
    else if inComment then if isPrintable c then skipSpace true cs else none
    else if isBlank c then skipSpace false cs
    else if c = '#' then skipSpace true cs
    else some (c :: cs)

/-- The text behind the line end that comes next, after spaces and a comment at most; the end of the
text is a line end too. -/
def endLine (text : List Char) : Option (List Char) :=
  let rest := skipBlank text
  let rest := if rest.head? == some '#' then rest.dropWhile isPrintable else rest
  match rest with
  | [] => some []
  | '\n' :: rest => some rest
  | '\r' :: '\n' :: rest => some rest
  | _ => none

/-! ## Strings -/

/-- The value of a hexadecimal digit. -/
def hexValue? (c : Char) : Option Nat :=
  if c.isDigit then some (c.toNat - 48)
  else if 'a'.toNat ≤ c.toNat && c.toNat ≤ 'f'.toNat then some (c.toNat - 87)
  else if 'A'.toNat ≤ c.toNat && c.toNat ≤ 'F'.toNat then some (c.toNat - 55)
  else none

/-- The number that hexadecimal digits denote. -/
def hexNumber? (digits : List Char) : Option Nat :=
  digits.foldlM (fun n c => (hexValue? c).map fun d => 16 * n + d) 0

/-- The character with the number that the given count of hexadecimal digits denotes. -/
def characterByNumber (count : Nat) (text : List Char) : Option (Char × List Char) :=
  if text.length < count then none
  else
    match hexNumber? (text.take count) with
    | some n => if n.isValidChar then some (Char.ofNat n, text.drop count) else none
    | none => none

/-- The character for the letter behind a backslash. -/
def letterEscape? : Char → Option Char
  | 'b' => some (Char.ofNat 8)
  | 't' => some '\t'
  | 'n' => some '\n'
  | 'f' => some (Char.ofNat 12)
  | 'r' => some '\r'
  | '\x22' => some '\x22'
  | '\\' => some '\\'
  | _ => none

/-- The character that the text behind a backslash stands for. -/
def escape? : List Char → Option (Char × List Char)
  | [] => none
  | c :: cs =>
    if c = 'u' then characterByNumber 4 cs
    else if c = 'U' then characterByNumber 8 cs
    else (letterEscape? c).map fun e => (e, cs)

theorem length_characterByNumber {count : Nat} {text rest : List Char} {c : Char}
    (h : characterByNumber count text = some (c, rest)) : rest.length ≤ text.length := by
  unfold characterByNumber at h
  split at h
  · cases h
  · split at h
    · split at h
      · cases h; simp
      · cases h
    · cases h

theorem length_escape {text rest : List Char} {c : Char} (h : escape? text = some (c, rest)) :
    rest.length < text.length := by
  unfold escape? at h
  split at h
  · cases h
  · split at h
    · exact Nat.lt_succ_of_le (length_characterByNumber h)
    · split at h
      · exact Nat.lt_succ_of_le (length_characterByNumber h)
      · simp only [Option.map_eq_some_iff] at h
        obtain ⟨e, _, he⟩ := h
        cases he
        exact Nat.lt_succ_self _

/-- The text without the spaces, tabs and line ends at its start. -/
def skipLines : List Char → List Char
  | [] => []
  | c :: cs =>
    if isBlank c || c = '\n' || (c = '\r' && cs.head? == some '\n') then skipLines cs else c :: cs

theorem length_skipLines (text : List Char) : (skipLines text).length ≤ text.length := by
  induction text with
  | nil => exact Nat.le_refl _
  | cons c cs ih =>
    unfold skipLines
    split
    · exact Nat.le_succ_of_le ih
    · exact Nat.le_refl _

/-- The text behind the line ends and white space that a backslash at the end of a line skips. -/
def skippedLine? (text : List Char) : Option (List Char) :=
  match skipBlank text with
  | '\n' :: rest => some (skipLines rest)
  | '\r' :: '\n' :: rest => some (skipLines rest)
  | _ => none

theorem length_skippedLine {text rest : List Char} (h : skippedLine? text = some rest) :
    rest.length < text.length := by
  unfold skippedLine? at h
  have hs : (skipBlank text).length ≤ text.length := (List.dropWhile_sublist _).length_le
  split at h
  · next after heq =>
    cases h
    rw [heq] at hs
    exact Nat.lt_of_le_of_lt (length_skipLines after) hs
  · next after heq =>
    cases h
    rw [heq] at hs
    have := length_skipLines after
    simp only [List.length_cons] at hs
    omega
  · cases h

/-- How strings of one kind are written. -/
structure StringStyle where
  /-- The quotation mark, written once or three times. -/
  mark : Char
  /-- Whether a backslash has a meaning. -/
  escapes : Bool
  /-- Whether the string may have several lines. -/
  multiline : Bool

/-- The string that ends at the next closing quotation mark. Of up to five marks at the end of a
string with several lines, the last three close it. -/
def stringBody (style : StringStyle) (text : List Char) : Option (List Char × List Char) :=
  match text with
  | [] => none
  | c :: cs =>
    let mark := style.mark
    let add := fun (c : Char) (read : Option (List Char × List Char)) =>
      read.map fun (body, rest) => (c :: body, rest)
    if style.multiline && [mark, mark, mark].isPrefixOf (c :: cs) then
      let marks := min 5 ((c :: cs).takeWhile (· == mark)).length
      some (List.replicate (marks - 3) mark, (c :: cs).drop marks)
    else if !style.multiline && c = mark then some ([], cs)
    else if style.escapes && c = '\\' then
      match hs : if style.multiline then skippedLine? cs else none with
      | some rest =>
        have : rest.length < cs.length := by
          split at hs
          · exact length_skippedLine hs
          · cases hs
        stringBody style rest
      | none =>
        match he : escape? cs with
        | some (e, rest) =>
          have := length_escape he
          add e (stringBody style rest)
        | none => none
    else if c = '\n' then if style.multiline then add c (stringBody style cs) else none
    else if c = '\r' then
      if style.multiline && cs.head? == some '\n' then stringBody style cs else none
    else if isPrintable c then add c (stringBody style cs)
    else none
termination_by text.length
decreasing_by all_goals simp only [List.length_cons]; omega

/-- The text without the line end at its start. -/
def dropLineEnd : List Char → List Char
  | '\n' :: rest => rest
  | '\r' :: '\n' :: rest => rest
  | text => text

/-- The string at the start of a text, in one or several lines. -/
def stringFrom (text : List Char) : Option (String × List Char) :=
  match text with
  | mark :: rest =>
    if mark = '\x22' || mark = '\x27' then
      let escapes := mark = '\x22'
      let read :=
        if [mark, mark].isPrefixOf rest then
          stringBody ⟨mark, escapes, true⟩ (dropLineEnd (rest.drop 2))
        else stringBody ⟨mark, escapes, false⟩ rest
      read.map fun (body, rest) => (String.ofList body, rest)
    else none
  | [] => none

/-! ## Keys -/

/-- Whether a character may stand in a key without quotation marks. -/
def isBareKey (c : Char) : Bool := c.isAlphanum || c == '_' || c == '-'

/-- A key without dots: a word, or a string in one line. -/
def simpleKey (text : List Char) : Option (String × List Char) :=
  match text with
  | [] => none
  | mark :: rest =>
    if mark = '\x22' || mark = '\x27' then
      (stringBody ⟨mark, mark = '\x22', false⟩ rest).map fun (body, rest) =>
        (String.ofList body, rest)
    else if isBareKey mark then
      some (String.ofList (text.takeWhile isBareKey), text.dropWhile isBareKey)
    else none

/-- A key with at most `limit` dots, as the keys between the dots. -/
def dottedKeyFrom : (limit : Nat) → List Char → Option (List String × List Char)
  | 0, _ => none
  | limit + 1, text =>
    match simpleKey text with
    | none => none
    | some (key, rest) =>
      match skipBlank rest with
      | '.' :: rest =>
        (dottedKeyFrom limit (skipBlank rest)).map fun (keys, rest) => (key :: keys, rest)
      | rest => some ([key], rest)

/-- The bound of the parts of a key, and of the brackets and braces around a value. -/
def depthBound : Nat := 80

/-- A key, and the text behind it and the white space after it. -/
def dottedKey (text : List Char) : Option (List String × List Char) :=
  (dottedKeyFrom text.length text).filter fun (keys, _) => keys.length < depthBound

end HouseStyle.Toml
