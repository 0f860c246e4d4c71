import HouseStyle.Files.Glob.Basic

/-!
# Reading glob patterns

A pattern is read from left to right. Brackets without a closing bracket stand for themselves;
ranges that end before they begin, braces that are not paired, and a backslash at the end are
malformed.

* `Glob.parse?`: the pattern that a text describes.
-/

namespace HouseStyle.Glob

/-! ## Classes -/

/-- The bytes of a character. -/
def bytes (c : Char) : List UInt8 := (String.singleton c).toUTF8.toList

/-- The byte ranges of a range of characters: the range between the last byte of the first and the
first byte of the last, and all their other bytes for themselves. -/
def byteRanges (first last : Char) : List (UInt8 × UInt8) :=
  if first = last then (bytes first).map fun b => (b, b)
  else
    match (bytes first).reverse, bytes last with
    | b :: front, c :: back =>
      front.reverse.map (fun b => (b, b)) ++ (b, c) :: back.map fun b => (b, b)
    | _, _ => []

/-- What follows an opening bracket. -/
inductive Bracket where
  /-- The ranges of a class, and the text behind its closing bracket. -/
  | closed (ranges : List (Char × Char)) (rest : List Char)
  /-- There is no closing bracket. -/
  | unclosed
  /-- A range ends before it begins. -/
  | reversed

/-- The ranges with another end for the last one, which comes first; `none` if that turns it
around. -/
def extendLast? (last : Char) : List (Char × Char) → Option (List (Char × Char))
  | (first, _) :: ranges =>
    if last.toNat < first.toNat then none else some ((first, last) :: ranges)
  | [] => none

/-- The ranges of a class up to its closing bracket. A bracket or a hyphen at the very beginning
stands for itself, and so does a hyphen at the end. The ranges read so far are in reverse, and
`extending` says that a hyphen follows them. -/
def readRanges (atStart : Bool) (ranges : List (Char × Char)) (extending : Bool) :
    List Char → Bracket
  | [] => .unclosed
  | c :: cs =>
    if c = ']' && !atStart then
      .closed (if extending then ('-', '-') :: ranges else ranges).reverse cs
    else if c = '-' && !atStart && !extending then readRanges false ranges true cs
    else if extending then
      match extendLast? c ranges with
      | some ranges => readRanges false ranges false cs
      | none => .reversed
    else readRanges false ((c, c) :: ranges) false cs

/-- Whether a class behind an opening bracket is negated. -/
def isNegated (text : List Char) : Bool := text.head? == some '!' || text.head? == some '^'

/-- What follows an opening bracket, the mark of negation left out. -/
def readBracket (text : List Char) : Bracket :=
  readRanges true [] false (if isNegated text then text.drop 1 else text)

/-- The class of some ranges of characters. -/
def classOf (negated : Bool) (ranges : List (Char × Char)) : Token :=
  .class negated (ranges.flatMap fun r => byteRanges r.1 r.2)

theorem length_readRanges {atStart extending : Bool} {ranges found : List (Char × Char)}
    {text rest : List Char} (h : readRanges atStart ranges extending text = .closed found rest) :
    rest.length < text.length := by
  induction text generalizing atStart extending ranges with
  | nil => cases h
  | cons c cs ih =>
    unfold readRanges at h
    split at h
    · cases h; exact Nat.lt_succ_self _
    · split at h
      · exact Nat.lt_succ_of_lt (ih h)
      · split at h
        · split at h
          · exact Nat.lt_succ_of_lt (ih h)
          · cases h
        · exact Nat.lt_succ_of_lt (ih h)

theorem length_readBracket {ranges : List (Char × Char)} {text rest : List Char}
    (h : readBracket text = .closed ranges rest) : rest.length < text.length := by
  have hr := length_readRanges h
  split at hr
  · simp only [List.length_drop] at hr; omega
  · exact hr

/-! ## States -/

/-- A group that is not closed yet: the tokens in front of it, in reverse, and the alternatives that
are complete. -/
structure OpenGroup where
  before : List Token
  complete : List (List Token)

/-- What is read of a pattern. -/
structure State where
  /-- The groups around the current tokens, the innermost one first. -/
  groups : List OpenGroup := []
  /-- The tokens of the pattern or alternative that is being read, in reverse. -/
  current : List Token := []
  /-- Whether a bracket without a closing bracket was met, behind which there are no classes. -/
  bracketsFail : Bool := false

namespace State

/-- Adds a token. -/
def push (state : State) (token : Token) : State :=
  { state with current := token :: state.current }

/-- Adds a character that stands for itself. -/
def pushLiteral (state : State) (c : Char) : State :=
  (bytes c).foldl (fun state b => state.push (.byte b)) state

/-- Adds two stars that do not stand for directories. -/
def pushStars (state : State) : State := (state.push .star).push .star

/-- Begins a group. -/
def openGroup (state : State) : State :=
  { state with groups := ⟨state.current, []⟩ :: state.groups, current := [] }

/-- Ends an alternative and begins the next one; outside groups a comma stands for itself. -/
def nextAlternative (state : State) : State :=
  match state.groups with
  | [] => state.pushLiteral ','
  | group :: groups =>
    { state with
      groups := ⟨group.before, group.complete ++ [state.current.reverse]⟩ :: groups
      current := [] }

/-- Ends the innermost group. -/
def closeGroup? (state : State) : Option State :=
  match state.groups with
  | [] => none
  | group :: groups =>
    let token := Token.group (group.complete ++ [state.current.reverse])
    some { state with groups, current := token :: group.before }

/-- Replaces the last token, unless it already stands for any directories. -/
def replaceLast (state : State) (token : Token) : State :=
  match state.current with
  | .directoriesFirst :: _ => state
  | .everythingBelow :: _ => state
  | _ :: rest => { state with current := token :: rest }
  | [] => state.push token

end State

/-- What two stars mean, given the character in front of them and the text behind them: the state,
the character read last, and the text that follows. They stand for directories only between slashes
or the ends of an alternative. -/
def doubleStar (state : State) (previous : Option Char) (rest : List Char) :
    State × Option Char × List Char :=
  let plain := (state.pushStars, some '*', rest)
  let grouped := !state.groups.isEmpty
  let startsAlternative := grouped && (previous == some ',' || previous == some '\x7b')
  if state.current.isEmpty then
    match rest with
    | [] => (state.push .directoriesFirst, some '*', [])
    | '/' :: rest => (state.push .directoriesFirst, some '/', rest)
    | _ => plain
  else if previous != some '/' && !startsAlternative then plain
  else
    match rest with
    | [] => (state.replaceLast .everythingBelow, some '*', [])
    | '/' :: rest => (state.replaceLast .directoriesBetween, some '/', rest)
    | c :: _ =>
      if grouped && (c == ',' || c == '\x7d') then
        (state.replaceLast .everythingBelow, some '*', rest)
      else plain

theorem length_doubleStar (state : State) (previous : Option Char) (rest : List Char) :
    (doubleStar state previous rest).2.2.length ≤ rest.length := by
  unfold doubleStar
  simp only []
  repeat' split
  all_goals simp

/-! ## Patterns -/

/-- Goes on reading a pattern behind the character `previous`. -/
def readFrom (state : State) (previous : Option Char) (text : List Char) : Option State :=
  match text with
  | [] => if state.groups.isEmpty then some state else none
  | c :: cs =>
    if c = '?' then readFrom (state.push .any) (some c) cs
    else if c = '*' then
      if cs.head? == some '*' then
        have := length_doubleStar state previous (cs.drop 1)
        have : (cs.drop 1).length ≤ cs.length := (List.drop_sublist 1 cs).length_le
        let next := doubleStar state previous (cs.drop 1)
        readFrom next.1 next.2.1 next.2.2
      else readFrom (state.push .star) (some c) cs
    else if c = '[' && !state.bracketsFail then
      match h : readBracket cs with
      | .reversed => none
      | .unclosed => readFrom { state.pushLiteral c with bracketsFail := true } (some c) cs
      | .closed ranges rest =>
        have := length_readBracket h
        readFrom (state.push (classOf (isNegated cs) ranges)) (some ']') rest
    else if c = '\x7b' then readFrom state.openGroup (some c) cs
    else if c = '\x7d' then
      match state.closeGroup? with
      | none => none
      | some state => readFrom state (some c) cs
    else if c = ',' then readFrom state.nextAlternative (some c) cs
    else if c = '\\' then
      match hc : cs with
      | [] => none
      | d :: rest =>
        have : rest.length < cs.length := by rw [hc]; exact Nat.lt_succ_self _
        readFrom (state.pushLiteral d) (some d) rest
    else readFrom (state.pushLiteral c) (some c) cs
termination_by text.length
decreasing_by all_goals simp only [List.length_cons]; omega

/-- The pattern that a text describes; `none` if the text is malformed. -/
def parse? (text : String) : Option Pattern :=
  (readFrom {} none text.toList).map fun state => state.current.reverse

end HouseStyle.Glob
