import HouseStyle.Files.Glob.Parser
import HouseStyle.Files.Tree
import HouseStyle.Text.Line

/-!
# Ignore rules

An ignore file lists patterns, one a line, for what lies below its directory. The last line that
fits decides; a line that begins with `!` keeps what lines in front of it ignore. A malformed line
does not keep the other lines from counting.

* `RuleLine.of`: what a line of an ignore file says.
* `RuleLine.ofContent`: the lines of an ignore file.
* `Rule.verdict?`: what rules say about a path.
-/

namespace HouseStyle

open Text

/-- What an ignore file says about a path. -/
inductive Verdict where
  | ignored
  | kept
  deriving DecidableEq, Repr

/-- A pattern with what it says about the paths that fit. -/
structure Rule where
  pattern : Glob.Pattern
  verdict : Verdict
  /-- Whether the rule is for directories only. -/
  directoriesOnly : Bool

/-- One line of an ignore file. -/
inductive RuleLine where
  /-- An empty line or a comment. -/
  | empty
  | rule (rule : Rule)
  | malformed

namespace RuleLine

/-- A line without trailing white space, unless the white space is escaped. -/
def trimmed (line : List Char) : List Char :=
  if "\\ ".toList.isSuffixOf line then line else trimEnd line

/-- A text without a slash, and perhaps a backslash, at its end. -/
def dropSlash (text : List Char) : List Char :=
  if text.getLast? == some '/' then
    if text.dropLast.getLast? == some '\\' then text.dropLast.dropLast else text.dropLast
  else text

/-- The pattern of a line, taken from the directory of the file. A pattern without a slash fits in
every directory, and a pattern for everything below a directory does not fit the directory. -/
def completed (anchored : Bool) (text : List Char) : List Char :=
  let placed :=
    if anchored || text.contains '/' || text == "**".toList then text else "**/".toList ++ text
  if "/**".toList.isSuffixOf placed then placed ++ "/*".toList else placed

/-- What a line says. -/
def of (line : List Char) : RuleLine :=
  let text := trimmed line
  if line.head? == some '#' || text.isEmpty then .empty
  else
    let escaped := "\\!".toList.isPrefixOf text || "\\#".toList.isPrefixOf text
    let keeps := !escaped && text.head? == some '!'
    let body := if escaped || keeps then text.drop 1 else text
    let anchored := body.head? == some '/'
    let rest := if anchored && !escaped then body.drop 1 else body
    match Glob.parse? (String.ofList (completed anchored (dropSlash rest))) with
    | some pattern =>
      .rule ⟨pattern, if keeps then .kept else .ignored, rest.getLast? == some '/'⟩
    | none => .malformed

/-- The lines of an ignore file. Byte order marks at the very beginning do not count. -/
def ofContent (content : ByteArray) : List RuleLine :=
  match (Files.textLines content).map String.toList with
  | [] => []
  | first :: lines => of (first.dropWhile fun c => c.toNat == 0xfeff) :: lines.map of

/-- The rule of a line, if it has one. -/
def rule? : RuleLine → Option Rule
  | .rule r => some r
  | .empty | .malformed => none

/-- Whether a line is malformed. -/
def isMalformed : RuleLine → Bool
  | .malformed => true
  | .empty | .rule _ => false

end RuleLine

/-- What rules say about a path relative to their directory. -/
def Rule.verdict? (rules : List Rule) (path : String) (isDirectory : Bool) : Option Verdict :=
  (rules.reverse.find? fun rule =>
    (!rule.directoriesOnly || isDirectory) && Glob.fits rule.pattern path).map Rule.verdict

end HouseStyle
