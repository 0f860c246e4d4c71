import HouseStyle.Declaration.Basic

/-!
# Shapes of signatures

There is no grammar beyond indentation and the punctuation at the ends of lines. What a signature
opens is the first of nine shapes that fits it, so their order matters: an enum is tried before a
class, and a field with an anonymous class before the multi-line field with the same signature.

* `Shape.fits`: the condition of each shape.
* `classify`: the shape of a signature, given the line below it.
-/

namespace HouseStyle

open Text

/-- What a signature opens. -/
inductive Shape where
  | enum
  | emptyClass
  | openClass
  | fieldClass
  | abstractMethod
  | emptyMethod
  | openMethod
  | field
  | multilineField
  deriving DecidableEq, Repr

namespace Shape

/-- The shapes in the order in which they are tried. -/
def all : List Shape :=
  [.enum, .emptyClass, .openClass, .fieldClass, .abstractMethod, .emptyMethod, .openMethod, .field,
    .multilineField]

/-- Whether a text ends with another and holds no line feed. -/
def endsLine (ending : String) (text : List Char) : Bool :=
  ending.toList.isSuffixOf text && !text.contains '\n'

/-- Whether the line is the opener `new Type() {` of an anonymous class, or `new Type<…>() {`. -/
def isOpener (line : String) : Bool :=
  let text := unindented line
  let type := text.drop 4
  let afterType := type.dropWhile isWord
  let parameters := afterType.takeWhile (· != '>')
  "new ".toList.isPrefixOf text && (leadingWord? type).isSome &&
    (afterType == "() \x7b".toList ||
      (parameters.head? == some '<' && afterType.drop parameters.length == ">() \x7b".toList))

/-- Whether the word is a keyword in front of one space and another word. -/
def introduces (keyword : String) (w : Word) : Bool := (w.argument? keyword.toList).isSome

/-- The text behind the opening parenthesis that directly follows a word. -/
def arguments? (w : Word) : Option (List Char) :=
  match w.rest with
  | '(' :: rest => some rest
  | _ => none

/-- Whether a text holds a closing parenthesis with a space behind it. -/
def closesArguments : List Char → Bool
  | [] => false
  | c :: cs => (c == ')' && cs.head? == some ' ') || closesArguments cs

/-- Whether one of the words of a text is followed by parentheses, then by a space and, at the end
of the line, by `ending`. -/
def hasBody (ending : String) (text : List Char) : Bool :=
  (words text).any fun w =>
    match arguments? w with
    | some rest => endsLine ending rest && closesArguments rest
    | none => false

/-- Whether the text ends with a semicolon and holds a call in front of it. -/
def hasAbstractBody (text : List Char) : Bool :=
  endsLine ";" text &&
    (words text).any fun w =>
      match arguments? w with
      | some rest => rest.contains ')'
      | none => false

/-- Whether a line fits a shape, given the line below it. -/
def fits (signature : String) (next : Option String) (shape : Shape) : Bool :=
  let text := signature.toList
  match shape with
  | .enum => (words text).any (introduces "enum")
  | .emptyClass => (words text).any fun w => introduces "class" w && endsLine "\x7b\x7d" w.rest
  | .openClass => (words text).any (introduces "class")
  | .fieldClass => text.getLast? == some '=' && next.any isOpener
  | .abstractMethod =>
    (words text).any fun w =>
      w.text == "abstract".toList && w.rest.head? == some ' ' && hasAbstractBody w.rest
  | .emptyMethod => hasBody "\x7b\x7d" text
  | .openMethod => hasBody "\x7b" text
  | .field => text.getLast? == some ';'
  | .multilineField => text.getLast? == some '='

end Shape

/-- Whether the first character behind the indentation is part of a word. -/
def startsWithWord (line : String) : Bool := (leadingWord? (unindented line)).isSome

/-- The shape of a signature, given the line below it. -/
def classify (signature : String) (next : Option String) : Option Shape :=
  if startsWithWord signature then Shape.all.find? (Shape.fits signature next) else none

end HouseStyle
