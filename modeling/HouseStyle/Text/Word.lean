import HouseStyle.Text.WordRanges

/-!
# Words of a line

A *word* is a maximal run of word characters. All that is read off a signature (its name, its
modifiers, its shape) depends on its words and on the text that follows each of them.

* `isWord`: the character class.
* `words`: the words of a line from left to right, each with the text after it.
* `wordAfter`, `wordBefore`: the first word after a keyword, and the first word before a given text.
-/

namespace HouseStyle.Text

/-- Whether the code point lies in one of the ranges. -/
def inRanges (ranges : List (Nat × Nat)) (n : Nat) : Bool :=
  ranges.any fun r => r.1 ≤ n && n ≤ r.2

/-- Whether a character can be part of a word. -/
def isWord (c : Char) : Bool :=
  c.isAlphanum || c == '_' || (128 ≤ c.toNat && inRanges wordRanges c.toNat)

/-- A maximal run of word characters and the text that follows it. -/
structure Word where
  text : List Char
  rest : List Char
  deriving DecidableEq, Repr

/-- The words that begin in the given text; `inside` says that the text continues a word. -/
def wordsFrom (inside : Bool) : List Char → List Word
  | [] => []
  | c :: cs =>
    if isWord c && !inside then
      ⟨(c :: cs).takeWhile isWord, (c :: cs).dropWhile isWord⟩ :: wordsFrom true cs
    else
      wordsFrom (isWord c) cs

/-- The words of a text from left to right. -/
def words (text : List Char) : List Word := wordsFrom false text

/-- The word at the very start of a text. -/
def leadingWord? (text : List Char) : Option (List Char) :=
  match text.takeWhile isWord with
  | [] => none
  | w => some w

/-- The word that one space separates from this word, if this word is the keyword. -/
def Word.argument? (keyword : List Char) (w : Word) : Option (List Char) :=
  match w.rest with
  | ' ' :: rest => if w.text = keyword then leadingWord? rest else none
  | _ => none

/-- The first word that stands one space after the keyword. -/
def wordAfter (keyword : String) (text : List Char) : Option (List Char) :=
  (words text).findSome? (·.argument? keyword.toList)

/-- The first word that is followed by a text with the given property. -/
def wordBefore (follows : List Char → Bool) (text : List Char) : Option (List Char) :=
  ((words text).find? fun w => follows w.rest).map Word.text

/-- Whether the keyword is one of the words. -/
def hasWord (keyword : String) (text : List Char) : Bool :=
  (words text).any fun w => w.text == keyword.toList

end HouseStyle.Text
