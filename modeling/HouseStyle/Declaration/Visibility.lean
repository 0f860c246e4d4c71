import HouseStyle.Declaration.Basic

/-!
# Access modifiers

A declaration without an access modifier gets one right behind the indentation of its signature.

* `Visibility.of?`: the modifier that a signature declares.
* `SourceFile.withVisibility`: a file with a modifier on every declaration.
-/

namespace HouseStyle

open Text

/-- The access modifiers. -/
inductive Visibility where
  | isPublic
  | isPrivate
  | isProtected
  deriving DecidableEq, Repr

/-- A text that is not an access modifier. -/
structure UnknownVisibility where
  name : String
  deriving DecidableEq, Repr

/-- What is said about the error. -/
def UnknownVisibility.message (e : UnknownVisibility) : String :=
  "unknown access modifier '" ++ e.name ++ "' (expected public, private or protected)"

namespace Visibility

/-- The word that stands for the modifier. -/
def keyword : Visibility → String
  | .isPublic => "public"
  | .isPrivate => "private"
  | .isProtected => "protected"

/-- The modifier with the given keyword. -/
def ofKeyword? (keyword : String) : Option Visibility :=
  [isPublic, isPrivate, isProtected].find? fun v => v.keyword == keyword

theorem ofKeyword?_keyword (v : Visibility) : ofKeyword? v.keyword = some v := by
  cases v <;> decide

/-- The modifier that a setting or an option names. -/
def parse (name : String) : Except UnknownVisibility Visibility :=
  match ofKeyword? name with
  | some v => .ok v
  | none => .error ⟨name⟩

/-- The first access modifier among the words of a signature. -/
def of? (signature : String) : Option Visibility :=
  (words signature.toList).findSome? fun w => ofKeyword? (String.ofList w.text)

end Visibility

/-- The signature with the modifier behind its indentation, unless it declares one. -/
def insertVisibility (modifier : Visibility) (signature : String) : String :=
  match Visibility.of? signature with
  | some _ => signature
  | none =>
    String.ofList (List.replicate (leadingSpaces signature) ' ' ++ modifier.keyword.toList ++
      ' ' :: unindented signature)

/-- The head with an access modifier in its signature. -/
def Head.withVisibility (modifier : Visibility) (head : Head) : Head :=
  { head with signature := insertVisibility modifier head.signature }

/-- The file with an access modifier on every declaration. -/
def SourceFile.withVisibility (modifier : Visibility) (file : SourceFile) : SourceFile :=
  file.mapText id (Head.withVisibility modifier) fun _ lines => lines

end HouseStyle
