/-!
# Glob patterns

Patterns for paths. A star stands for any text within one name, a question mark for one byte of a
name, brackets for one byte of a class, braces for alternatives, and two stars between slashes for
any number of directories. A pattern is matched against the bytes of a path as a whole.

Matching goes through the tokens of a pattern once and keeps the places of the path that can be
reached. A set of places is a list with one truth value in front of every byte and one at the end.

* `Glob.Token`, `Glob.Pattern`: the patterns.
* `Glob.reach`: the places that can be reached over a pattern.
* `Glob.fits`: whether a path fits a pattern.
-/

namespace HouseStyle.Glob

/-- One step of a pattern. -/
inductive Token where
  | byte (byte : UInt8)
  /-- Any byte but a slash. -/
  | any
  /-- Any text without a slash. -/
  | star
  /-- Any directories at the beginning of a path. -/
  | directoriesFirst
  /-- A slash, any directories, and a slash. -/
  | directoriesBetween
  /-- A slash and any text behind it. -/
  | everythingBelow
  /-- A byte in one of the ranges, or in none of them. -/
  | class (negated : Bool) (ranges : List (UInt8 × UInt8))
  /-- One of several sequences of tokens. -/
  | group (alternatives : List (List Token))

/-- A sequence of tokens. -/
abbrev Pattern := List Token

/-! ## Places -/

/-- The places behind one byte with a property. -/
def advance (isMatch : UInt8 → Bool) (text : List UInt8) (places : List Bool) : List Bool :=
  false :: List.zipWith (fun byte place => place && isMatch byte) text places

/-- The places behind any number of bytes with a property; `carried` says that the first place can
be reached from further in front. -/
def spread (isMatch : UInt8 → Bool) (carried : Bool) : List UInt8 → List Bool → List Bool
  | byte :: text, place :: places =>
    (place || carried) :: spread isMatch ((place || carried) && isMatch byte) text places
  | [], place :: _ => [place || carried]
  | _, [] => []

/-- The places in one of two sets. -/
def union (first second : List Bool) : List Bool := List.zipWith or first second

/-- The byte between the names of a path. -/
def isSlash (byte : UInt8) : Bool := byte == 47

/-- The places behind any text. -/
def skipAny (text : List UInt8) (places : List Bool) : List Bool :=
  spread (fun _ => true) false text places

/-- The places behind a slash. -/
def skipSlash (text : List UInt8) (places : List Bool) : List Bool := advance isSlash text places

/-- Whether a byte is in one of the ranges, or in none of them. -/
def inClass (negated : Bool) (ranges : List (UInt8 × UInt8)) (byte : UInt8) : Bool :=
  (ranges.any fun r => r.1.toNat ≤ byte.toNat && byte.toNat ≤ r.2.toNat) != negated

/-! ## Matching -/

mutual

/-- Whether a token is a group of alternatives of which none holds a token that is no such group. -/
def isVoid : Token → Bool
  | .group alternatives => areVoidAlternatives alternatives
  | _ => false

/-- Whether all tokens are void. -/
def areVoid : List Token → Bool
  | [] => true
  | token :: tokens => isVoid token && areVoid tokens

/-- Whether all tokens of all alternatives are void. -/
def areVoidAlternatives : List (List Token) → Bool
  | [] => true
  | alternative :: alternatives => areVoid alternative && areVoidAlternatives alternatives

end

mutual

/-- The places of a text that can be reached over a token from some places. Of the alternatives of a
group, void ones do not count, and a void group stands for the empty text. -/
def step (text : List UInt8) (places : List Bool) : Token → List Bool
  | .byte byte => advance (· == byte) text places
  | .any => advance (fun byte => !isSlash byte) text places
  | .star => spread (fun byte => !isSlash byte) false text places
  | .directoriesFirst => union places (skipSlash text (skipAny text places))
  | .directoriesBetween =>
    let behind := skipSlash text places
    union behind (skipSlash text (skipAny text behind))
  | .everythingBelow => skipAny text (skipSlash text places)
  | .class negated ranges => advance (inClass negated ranges) text places
  | .group alternatives =>
    if areVoidAlternatives alternatives then places else choose text places alternatives

/-- The places of a text that can be reached over some tokens one after the other. -/
def reach (text : List UInt8) (places : List Bool) : List Token → List Bool
  | [] => places
  | token :: tokens => reach text (step text places token) tokens

/-- The places of a text that can be reached over one of some alternatives. -/
def choose (text : List UInt8) (places : List Bool) : List (List Token) → List Bool
  | [] => places.map fun _ => false
  | alternative :: alternatives =>
    if areVoid alternative then choose text places alternatives
    else union (reach text places alternative) (choose text places alternatives)

end

/-- Whether a path fits a pattern. Two stars alone fit every path. -/
def fits (pattern : Pattern) (path : String) : Bool :=
  match pattern with
  | [.directoriesFirst] => true
  | _ =>
    let text := path.toUTF8.toList
    (reach text (true :: text.map fun _ => false) pattern).getLast?.getD false

end HouseStyle.Glob
