/-!
# Lines and their indentation

A line is a string without its line ending. White space are the characters with the Unicode property
`White_Space`, for every notion of a blank line or of trailing white space in this library. Only
spaces indent; a line of white space alone is *blank*, and its indentation counts as deeper than any
other, so that it neither opens nor closes anything.

* `isSpace`, `trimEnd`, `trim`: white space, and a text without what of it stands around the text.
* `Indentation`, `indentation`: the measure and its order.
* `closes_iff`: a line closes a construct exactly if it is the closing line that would be written.
-/

namespace HouseStyle.Text

/-! ## White space -/

/-- Whether a character has the Unicode property `White_Space`. -/
def isSpace (c : Char) : Bool :=
  let n := c.toNat
  (0x09 ≤ n && n ≤ 0x0d) || n == 0x20 || n == 0x85 || n == 0xa0 || n == 0x1680 ||
    (0x2000 ≤ n && n ≤ 0x200a) || n == 0x2028 || n == 0x2029 || n == 0x202f || n == 0x205f ||
    n == 0x3000

/-- The elements of a list up to the last one that fails `p`. -/
def dropTrailing {α : Type} (p : α → Bool) : List α → List α
  | [] => []
  | x :: xs =>
    match dropTrailing p xs with
    | [] => if p x then [] else [x]
    | ys => x :: ys

/-- The text without its trailing white space. -/
def trimEnd (text : List Char) : List Char := dropTrailing isSpace text

/-- The text without the white space around it. -/
def trim (text : List Char) : List Char := trimEnd (text.dropWhile isSpace)

/-! ## Indentation -/

/-- The indentation of a line. -/
inductive Indentation where
  /-- The number of spaces before the first other character. -/
  | spaces (count : Nat)
  /-- The line holds nothing but white space. -/
  | blank
  deriving DecidableEq, Repr

namespace Indentation

/-- `a.atMost b` says that `a` is no deeper than `b`. -/
def atMost : Indentation → Indentation → Bool
  | _, .blank => true
  | .blank, .spaces _ => false
  | .spaces m, .spaces n => m ≤ n

/-- `a.deeper b` says that `a` is deeper than `b`. -/
def deeper (a b : Indentation) : Bool := !a.atMost b

@[simp] theorem atMost_refl (a : Indentation) : a.atMost a = true := by
  cases a <;> simp [atMost]

theorem atMost_trans {a b c : Indentation} (hab : a.atMost b = true) (hbc : b.atMost c = true) :
    a.atMost c = true := by
  cases a <;> cases b <;> cases c <;> simp_all [atMost]
  omega

theorem atMost_total (a b : Indentation) : a.atMost b = true ∨ b.atMost a = true := by
  cases a <;> cases b <;> simp [atMost]
  omega

end Indentation

/-- The number of spaces at the start of a line. -/
def leadingSpaces (line : String) : Nat := (line.toList.takeWhile (· == ' ')).length

/-- A line without the spaces at its start. -/
def unindented (line : String) : List Char := line.toList.dropWhile (· == ' ')

/-- Whether a line holds nothing but white space. -/
def isBlank (line : String) : Bool := line.toList.all isSpace

/-- The indentation of a line. -/
def indentation (line : String) : Indentation :=
  if isBlank line then .blank else .spaces (leadingSpaces line)

/-- Whether the line is indented deeper than by the given number of spaces. -/
def isInside (dent : Nat) (line : String) : Bool := (indentation line).deeper (.spaces dent)

/-- Whether the first characters that are not spaces are the given marker. -/
def startsWith (marker : String) (line : String) : Bool :=
  marker.toList.isPrefixOf (unindented line)

/-- Whether the line is an annotation or a decorator. -/
def isMarked (line : String) : Bool := startsWith "@" line

/-- The line that closes a construct: `closer` behind `dent` spaces. -/
def closingLine (dent : Nat) (closer : String) : String :=
  String.ofList (List.replicate dent ' ' ++ closer.toList)

/-- Whether the line is exactly `dent` spaces and then `closer`. The lengths are compared first, so
that no indentation is built that is longer than the line. -/
def closes (line : String) (dent : Nat) (closer : String) : Bool :=
  let chars := line.toList
  chars.length == dent + closer.toList.length &&
    (chars.take dent).all (· == ' ') && chars.drop dent == closer.toList

theorem closes_iff {line closer : String} {dent : Nat} :
    closes line dent closer = true ↔ line = closingLine dent closer := by
  simp only [closes, closingLine, Bool.and_eq_true, beq_iff_eq, List.all_eq_true, String.ext_iff,
    String.toList_ofList]
  constructor
  · rintro ⟨⟨hl, h⟩, g⟩
    have ht : line.toList.take dent = List.replicate dent ' ' :=
      List.eq_replicate_iff.2 ⟨by rw [List.length_take]; omega, h⟩
    rw [← ht, ← g, List.take_append_drop]
  · intro h
    rw [h]
    refine ⟨⟨by simp, ?_⟩, List.drop_left' (by simp)⟩
    intro c hc
    rw [List.take_left' (by simp)] at hc
    exact (List.mem_replicate.1 hc).2

end HouseStyle.Text
