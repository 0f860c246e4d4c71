/-!
# Orders on texts and names

Texts compare by the code points of their characters, lists by their first difference, as core
compares characters and lists. Names sort with the numbers inside them read as numbers: `item2`
before `item10`. A name is cut into the runs of ASCII digits and the possibly empty texts around
them. A run of digits is kept without its leading zeros and compared by length first, which orders
numbers of any size by value.

* `compareTexts`, `compareLines`: two texts, and two lists of lines.
* `sortTexts`, `sortGroups`: lists in increasing order.
* `naturalKey`: the parts of a name, text and number in turn, beginning and ending with a text.
* `compareKeys`: the comparison of two keys, part by part.
* `sortNames`: names in natural order.
-/

namespace HouseStyle.Text

/-! ## Texts -/

/-- Two texts by the code points of their characters. -/
def compareTexts (a b : String) : Ordering := a.toList.compareLex compare b.toList

/-- Two lists of lines. -/
def compareLines (a b : List String) : Ordering := a.compareLex compareTexts b

/-- Texts in increasing order. -/
def sortTexts (texts : List String) : List String :=
  texts.mergeSort fun a b => (compareTexts a b).isLE

/-- Lists of lines in increasing order. -/
def sortGroups (groups : List (List String)) : List (List String) :=
  groups.mergeSort fun a b => (compareLines a b).isLE

/-! ## Natural keys -/

/-- One part of a natural key. -/
inductive KeyPart where
  | text (text : List Char)
  /-- The digits of a number, without leading zeros unless it is zero. -/
  | number (digits : List Char)
  deriving DecidableEq, Repr

/-- The digits of a number without the zeros in front of it. -/
def significant (digits : List Char) : List Char :=
  match digits.dropWhile (· == '0') with
  | [] => ['0']
  | ds => ds

/-- The text up to the first digit, and the rest from that digit on. -/
def beforeDigit (name : List Char) : List Char × List Char :=
  (name.takeWhile (! ·.isDigit), name.dropWhile (! ·.isDigit))

/-- The parts of a name: a text, then a number and a text as often as there are runs of digits. -/
def keyParts (name : List Char) : List KeyPart :=
  match _h : (beforeDigit name).2 with
  | [] => [.text (beforeDigit name).1]
  | d :: ds =>
    .text (beforeDigit name).1 :: .number (significant (d :: ds.takeWhile Char.isDigit)) ::
      keyParts (ds.dropWhile Char.isDigit)
termination_by name.length
decreasing_by
  have h₁ : (d :: ds).length ≤ name.length := _h ▸ (List.dropWhile_sublist _).length_le
  have h₂ := (List.dropWhile_sublist (l := ds) Char.isDigit).length_le
  simp only [List.length_cons] at h₁
  omega

/-- The natural key of a name. -/
def naturalKey (name : String) : List KeyPart := keyParts name.toList

/-- Two runs of significant digits by the numbers they denote. -/
def compareDigits (a b : List Char) : Ordering :=
  (compare a.length b.length).then (a.compareLex compare b)

/-- Two parts; a text comes before a number. -/
def compareParts : KeyPart → KeyPart → Ordering
  | .text a, .text b => a.compareLex compare b
  | .text _, .number _ => .lt
  | .number _, .text _ => .gt
  | .number a, .number b => compareDigits a b

/-- Two natural keys by their first difference. -/
def compareKeys (a b : List KeyPart) : Ordering := a.compareLex compareParts b

/-- Names in natural order; names with equal keys keep their order. -/
def sortNames (names : List String) : List String :=
  names.mergeSort fun a b => (compareKeys (naturalKey a) (naturalKey b)).isLE

end HouseStyle.Text
