import HouseStyle.Proofs.Machine.Operations
import HouseStyle.Proofs.Text.Line
import HouseStyle.Text.Lines

/-!
# Lines in a machine

The indentation of a line is a word, and that of a blank line is the greatest word.  It is larger
than every number of spaces and no number of spaces itself: added to anything, used as a number of
repetitions or as the place of a cut, it stops the program.

* `Fits`: a line whose size is that of a text.
* `indentation?_eq`, `word_le_word`, `word_inj`: the indentation of a line, and the order of indentations.
* `closes?_eq`, `closingLine?_eq`: closing lines, read and written.
* `cut?_blankIndentation`: with the indentation of a blank line nothing is cut.
* `toText?_eq`: the text of some lines.
-/

namespace HouseStyle.Machine

open Text

variable {line closer : String} {lines : List String} {dent : Nat}

/-! ## Indentation -/

/-- The indentation of a blank line. -/
def blankIndentation : Nat := wordValues - 1

/-- The indentation of a line as a word. -/
def indentation? (line : String) : Option Nat :=
  if isBlank line then some blankIndentation
  else sub? (size line.toList) (size (unindented line))

/-- The word for an indentation. -/
def word : Indentation → Nat
  | .spaces count => count
  | .blank => blankIndentation

/-- Whether a line is as small as a text has to be. -/
def Fits (line : String) : Prop := size line.toList < sizeLimit

theorem size_line (line : String) :
    size line.toList = leadingSpaces line + size (unindented line) := by
  conv_lhs => rw [toList_eq_indented]
  rw [size_append, size_replicate_space]

theorem indentation?_eq (line : String) : indentation? line = some (word (indentation line)) := by
  rw [indentation?, indentation]
  split
  · rfl
  · rw [size_line, sub?_eq (Nat.le_add_left _ _), Nat.add_sub_cancel_right]
    rfl

theorem indentation?_of_not_isBlank (h : isBlank line = false) :
    indentation? line = some (leadingSpaces line) := by
  rw [indentation?_eq, indentation_of_not_isBlank h]
  rfl

theorem Fits.leadingSpaces_lt (h : Fits line) : leadingSpaces line < sizeLimit :=
  Nat.lt_of_le_of_lt (by rw [size_line]; exact Nat.le_add_right _ _) h

/-- Whether an indentation is that of some line of a text. -/
def Bounded : Indentation → Prop
  | .spaces count => count < sizeLimit
  | .blank => True

theorem Fits.bounded (h : Fits line) : Bounded (indentation line) := by
  unfold indentation
  split
  · trivial
  · exact h.leadingSpaces_lt

theorem word_le_word {a b : Indentation} (ha : Bounded a) (hb : Bounded b) :
    word a ≤ word b ↔ a.atMost b = true := by
  have hlimit : sizeLimit ≤ blankIndentation := by decide
  cases a with
  | blank =>
    cases b with
    | blank => simp [word, Indentation.atMost]
    | spaces n => simpa [word, Indentation.atMost] using Nat.lt_of_lt_of_le hb hlimit
  | spaces m =>
    cases b with
    | blank => simpa [word, Indentation.atMost] using Nat.le_of_lt (Nat.lt_of_lt_of_le ha hlimit)
    | spaces n => simp [word, Indentation.atMost]

theorem word_inj {a b : Indentation} (ha : Bounded a) (hb : Bounded b) :
    word a = word b ↔ a = b := by
  refine ⟨fun h => ?_, congrArg word⟩
  exact Indentation.eq_of_atMost ((word_le_word ha hb).1 (Nat.le_of_eq h))
    ((word_le_word hb ha).1 (Nat.le_of_eq h.symm))

theorem word_le_iff (h : Fits line) (hdent : dent < sizeLimit) :
    word (indentation line) ≤ dent ↔ (indentation line).atMost (.spaces dent) = true :=
  word_le_word (b := .spaces dent) h.bounded hdent

theorem lt_word_iff (h : Fits line) (hdent : dent < sizeLimit) :
    dent < word (indentation line) ↔ isInside dent line = true := by
  rw [← Nat.not_le, word_le_iff h hdent, isInside, Indentation.deeper, Bool.not_eq_true,
    Bool.not_eq_true']

theorem cut?_indentation : cut? line.toList (leadingSpaces line) =
    some (List.replicate (leadingSpaces line) ' ', unindented line) := by
  conv_lhs =>
    rw [toList_eq_indented]
    arg 2
    rw [← size_replicate_space (leadingSpaces line)]
  rw [cut?_append]

theorem cut?_blankIndentation (h : Fits line) : cut? line.toList blankIndentation = none := by
  rw [Option.eq_none_iff_forall_ne_some]
  rintro ⟨front, back⟩ hcut
  obtain ⟨htext, hsize⟩ := cut?_eq_some_iff.1 hcut
  have hle := congrArg size htext
  unfold Fits sizeLimit at h
  unfold blankIndentation wordValues at hsize
  rw [size_append] at hle
  omega

/-! ## Closing lines -/

/-- Whether a line is `dent` spaces and then `closer`. -/
def closes? (line : String) (dent : Nat) (closer : String) : Option Bool := do
  let total ← word? (dent + size closer.toList)
  if size line.toList = total ∧ closer.toList.isSuffixOf line.toList = true then
    let cut ← cut? line.toList dent
    return (bytes cut.1).all (· == byte ' ')
  else return false

/-- The line of `dent` spaces and `closer`. -/
def closingLine? (dent : Nat) (closer : String) : Option String := do
  let spaces ← repeat? ' ' dent
  return String.ofList (spaces ++ closer.toList)

theorem all_bytes_eq_space {text : List Char} :
    (bytes text).all (· == byte ' ') = text.all (· == ' ') := by
  induction text with
  | nil => rfl
  | cons c text ih =>
    rw [bytes_cons, List.all_append, ih, List.all_cons]
    congr 1
    by_cases hc : c.toNat ≤ 127
    · rw [utf8EncodeChar_of_le hc, List.all_cons, List.all_nil, Bool.and_true, Bool.eq_iff_iff,
        beq_iff_eq, beq_iff_eq, byte_inj hc (by decide)]
    · have hlarge := Nat.not_le.1 hc
      have hne : (c == ' ') = false := beq_false_of_ne fun he => hc (by rw [he]; decide)
      rw [hne, List.all_eq_false]
      obtain ⟨b, hb⟩ := List.exists_mem_of_length_pos
        (Nat.lt_of_lt_of_eq c.utf8Size_pos (String.length_utf8EncodeChar c).symm)
      have hbyte := le_of_mem_utf8EncodeChar hlarge hb
      refine ⟨b, hb, fun he => ?_⟩
      rw [eq_of_beq he] at hbyte
      exact absurd hbyte (by decide)

/-- A line that ends with the closer and has the right size can be cut in front of it. -/
theorem closes?_eq (hdent : dent < sizeLimit) (hcloser : size closer.toList ≤ 2) :
    closes? line dent closer = some (closes line dent closer) := by
  have hword : dent + size closer.toList < wordValues := by
    unfold sizeLimit at hdent
    unfold wordValues
    omega
  rw [closes?, word?_eq hword, Option.bind_eq_bind, Option.bind_some]
  split
  · next hends =>
    obtain ⟨hsize, hsuffix⟩ := hends
    obtain ⟨front, hfront⟩ := List.isSuffixOf_iff_suffix.1 hsuffix
    have hdent : dent = size front := by
      rw [← hfront, size_append] at hsize
      omega
    rw [← hfront, hdent, cut?_append, Option.bind_eq_bind, Option.bind_some, all_bytes_eq_space,
      Option.pure_def, Option.some_inj, Bool.eq_iff_iff, closes_iff, closingLine,
      ← String.toList_inj, String.toList_ofList, ← hfront, List.append_cancel_right_eq]
    constructor
    · intro hspaces
      have hfront' : front = List.replicate front.length ' ' := by
        refine List.eq_replicate_iff.2 ⟨rfl, fun c hc => ?_⟩
        exact eq_of_beq (List.all_eq_true.1 hspaces c hc)
      conv_rhs => rw [hfront', size_replicate_space]
      exact hfront'
    · intro hfront'
      rw [hfront', List.all_eq_true]
      exact fun c hc => beq_iff_eq.2 (List.mem_replicate.1 hc).2
  · next hends =>
    rw [Option.pure_def, Option.some_inj, eq_comm, Bool.eq_false_iff, ne_eq, closes_iff]
    rintro rfl
    refine hends ⟨?_, ?_⟩
    · rw [closingLine, String.toList_ofList, size_append, size_replicate_space]
    · rw [closingLine, String.toList_ofList]
      exact List.isSuffixOf_iff_suffix.2 (List.suffix_append _ _)

theorem closingLine?_eq (h : dent < sizeLimit) :
    closingLine? dent closer = some (closingLine dent closer) := by
  rw [closingLine?, repeat?_eq h]
  rfl

/-! ## Texts -/

/-- The number of bytes of some lines, a line feed after each. -/
def weight (lines : List String) : Nat := (lines.map fun line => size line.toList + 1).sum

/-- A number of bytes and that of one more line. -/
def addSize? (total : Nat) (line : String) : Option Nat := do
  let written ← word? (size line.toList + 1)
  word? (total + written)

/-- The text of some lines. The size is summed up before anything is written. -/
def toText? (lines : List String) : Option String := do
  let total ← lines.foldlM addSize? 0
  let _ ← reserve? total
  return toText lines

@[simp] theorem weight_nil : weight [] = 0 := rfl

@[simp] theorem weight_cons :
    weight (line :: lines) = size line.toList + 1 + weight lines := List.sum_cons

@[simp] theorem weight_append (a b : List String) : weight (a ++ b) = weight a + weight b := by
  rw [weight, List.map_append, List.sum_append, weight, weight]

theorem weight_perm {a b : List String} (h : a.Perm b) : weight a = weight b :=
  (h.map _).sum_eq

theorem length_le_weight : lines.length ≤ weight lines := by
  induction lines with
  | nil => exact Nat.le_refl 0
  | cons line lines ih =>
    rw [List.length_cons, weight_cons]
    omega

theorem size_lt_weight (h : line ∈ lines) : size line.toList < weight lines := by
  obtain ⟨a, b, rfl⟩ := List.append_of_mem h
  rw [weight_append, weight_cons]
  omega

theorem fits_of_weight_lt (h : weight lines < sizeLimit) : ∀ l ∈ lines, Fits l :=
  fun _ hl => Nat.lt_trans (size_lt_weight hl) h

theorem foldlM_addSize?_eq {total : Nat} (h : total + weight lines < wordValues) :
    lines.foldlM addSize? total = some (total + weight lines) := by
  induction lines generalizing total with
  | nil => rfl
  | cons line lines ih =>
    rw [weight_cons] at h
    have hline : addSize? total line = some (total + (size line.toList + 1)) := by
      rw [addSize?, word?_eq (by omega), Option.bind_eq_bind, Option.bind_some, word?_eq (by omega)]
    rw [List.foldlM_cons, hline, Option.bind_eq_bind, Option.bind_some, ih (by omega), weight_cons,
      Nat.add_assoc]

theorem toText?_eq (h : weight lines < sizeLimit) : toText? lines = some (toText lines) := by
  have hword : 0 + weight lines < wordValues := by
    rw [Nat.zero_add]
    exact Nat.lt_trans h (by decide)
  rw [toText?, foldlM_addSize?_eq hword, Option.bind_eq_bind, Option.bind_some, Nat.zero_add,
    reserve?_eq h]
  rfl

end HouseStyle.Machine
