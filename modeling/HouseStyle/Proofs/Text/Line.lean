import HouseStyle.Text.Line

/-!
# Facts about lines

What a line begins with decides most of what the readers ask about it.  The facts below say which
answers exclude each other: a closing line is not blank, a blank line is neither a comment nor an
annotation, and so on.

* `toList_eq_indented`: a line is its leading spaces and the rest.
* `isInside_iff`, `isInside_of_indentation`: the depth of a line that is not blank as a number.
* `leadingSpaces_closingLine`: where a closing line stands.
-/

namespace HouseStyle.Text

theorem toList_eq_indented (line : String) :
    line.toList = List.replicate (leadingSpaces line) ' ' ++ unindented line := by
  have h : line.toList.takeWhile (· == ' ') = List.replicate (leadingSpaces line) ' ' := by
    refine List.eq_replicate_iff.2 ⟨rfl, fun c hc => ?_⟩
    have hall : (line.toList.takeWhile (· == ' ')).all (· == ' ') = true := List.all_takeWhile
    exact eq_of_beq (List.all_eq_true.1 hall c hc)
  rw [← h, unindented, List.takeWhile_append_dropWhile]

theorem leadingSpaces_ofList {n : Nat} {text : List Char} (h : text.head? ≠ some ' ') :
    leadingSpaces (String.ofList (List.replicate n ' ' ++ text)) = n := by
  have ht : text.takeWhile (· == ' ') = [] := by
    cases text with
    | nil => rfl
    | cons c cs =>
      have hc : c ≠ ' ' := fun he => h (by rw [he]; rfl)
      rw [List.takeWhile_cons_of_neg (by simpa using hc)]
  rw [leadingSpaces, String.toList_ofList, List.takeWhile_append_of_pos (by simp), ht]
  simp

theorem unindented_ofList {n : Nat} {text : List Char} (h : text.head? ≠ some ' ') :
    unindented (String.ofList (List.replicate n ' ' ++ text)) = text := by
  rw [unindented, String.toList_ofList, List.dropWhile_append_of_pos (by simp)]
  cases text with
  | nil => rfl
  | cons c cs =>
    have hc : c ≠ ' ' := fun he => h (by rw [he]; rfl)
    exact List.dropWhile_cons_of_neg (by simpa using hc)

theorem Indentation.eq_of_atMost {a b : Indentation} (hab : a.atMost b = true)
    (hba : b.atMost a = true) : a = b := by
  cases a with
  | blank =>
    cases b with
    | blank => rfl
    | spaces n => cases hab
  | spaces m =>
    cases b with
    | blank => cases hba
    | spaces n =>
      have hmn : m ≤ n := of_decide_eq_true hab
      have hnm : n ≤ m := of_decide_eq_true hba
      congr
      omega

/-! ## Blank lines -/

@[simp] theorem isSpace_space : isSpace ' ' = true := rfl

theorem isBlank_eq_all_unindented (line : String) :
    isBlank line = (unindented line).all isSpace := by
  rw [isBlank, toList_eq_indented, List.all_append]
  simp

theorem isBlank_eq_false_of_head {line : String} {c : Char} (h : (unindented line).head? = some c)
    (hc : isSpace c = false) : isBlank line = false := by
  rw [isBlank_eq_all_unindented]
  cases hu : unindented line with
  | nil => rw [hu] at h; cases h
  | cons d cs =>
    rw [hu] at h
    obtain rfl : d = c := Option.some.inj h
    simp [hc]

@[simp] theorem isBlank_empty : isBlank "" = true := rfl

theorem indentation_of_not_isBlank {line : String} (h : isBlank line = false) :
    indentation line = .spaces (leadingSpaces line) := by
  rw [indentation, h]
  rfl

theorem isInside_iff {dent : Nat} {line : String} (h : isBlank line = false) :
    isInside dent line = true ↔ dent < leadingSpaces line := by
  rw [isInside, indentation_of_not_isBlank h]
  simp [Indentation.deeper, Indentation.atMost]

theorem leadingSpaces_of_indentation {line : String} {n : Nat} (h : indentation line = .spaces n) :
    leadingSpaces line = n := by
  unfold indentation at h
  split at h
  · cases h
  · exact Indentation.spaces.inj h

theorem isInside_of_indentation {line : String} {n dent : Nat} (h : indentation line = .spaces n) :
    isInside dent line = decide (dent < n) := by
  rw [isInside, h, Bool.eq_iff_iff]
  simp [Indentation.deeper, Indentation.atMost]

/-! ## Marked lines -/

theorem head?_of_startsWith {marker : String} {c : Char} {line : String}
    (hm : marker.toList.head? = some c) (h : startsWith marker line = true) :
    (unindented line).head? = some c := by
  obtain ⟨rest, hr⟩ := List.isPrefixOf_iff_prefix.1 h
  rw [← hr, List.head?_append, hm]
  rfl

theorem isBlank_of_startsWith {marker : String} {c : Char} {line : String}
    (hm : marker.toList.head? = some c) (hc : isSpace c = false)
    (h : startsWith marker line = true) : isBlank line = false :=
  isBlank_eq_false_of_head (head?_of_startsWith hm h) hc

theorem isBlank_of_isMarked {line : String} (h : isMarked line = true) : isBlank line = false :=
  isBlank_of_startsWith (c := '@') rfl rfl h

/-- No line begins with two different characters. -/
theorem startsWith_eq_false_of_head {marker : String} {c d : Char} {line : String}
    (hm : marker.toList.head? = some c) (h : (unindented line).head? = some d) (hcd : c ≠ d) :
    startsWith marker line = false := by
  cases hs : startsWith marker line with
  | false => rfl
  | true =>
    rw [head?_of_startsWith hm hs] at h
    exact absurd (Option.some.inj h) hcd

/-! ## Closing lines -/

section Closing

variable {closer : String} (hc : closer.toList.head? = some '\x7d') (dent : Nat)

include hc

theorem head?_closer_ne_space : closer.toList.head? ≠ some ' ' := by
  rw [hc]
  decide

theorem unindented_closingLine : unindented (closingLine dent closer) = closer.toList :=
  unindented_ofList (head?_closer_ne_space hc)

theorem leadingSpaces_closingLine : leadingSpaces (closingLine dent closer) = dent :=
  leadingSpaces_ofList (head?_closer_ne_space hc)

theorem isBlank_closingLine : isBlank (closingLine dent closer) = false :=
  isBlank_eq_false_of_head (by rw [unindented_closingLine hc, hc]) rfl

end Closing

end HouseStyle.Text
