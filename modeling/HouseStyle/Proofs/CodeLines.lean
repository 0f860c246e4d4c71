import HouseStyle.Declaration.Parser

/-!
# Lines of code

The lines that are not blank, and how they tell two ends of one text apart.

* `codeLines_append`, `codeLines_eq_self`: the lines of code of parts, and of a text without blank
  lines.
* `dropWhile_isBlank_eq_of_suffix`: two ends of a text with the same lines of code are the same but
  for the blank lines at their start.
-/

namespace HouseStyle

open Text

@[simp] theorem codeLines_append (a b : List String) :
    codeLines (a ++ b) = codeLines a ++ codeLines b := List.filter_append ..

@[simp] theorem codeLines_nil : codeLines [] = [] := rfl

theorem codeLines_cons_of_not_isBlank {line : String} {lines : List String}
    (h : isBlank line = false) : codeLines (line :: lines) = line :: codeLines lines := by
  rw [codeLines, List.filter_cons_of_pos (by simp [h]), codeLines]

theorem codeLines_cons_of_isBlank {line : String} {lines : List String}
    (h : isBlank line = true) : codeLines (line :: lines) = codeLines lines := by
  rw [codeLines, List.filter_cons_of_neg (by simp [h]), codeLines]

theorem codeLines_eq_self {lines : List String} (h : ∀ l ∈ lines, isBlank l = false) :
    codeLines lines = lines := by
  rw [codeLines, List.filter_eq_self]
  intro l hl
  rw [h l hl]
  rfl

theorem codeLines_eq_nil_iff {lines : List String} :
    codeLines lines = [] ↔ ∀ l ∈ lines, isBlank l = true := by
  simp [codeLines]

theorem isBlank_of_mem_codeLines {lines : List String} {line : String}
    (h : line ∈ codeLines lines) : isBlank line = false := by
  simpa using (List.mem_filter.1 h).2

/-! ## Ends of a text -/

theorem dropWhile_isBlank_append {a b : List String} (h : ∀ l ∈ a, isBlank l = true) :
    (a ++ b).dropWhile isBlank = b.dropWhile isBlank :=
  List.dropWhile_append_of_pos h

theorem codeLines_dropWhile_isBlank (lines : List String) :
    codeLines (lines.dropWhile isBlank) = codeLines lines := by
  have hblank : codeLines (lines.takeWhile isBlank) = [] :=
    codeLines_eq_nil_iff.2 fun l hl => List.all_eq_true.1 List.all_takeWhile l hl
  calc codeLines (lines.dropWhile isBlank)
      = codeLines (lines.takeWhile isBlank ++ lines.dropWhile isBlank) := by
        rw [codeLines_append, hblank, List.nil_append]
    _ = codeLines lines := by rw [List.takeWhile_append_dropWhile]

/-- An end of a text has no more lines of code than the text, and if it has as many, then only blank
lines stand in front of it. -/
theorem dropWhile_isBlank_eq_of_suffix_of_suffix {a b : List String} (hab : a <:+ b)
    (h : codeLines a = codeLines b) : a.dropWhile isBlank = b.dropWhile isBlank := by
  obtain ⟨front, rfl⟩ := hab
  have hfront : codeLines front = [] := by
    rw [codeLines_append] at h
    exact List.self_eq_append_left.1 h
  exact (dropWhile_isBlank_append (codeLines_eq_nil_iff.1 hfront)).symm

theorem dropWhile_isBlank_eq_of_suffix {a b lines : List String} (ha : a <:+ lines)
    (hb : b <:+ lines) (h : codeLines a = codeLines b) :
    a.dropWhile isBlank = b.dropWhile isBlank := by
  rcases List.suffix_or_suffix_of_suffix ha hb with hab | hba
  · exact dropWhile_isBlank_eq_of_suffix_of_suffix hab h
  · exact (dropWhile_isBlank_eq_of_suffix_of_suffix hba h.symm).symm

end HouseStyle
