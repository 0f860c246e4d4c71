import HouseStyle.Proofs.Machine.Line
import HouseStyle.Proofs.Text.Comment
import HouseStyle.Proofs.Text.Space

/-!
# The weight of lines

* `weight_ofText_le`: the lines of a text weigh no more than the text and one byte.
* `weight_map_le`, `weight_le_of_forall₂`: lines that are changed one by one.
* `size_capitalizeAfter`: a comment keeps its size when it is capitalized.
-/

namespace HouseStyle.Machine

open Text

variable {line line' marker : String} {lines ls ls' : List String} {k : Nat}

theorem weight_singleton : weight [line] = size line.toList + 1 := by simp

theorem weight_flatten (groups : List (List String)) :
    weight groups.flatten = (groups.map weight).sum := by
  induction groups with
  | nil => rfl
  | cons group groups ih => rw [List.flatten_cons, weight_append, ih, List.map_cons, List.sum_cons]

theorem weight_sublist (h : ls.Sublist ls') : weight ls ≤ weight ls' :=
  (h.map _).sum_le_sum fun _ _ => Nat.zero_le _

theorem weight_map_le {f : String → String}
    (h : ∀ l ∈ lines, size (f l).toList + 1 ≤ k * (size l.toList + 1)) :
    weight (lines.map f) ≤ k * weight lines := by
  induction lines with
  | nil => exact Nat.zero_le _
  | cons line lines ih =>
    obtain ⟨hline, hlines⟩ := List.forall_mem_cons.1 h
    have ih := ih hlines
    rw [List.map_cons, weight_cons, weight_cons, Nat.mul_add]
    omega

theorem weight_eq_of_forall₂
    (h : List.Forall₂ (fun l l' : String => size l'.toList = size l.toList) ls ls') :
    weight ls' = weight ls := by
  induction h with
  | nil => rfl
  | cons hl _ ih => rw [weight_cons, weight_cons, hl, ih]

/-! ## Reading -/

theorem size_trimEnd_le (text : List Char) : size (trimEnd text) ≤ size text := by
  obtain ⟨dropped, happend, -⟩ := exists_dropTrailing_append isSpace text
  conv_rhs => rw [← happend, size_append]
  exact Nat.le_add_right _ _

theorem size_trim_le (text : List Char) : size (trim text) ≤ size text := by
  have hdrop := congrArg size (List.takeWhile_append_dropWhile (p := isSpace) (l := text))
  have htrim := size_trimEnd_le (text.dropWhile isSpace)
  rw [size_append] at hdrop
  rw [trim]
  omega

theorem sum_size_splitLines_le (text : List Char) :
    ((splitLines text).map fun line => size line + 1).sum ≤ size text + 1 := by
  induction text with
  | nil => exact Nat.zero_le _
  | cons c cs ih =>
    have hc := c.utf8Size_pos
    rw [splitLines, size_cons]
    split
    · rw [List.map_cons, List.sum_cons, size_nil]
      omega
    · split
      · simp
      · next line lines hlines =>
        rw [hlines, List.map_cons, List.sum_cons] at ih
        rw [List.map_cons, List.sum_cons, size_cons]
        omega

theorem weight_ofText_le (source : String) : weight (ofText source) ≤ source.utf8ByteSize + 1 := by
  have hlines : ∀ pieces : List (List Char),
      weight (pieces.map fun line => String.ofList (trimEnd line)) ≤
        (pieces.map fun line => size line + 1).sum := by
    intro pieces
    induction pieces with
    | nil => exact Nat.le_refl 0
    | cons piece pieces ih =>
      have hpiece := size_trimEnd_le piece
      rw [List.map_cons, weight_cons, List.map_cons, List.sum_cons, String.toList_ofList]
      omega
  rw [← size_toList]
  exact Nat.le_trans (hlines _) (sum_size_splitLines_le source.toList)

/-! ## Comments -/

theorem utf8Size_toUpper {c : Char} (h : c.isLower = true) : c.toUpper.utf8Size = c.utf8Size := by
  simp only [Char.isLower, Bool.and_eq_true, decide_eq_true_eq, UInt32.le_iff_toNat_le, ge_iff_le] at h
  have hlow : 97 ≤ c.toNat ∧ c.toNat ≤ 122 := h
  have hall : ∀ n ∈ List.range' 97 26, (Char.ofNat n).toUpper.toNat ≤ 127 := by decide
  have hupper := hall c.toNat (List.mem_range'_1.2 ⟨hlow.1, by omega⟩)
  rw [Char.ofNat_toNat] at hupper
  rw [utf8Size_of_le hupper, utf8Size_of_le (by omega)]

theorem size_capitalizeAfter (h : capitalizeAfter marker line = some line') :
    size line'.toList = size line.toList := by
  obtain ⟨c, rest, hline, hlower, -, rfl⟩ := capitalizeAfter_eq_some h
  rw [size_line line, hline, String.toList_ofList]
  simp only [size_append, size_cons, size_replicate_space, utf8Size_toUpper hlower]

end HouseStyle.Machine
