import HouseStyle.Text.Line
import Mathlib.Data.List.TakeWhile

/-!
# Facts about trimming

* `exists_dropTrailing_append`: what is dropped at the end of a list.
* `dropTrailing_dropTrailing`: nothing is left to drop afterwards.
* `trim_append_trim`: a trimmed text with white space around it is trimmed back.
-/

namespace HouseStyle.Text

variable {α : Type} {p : α → Bool}

theorem exists_dropTrailing_append (p : α → Bool) (xs : List α) :
    ∃ dropped, dropTrailing p xs ++ dropped = xs ∧ ∀ x ∈ dropped, p x = true := by
  induction xs with
  | nil => exact ⟨[], rfl, fun x hx => nomatch hx⟩
  | cons x xs ih =>
    obtain ⟨dropped, happ, hall⟩ := ih
    unfold dropTrailing
    split
    · next hnil =>
      rw [hnil, List.nil_append] at happ
      subst happ
      split
      · next hx => exact ⟨x :: dropped, rfl, List.forall_mem_cons.2 ⟨hx, hall⟩⟩
      · exact ⟨dropped, rfl, hall⟩
    · exact ⟨dropped, by rw [List.cons_append, happ], hall⟩

theorem dropTrailing_eq_nil {xs : List α} (h : ∀ x ∈ xs, p x = true) : dropTrailing p xs = [] := by
  induction xs with
  | nil => rfl
  | cons x xs ih =>
    obtain ⟨hx, hxs⟩ := List.forall_mem_cons.1 h
    rw [dropTrailing, ih hxs]
    exact if_pos hx

theorem dropTrailing_append_of_all {xs ys : List α} (h : ∀ y ∈ ys, p y = true) :
    dropTrailing p (xs ++ ys) = dropTrailing p xs := by
  induction xs with
  | nil => exact dropTrailing_eq_nil h
  | cons x xs ih => rw [List.cons_append, dropTrailing, dropTrailing, ih]

theorem dropTrailing_dropTrailing (p : α → Bool) (xs : List α) :
    dropTrailing p (dropTrailing p xs) = dropTrailing p xs := by
  obtain ⟨dropped, happ, hall⟩ := exists_dropTrailing_append p xs
  calc dropTrailing p (dropTrailing p xs)
      = dropTrailing p (dropTrailing p xs ++ dropped) := (dropTrailing_append_of_all hall).symm
    _ = dropTrailing p xs := by rw [happ]

theorem dropTrailing_eq_self {xs : List α} (h : ∀ x ∈ xs.getLast?, p x = false) :
    dropTrailing p xs = xs := by
  induction xs with
  | nil => rfl
  | cons x xs ih =>
    cases xs with
    | nil => simp [dropTrailing, h x rfl]
    | cons y ys =>
      rw [dropTrailing, ih (by rwa [List.getLast?_cons_cons] at h)]

theorem getLast?_dropTrailing {xs : List α} {x : α} (h : (dropTrailing p xs).getLast? = some x) :
    p x = false := by
  induction xs with
  | nil => cases h
  | cons y ys ih =>
    unfold dropTrailing at h
    split at h
    · split at h
      · cases h
      · next hy =>
        obtain rfl : y = x := Option.some.inj h
        exact Bool.eq_false_iff.2 hy
    · next hys =>
      cases hd : dropTrailing p ys with
      | nil => exact absurd hd hys
      | cons z zs =>
        rw [hd, List.getLast?_cons_cons, ← hd] at h
        exact ih h

/-! ## White space on both sides -/

section Trim

variable {text front back : List Char}

theorem trim_subset (text : List Char) : trim text ⊆ text := by
  obtain ⟨dropped, happ, -⟩ := exists_dropTrailing_append isSpace (text.dropWhile isSpace)
  exact fun c hc => (List.dropWhile_sublist _).subset (happ ▸ List.mem_append_left dropped hc)

/-- A trimmed text is empty or begins with a character that is not white space. -/
theorem dropWhile_trim_append (h : trim text ≠ []) (rest : List Char) :
    (trim text ++ rest).dropWhile isSpace = trim text ++ rest := by
  obtain ⟨dropped, happ, -⟩ := exists_dropTrailing_append isSpace (text.dropWhile isSpace)
  obtain ⟨c, cs, hcs⟩ := List.exists_cons_of_ne_nil h
  have hhead := List.head?_dropWhile_not isSpace text
  rw [← happ, ← trimEnd, ← trim, hcs] at hhead
  rw [hcs, List.cons_append, List.dropWhile_cons_of_neg]
  simpa using hhead

theorem trim_append_trim (hf : ∀ c ∈ front, isSpace c = true) (hb : ∀ c ∈ back, isSpace c = true) :
    trim (front ++ (trim text ++ back)) = trim text := by
  rw [trim, List.dropWhile_append_of_pos hf]
  by_cases h : trim text = []
  · rw [h, List.nil_append, List.dropWhile_eq_nil_iff.2 hb]
    rfl
  · rw [dropWhile_trim_append h, trimEnd, dropTrailing_append_of_all hb, trim, trimEnd,
      dropTrailing_dropTrailing]

end Trim

end HouseStyle.Text
