import HouseStyle.Text.Line
import HouseStyle.Text.Word

/-!
# Facts about words

* `isWord_of_isSpace`: white space is not part of words.
* `words_indented`, `words_cons`: the words of a text behind spaces, and behind another word.
* `words_append_cons`: the words of two texts with a character between them that is part of no word.
* `isWord_of_wordAfter`, `isWord_of_wordBefore`: the words that are found are made of word characters.
-/

namespace HouseStyle.Text

/-- The code points of white space. -/
def spaceCodes : List Nat :=
  List.range' 0x09 5 ++ List.range' 0x2000 11 ++
    [0x20, 0x85, 0xa0, 0x1680, 0x2028, 0x2029, 0x202f, 0x205f, 0x3000]

theorem toNat_mem_spaceCodes {c : Char} (h : isSpace c = true) : c.toNat ∈ spaceCodes := by
  simp only [isSpace, Bool.or_eq_true, Bool.and_eq_true, decide_eq_true_eq, beq_iff_eq] at h
  simp only [spaceCodes, List.mem_append, List.mem_range'_1, List.mem_cons, List.not_mem_nil,
    or_false]
  omega

theorem isWord_of_isSpace {c : Char} (h : isSpace c = true) : isWord c = false := by
  have hall : ∀ n ∈ spaceCodes, isWord (Char.ofNat n) = false := by decide +kernel
  have hc := hall c.toNat (toNat_mem_spaceCodes h)
  rwa [Char.ofNat_toNat] at hc

theorem words_indented (n : Nat) (text : List Char) :
    words (List.replicate n ' ' ++ text) = words text := by
  induction n with
  | zero => rfl
  | succ n ih => exact ih

theorem wordsFrom_inside {word : List Char} (hw : ∀ c ∈ word, isWord c = true) (text : List Char) :
    wordsFrom true (word ++ ' ' :: text) = words text := by
  induction word with
  | nil => rfl
  | cons c cs ih =>
    obtain ⟨hc, hcs⟩ := List.forall_mem_cons.1 hw
    rw [List.cons_append, wordsFrom, hc]
    exact ih hcs

theorem words_cons {word : List Char} (hne : word ≠ []) (hw : ∀ c ∈ word, isWord c = true)
    (text : List Char) : words (word ++ ' ' :: text) = ⟨word, ' ' :: text⟩ :: words text := by
  cases word with
  | nil => exact absurd rfl hne
  | cons c cs =>
    obtain ⟨hc, hcs⟩ := List.forall_mem_cons.1 hw
    have htake : (c :: cs ++ ' ' :: text).takeWhile isWord = c :: cs := by
      rw [List.takeWhile_append_of_pos hw]
      simp [show isWord ' ' = false from rfl]
    have hdrop : (c :: cs ++ ' ' :: text).dropWhile isWord = ' ' :: text := by
      rw [List.dropWhile_append_of_pos hw]
      rfl
    rw [List.cons_append] at htake hdrop
    rw [words, List.cons_append, wordsFrom, htake, hdrop, hc, wordsFrom_inside hcs]
    rfl

/-! ## Words on both sides of a character -/

section Stop

variable {α : Type} {p : α → Bool} {q : α}

theorem takeWhile_append_cons (a : List α) (hq : p q = false) (b : List α) :
    (a ++ q :: b).takeWhile p = a.takeWhile p := by
  induction a with
  | nil => simp [hq]
  | cons c a ih => cases hc : p c <;> simp [hc, ih]

theorem dropWhile_append_cons (a : List α) (hq : p q = false) (b : List α) :
    (a ++ q :: b).dropWhile p = a.dropWhile p ++ q :: b := by
  induction a with
  | nil => simp [hq]
  | cons c a ih => cases hc : p c <;> simp [hc, ih]

end Stop

section

variable {q : Char} (hq : isWord q = false) (a b : List Char)

include hq

theorem wordsFrom_append_cons (inside : Bool) :
    wordsFrom inside (a ++ q :: b) =
      (wordsFrom inside a).map (fun w => ⟨w.text, w.rest ++ q :: b⟩) ++ words b := by
  induction a generalizing inside with
  | nil =>
    have hb : wordsFrom inside (q :: b) = words b := by
      rw [wordsFrom, hq]
      rfl
    rw [List.nil_append, hb]
    rfl
  | cons c a ih =>
    have htake := takeWhile_append_cons (c :: a) hq b
    have hdrop := dropWhile_append_cons (c :: a) hq b
    rw [List.cons_append] at htake hdrop
    rw [List.cons_append, wordsFrom, wordsFrom, htake, hdrop]
    split
    · rw [List.map_cons, List.cons_append, ih]
    · exact ih _

theorem words_append_cons :
    words (a ++ q :: b) = (words a).map (fun w => ⟨w.text, w.rest ++ q :: b⟩) ++ words b :=
  wordsFrom_append_cons hq a b false

theorem leadingWord?_append_cons : leadingWord? (a ++ q :: b) = leadingWord? a := by
  rw [leadingWord?, leadingWord?, takeWhile_append_cons a hq]

/-- What a word introduces is on its side of the character. -/
theorem argument?_append_cons (hspace : q ≠ ' ') (keyword : List Char) (w : Word) :
    Word.argument? keyword ⟨w.text, w.rest ++ q :: b⟩ = w.argument? keyword := by
  obtain ⟨text, rest⟩ := w
  cases rest with
  | nil =>
    rw [Word.argument?, Word.argument?]
    split
    · next heq => exact absurd (List.cons.inj heq).1 hspace
    · rfl
  | cons c rest =>
    by_cases hc : c = ' '
    · subst hc
      simp only [Word.argument?, List.cons_append, leadingWord?_append_cons hq rest b]
    · simp [Word.argument?, hc]

theorem hasWord_append_cons (keyword : String) :
    hasWord keyword (a ++ q :: b) = (hasWord keyword a || hasWord keyword b) := by
  rw [hasWord, words_append_cons hq, List.any_append, List.any_map]
  rfl

theorem wordBefore_append_cons {follows : List Char → Bool}
    (hf : ∀ rest, follows (rest ++ q :: b) = follows rest) :
    wordBefore follows (a ++ q :: b) = (wordBefore follows a).or (wordBefore follows b) := by
  have hcomp : ((fun w : Word => follows w.rest) ∘ fun w : Word => ⟨w.text, w.rest ++ q :: b⟩) =
      fun w => follows w.rest := funext fun w => hf w.rest
  rw [wordBefore, words_append_cons hq, List.find?_append, List.find?_map, hcomp, wordBefore,
    wordBefore]
  cases (words a).find? fun w => follows w.rest <;> rfl

end

theorem isPrefixOf_append_cons {q : Char} {pattern : List Char} (hq : q ∉ pattern)
    (rest b : List Char) : pattern.isPrefixOf (rest ++ q :: b) = pattern.isPrefixOf rest := by
  induction pattern generalizing rest with
  | nil => rw [List.isPrefixOf_nil_left, List.isPrefixOf_nil_left]
  | cons c pattern ih =>
    rw [List.mem_cons, not_or] at hq
    cases rest with
    | nil => simp [List.isPrefixOf, Ne.symm hq.1]
    | cons d rest => rw [List.cons_append, List.isPrefixOf, List.isPrefixOf, ih hq.2]

/-! ## Word characters -/

theorem isWord_of_mem_wordsFrom {w : Word} {text : List Char} {inside : Bool}
    (h : w ∈ wordsFrom inside text) : ∀ c ∈ w.text, isWord c = true := by
  induction text generalizing inside with
  | nil => cases h
  | cons c cs ih =>
    rw [wordsFrom] at h
    split at h
    · rcases List.mem_cons.1 h with rfl | h
      · exact List.all_eq_true.1 List.all_takeWhile
      · exact ih h
    · exact ih h

theorem isWord_of_leadingWord? {text word : List Char} (h : leadingWord? text = some word) :
    ∀ c ∈ word, isWord c = true := by
  rw [leadingWord?] at h
  split at h
  · cases h
  · cases h
    exact List.all_eq_true.1 List.all_takeWhile

theorem isWord_of_wordAfter {keyword : String} {text word : List Char}
    (h : wordAfter keyword text = some word) : ∀ c ∈ word, isWord c = true := by
  obtain ⟨w, -, hw⟩ := List.exists_of_findSome?_eq_some h
  unfold Word.argument? at hw
  split at hw
  · split at hw
    · exact isWord_of_leadingWord? hw
    · cases hw
  · cases hw

theorem isWord_of_wordBefore {follows : List Char → Bool} {text word : List Char}
    (h : wordBefore follows text = some word) : ∀ c ∈ word, isWord c = true := by
  obtain ⟨w, hw, rfl⟩ := Option.map_eq_some_iff.1 h
  exact isWord_of_mem_wordsFrom (List.mem_of_find?_eq_some hw)

end HouseStyle.Text
