import HouseStyle.Declaration.CommentCase
import HouseStyle.Proofs.Text.Line
import HouseStyle.Proofs.Text.Lines
import HouseStyle.Proofs.Text.Runs
import HouseStyle.Proofs.Text.Word
import Mathlib

/-!
# Facts about capitalized comments

* `capitalizeAfter_eq_some`: a line whose comment gets a capital letter, and what it becomes.
* `clean_of_capitalizeAfter`, `capitalizeAfter_of_eq_some`: it can be cut from a text as before, and
  gets a capital letter once.
* `GetsCapital`, `getsCapital_iff`: a line and what becomes of it, whether its comment gets one or not.
* `RunsCapitalized`, `runsCapitalized_iff`: a list in which the first comment of each run gets one.
-/

namespace HouseStyle.Text

section Marker

variable {marker line line' : String}

theorem capitalizeAfter_eq_some (h : capitalizeAfter marker line = some line') :
    ∃ c rest, unindented line = marker.toList ++ c :: rest ∧ c.isLower = true ∧ '\n' ∉ rest ∧
      line' = String.ofList
        (List.replicate (leadingSpaces line) ' ' ++ (marker.toList ++ c.toUpper :: rest)) := by
  unfold capitalizeAfter at h
  split at h
  · next c rest hdrop =>
    split at h
    · next hc =>
      simp only [Bool.and_eq_true, Bool.not_eq_true'] at hc
      obtain ⟨⟨hstart, hlower⟩, hfeed⟩ := hc
      obtain ⟨tail, htail⟩ := List.isPrefixOf_iff_prefix.1 hstart
      have htail' : tail = c :: rest := by
        rw [← htail, ← String.length_toList, List.drop_left] at hdrop
        exact hdrop
      cases h
      refine ⟨c, rest, by rw [← htail, htail'], hlower, ?_, by rw [List.append_assoc]⟩
      rw [← List.contains_iff_mem, hfeed]
      exact Bool.false_ne_true
    · cases h
  · cases h

theorem clean_of_capitalizeAfter (hfeed : '\n' ∉ marker.toList)
    (h : capitalizeAfter marker line = some line') (hline : Clean line) : Clean line' := by
  obtain ⟨c, rest, htext, hlower, hrest, rfl⟩ := capitalizeAfter_eq_some h
  have hupper : isWord c.toUpper = true := by
    simp [isWord, Char.isAlphanum, Char.isAlpha, hlower]
  have hspace : isSpace c.toUpper = false := by
    refine Bool.eq_false_iff.2 fun hs => ?_
    exact Bool.false_ne_true ((isWord_of_isSpace hs).symm.trans hupper)
  have hlast := hline.last
  rw [toList_eq_indented, htext, List.getLast?_append, List.getLast?_append] at hlast
  refine ⟨?_, fun d hd => ?_⟩
  · simp only [String.toList_ofList, List.mem_append, List.mem_cons, not_or]
    refine ⟨fun hm => absurd (List.mem_replicate.1 hm).2 (by decide), hfeed, ?_, hrest⟩
    rintro he
    rw [← he] at hspace
    cases hspace
  · rw [String.toList_ofList, List.getLast?_append, List.getLast?_append] at hd
    cases rest with
    | nil =>
      obtain rfl : c.toUpper = d := Option.some.inj hd
      exact hspace
    | cons e rest => exact hlast d hd

variable {m : Char} (hm : marker.toList.head? = some m) (hspace : m ≠ ' ')

include hm hspace

theorem head?_marked_ne_space (text : List Char) : (marker.toList ++ text).head? ≠ some ' ' := by
  rw [List.head?_append, hm, Option.some_or]
  exact fun h => hspace (Option.some.inj h)

/-- A capitalized comment begins with its marker behind the same spaces. -/
theorem unindented_of_capitalizeAfter (h : capitalizeAfter marker line = some line') :
    ∃ c rest, unindented line = marker.toList ++ c :: rest ∧ c.isLower = true ∧
      unindented line' = marker.toList ++ c.toUpper :: rest ∧
      leadingSpaces line' = leadingSpaces line := by
  obtain ⟨c, rest, hline, hlower, -, rfl⟩ := capitalizeAfter_eq_some h
  have hne := head?_marked_ne_space hm hspace (c.toUpper :: rest)
  exact ⟨c, rest, hline, hlower, unindented_ofList hne, leadingSpaces_ofList hne⟩

theorem capitalizeAfter_of_eq_some (h : capitalizeAfter marker line = some line') :
    capitalizeAfter marker line' = none := by
  obtain ⟨c, rest, -, -, hline', -⟩ := unindented_of_capitalizeAfter hm hspace h
  rw [capitalizeAfter, hline', ← String.length_toList, List.drop_left]
  simp [Char.isLower_toUpper_eq_false]

end Marker

/-! ## Lines -/

/-- The line with a marker behind some spaces and a text behind the marker. -/
def markedLine (dent : Nat) (marker : String) (text : List Char) : String :=
  String.ofList (List.replicate dent ' ' ++ (marker.toList ++ text))

/-- Whether the second line is the first one with the letter right behind its spaces and the marker in
upper case, if that is a lower case ASCII letter.  A text with a line feed behind the letter is no line,
and stays. -/
inductive GetsCapital (marker : String) : String → String → Prop
  | letter (dent : Nat) {c : Char} {rest : List Char} (hc : c.isLower = true) (hn : '\n' ∉ rest) :
      GetsCapital marker (markedLine dent marker (c :: rest))
        (markedLine dent marker (c.toUpper :: rest))
  | other {line : String} (h : ∀ dent c rest, line = markedLine dent marker (c :: rest) →
      c.isLower = true → '\n' ∈ rest) : GetsCapital marker line line

section Marker

variable {marker : String} {m : Char} (hm : marker.toList.head? = some m) (hspace : m ≠ ' ')

include hm hspace

theorem capitalizeAfter_markedLine (dent : Nat) {c : Char} {rest : List Char}
    (hc : c.isLower = true) (hn : '\n' ∉ rest) :
    capitalizeAfter marker (markedLine dent marker (c :: rest)) =
      some (markedLine dent marker (c.toUpper :: rest)) := by
  have hne := head?_marked_ne_space hm hspace (c :: rest)
  have hstart : startsWith marker (markedLine dent marker (c :: rest)) = true := by
    rw [startsWith, markedLine, unindented_ofList hne]
    exact List.isPrefixOf_iff_prefix.2 (List.prefix_append _ _)
  rw [capitalizeAfter, hstart, markedLine, unindented_ofList hne, leadingSpaces_ofList hne,
    ← String.length_toList, List.drop_left, markedLine]
  simp [hc, hn]

theorem getsCapital_iff {line line' : String} :
    GetsCapital marker line line' ↔ line' = (capitalizeAfter marker line).getD line := by
  constructor
  · rintro (⟨dent, hc, hn⟩ | h)
    · rw [capitalizeAfter_markedLine hm hspace dent hc hn, Option.getD_some]
    · cases hcap : capitalizeAfter marker line with
      | none => rfl
      | some line' =>
        obtain ⟨c, rest, hline, hlower, hfeed, -⟩ := capitalizeAfter_eq_some hcap
        refine absurd (h (leadingSpaces line) c rest ?_ hlower) hfeed
        rw [markedLine, ← hline, ← toList_eq_indented, String.ofList_toList]
  · rintro rfl
    cases hcap : capitalizeAfter marker line with
    | none =>
      refine .other fun dent c rest hline hlower => ?_
      by_contra hfeed
      rw [hline, capitalizeAfter_markedLine hm hspace dent hlower hfeed] at hcap
      cases hcap
    | some line' =>
      obtain ⟨c, rest, hline, hlower, hfeed, rfl⟩ := capitalizeAfter_eq_some hcap
      have hmarked : line = markedLine (leadingSpaces line) marker (c :: rest) := by
        rw [markedLine, ← hline, ← toList_eq_indented, String.ofList_toList]
      have hletter : GetsCapital marker (markedLine (leadingSpaces line) marker (c :: rest))
          (markedLine (leadingSpaces line) marker (c.toUpper :: rest)) := .letter _ hlower hfeed
      rw [← hmarked] at hletter
      exact hletter

end Marker

/-! ## Runs -/

/-- Whether the second list is the first one with the first comment of each run changed as the relation
says, all runs where they were, and every element at its indentation. -/
structure RunsCapitalized {α : Type} (p : α → Bool) (dent : α → Indentation) (r : α → α → Prop)
    (xs ys : List α) : Prop extends HeadsChanged p r xs ys where
  runs_eq : runs p ys = runs p xs
  dents_eq : ys.map dent = xs.map dent

theorem runsCapitalized_iff {α : Type} {p : α → Bool} {dent : α → Indentation} {f : α → α}
    {r : α → α → Prop} (hp : ∀ x, p (f x) = p x) (hd : ∀ x, p x = true → dent (f x) = dent x)
    (hr : ∀ x y, p x = true → (r x y ↔ y = f x)) {xs ys : List α} :
    RunsCapitalized p dent r xs ys ↔ ys = mapRunHeads p f xs := by
  constructor
  · rintro ⟨h, -, -⟩
    exact (headsChanged_iff hr).1 h
  · intro h
    refine ⟨(headsChanged_iff hr).2 h, ?_, ?_⟩
    · rw [h, runs_mapRunHeads fun x hx => (hp x).trans hx]
    · rw [h, map_mapRunHeads hd]

end HouseStyle.Text
