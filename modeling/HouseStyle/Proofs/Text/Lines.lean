import HouseStyle.Proofs.Text.Space
import HouseStyle.Text.Lines

/-!
# Lines of a text and back

A text is cut into clean lines, and clean lines are read back from the text that is written of them.
What is written of them is a normalized text: cutting it and writing it again changes nothing.

* `Clean`: a line that a text can be cut into.
* `clean_of_mem_ofText`: the lines of a text are clean.
* `ofText_toText`: clean lines are read back from their text.
* `Normalized`, `toText_ofText_iff`: a text that is written back as it was.
-/

namespace HouseStyle.Text

/-- Whether a line holds no line feed and ends with no white space. -/
structure Clean (line : String) : Prop where
  feed : '\n' ∉ line.toList
  last : ∀ c ∈ line.toList.getLast?, isSpace c = false

theorem clean_empty : Clean "" := ⟨by simp, fun _ h => nomatch h⟩

theorem not_mem_of_mem_splitLines {text line : List Char} (h : line ∈ splitLines text) :
    '\n' ∉ line := by
  induction text generalizing line with
  | nil => cases h
  | cons c cs ih =>
    unfold splitLines at h
    split at h
    · rcases List.mem_cons.1 h with rfl | h
      · simp
      · exact ih h
    · next hc =>
      have hc' : '\n' ≠ c := fun he => hc he.symm
      split at h
      · rw [List.mem_singleton.1 h]
        simpa using hc'
      · next l ls hs =>
        rcases List.mem_cons.1 h with rfl | h
        · rw [List.mem_cons, not_or]
          exact ⟨hc', ih (hs ▸ List.mem_cons_self)⟩
        · exact ih (hs ▸ List.mem_cons_of_mem l h)

theorem clean_of_mem_ofText {text line : String} (h : line ∈ ofText text) : Clean line := by
  obtain ⟨chars, hchars, rfl⟩ := List.mem_map.1 h
  obtain ⟨dropped, happ, -⟩ := exists_dropTrailing_append isSpace chars
  refine ⟨fun hn => ?_, fun c hc => ?_⟩
  · rw [String.toList_ofList] at hn
    refine not_mem_of_mem_splitLines hchars ?_
    rw [← happ]
    exact List.mem_append_left _ hn
  · rw [String.toList_ofList] at hc
    exact getLast?_dropTrailing hc

/-- Clean lines are read back from the text that is written of them. -/
theorem ofText_toText {lines : List String} (h : ∀ l ∈ lines, Clean l) :
    ofText (toText lines) = lines := by
  have hchars : lines.flatMap (fun line => line.toList ++ ['\n']) =
      (lines.map String.toList).flatMap fun line => line ++ ['\n'] := by
    rw [List.flatMap_map]
  have hfeed : ∀ line ∈ lines.map String.toList, '\n' ∉ line := by
    intro line hline
    obtain ⟨l, hl, rfl⟩ := List.mem_map.1 hline
    exact (h l hl).feed
  rw [ofText, toText, String.toList_ofList, hchars, splitLines_flatMap _ hfeed, List.map_map]
  calc lines.map ((fun line => String.ofList (trimEnd line)) ∘ String.toList)
      = lines.map id := List.map_congr_left fun l hl => by
        rw [Function.comp_apply, trimEnd, dropTrailing_eq_self (h l hl).last, String.ofList_toList,
          id]
    _ = lines := List.map_id lines

theorem ofText_toText_iff {lines : List String} :
    ofText (toText lines) = lines ↔ ∀ l ∈ lines, Clean l := by
  refine ⟨fun h l hl => ?_, ofText_toText⟩
  rw [← h] at hl
  exact clean_of_mem_ofText hl

/-! ## Normalized texts -/

/-- Whether a text has line feeds for its only line ends, no white space at the end of a line, and a
line feed at its own end. -/
structure Normalized (text : String) : Prop where
  feeds : ¬ ['\r', '\n'] <:+: text.toList
  trimmed : ∀ c, isSpace c = true → [c, '\n'] <:+: text.toList → c = '\n'
  ends : ∀ c ∈ text.toList.getLast?, c = '\n'

/-- What stands in front of a line feed is the end of a line, or the line feed of the line above. -/
theorem getLast?_or_of_infix {line rest : List Char} {c : Char}
    (h : [c, '\n'] <:+: line ++ '\n' :: rest) (hn : '\n' ∉ line) :
    line.getLast? = some c ∨ c = '\n' ∨ [c, '\n'] <:+: rest := by
  induction line with
  | nil =>
    rcases List.infix_cons_iff.1 h with h | h
    · exact Or.inr (Or.inl (List.cons_prefix_cons.1 h).1)
    · exact Or.inr (Or.inr h)
  | cons d ds ih =>
    rw [List.mem_cons, not_or] at hn
    rcases List.infix_cons_iff.1 h with h | h
    · obtain ⟨rfl, hfeed⟩ := List.cons_prefix_cons.1 h
      cases ds with
      | nil => exact Or.inl rfl
      | cons e es =>
        obtain ⟨rfl, -⟩ := List.cons_prefix_cons.1 hfeed
        exact absurd List.mem_cons_self hn.2
    · refine (ih h hn.2).imp_left fun hlast => ?_
      rw [List.getLast?_cons, hlast, Option.getD_some]

theorem toList_toText_cons (line : String) (lines : List String) :
    (toText (line :: lines)).toList = line.toList ++ '\n' :: (toText lines).toList := by
  simp [toText]

theorem eq_feed_of_mem_getLast?_toText {lines : List String} :
    ∀ c ∈ (toText lines).toList.getLast?, c = '\n' := by
  induction lines with
  | nil => exact fun c hc => nomatch hc
  | cons line lines ih =>
    intro c hc
    rw [toList_toText_cons, List.getLast?_append, List.getLast?_cons, Option.some_or,
      Option.mem_some_iff] at hc
    cases hlast : (toText lines).toList.getLast? with
    | none => rw [← hc, hlast, Option.getD_none]
    | some d =>
      rw [hlast, Option.getD_some] at hc
      exact ih c (hc ▸ hlast)

/-- What is written of clean lines is normalized. -/
theorem normalized_toText {lines : List String} (h : ∀ l ∈ lines, Clean l) :
    Normalized (toText lines) := by
  have htrimmed : ∀ c, isSpace c = true → [c, '\n'] <:+: (toText lines).toList → c = '\n' := by
    intro c hc hinfix
    induction lines with
    | nil => simp [toText] at hinfix
    | cons line lines ih =>
      obtain ⟨hline, hlines⟩ := List.forall_mem_cons.1 h
      rw [toList_toText_cons] at hinfix
      rcases getLast?_or_of_infix hinfix hline.feed with hlast | heq | hrest
      · exact absurd hc (Bool.eq_false_iff.1 (hline.last c hlast))
      · exact heq
      · exact ih hlines hrest
  exact ⟨fun hfeed => absurd (htrimmed '\r' rfl hfeed) (by decide), htrimmed,
    eq_feed_of_mem_getLast?_toText⟩

/-- The lines of a text that ends with a line feed, put together again. -/
theorem flatMap_splitLines {text : List Char} (h : ∀ c ∈ text.getLast?, c = '\n') :
    (splitLines text).flatMap (fun line => line ++ ['\n']) = text := by
  induction text with
  | nil => rfl
  | cons c cs ih =>
    have hcs : (splitLines cs).flatMap (fun line => line ++ ['\n']) = cs := by
      refine ih fun d hd => h d ?_
      rw [List.getLast?_cons, Option.mem_def.1 hd, Option.getD_some, Option.mem_some_iff]
    rw [splitLines]
    split
    · next hc => rw [List.flatMap_cons, hcs, hc, List.nil_append, List.singleton_append]
    · next hc =>
      cases hlines : splitLines cs with
      | nil =>
        rw [hlines, List.flatMap_nil] at hcs
        exact absurd (h c (by rw [← hcs]; rfl)) hc
      | cons line lines =>
        rw [hlines, List.flatMap_cons] at hcs
        rw [List.flatMap_cons, List.cons_append, List.cons_append, hcs]

theorem Normalized.trimEnd_eq {text : String} (h : Normalized text) {line : List Char}
    (hline : line ∈ splitLines text.toList) : trimEnd line = line := by
  refine dropTrailing_eq_self fun c hc => Bool.eq_false_iff.2 fun hspace => ?_
  have hmem : line ++ ['\n'] ∈ (splitLines text.toList).map fun line => line ++ ['\n'] :=
    List.mem_map.2 ⟨line, hline, rfl⟩
  have hinfix := List.infix_of_mem_flatten hmem
  rw [← List.flatMap_def, flatMap_splitLines h.ends] at hinfix
  have hlast : [c, '\n'] <:+ line ++ ['\n'] := by
    obtain ⟨front, rfl⟩ := List.getLast?_eq_some_iff.1 hc
    exact ⟨front, by simp⟩
  obtain rfl := h.trimmed c hspace (hlast.isInfix.trans hinfix)
  exact not_mem_of_mem_splitLines hline (List.mem_of_getLast? hc)

/-- A text is written back as it was if it is normalized, and only then. -/
theorem toText_ofText_iff {text : String} : toText (ofText text) = text ↔ Normalized text := by
  refine ⟨fun h => ?_, fun h => ?_⟩
  · rw [← h]
    exact normalized_toText fun l hl => clean_of_mem_ofText hl
  · have hlines : (splitLines text.toList).map trimEnd = splitLines text.toList :=
      (List.map_congr_left fun line hline => h.trimEnd_eq hline).trans (List.map_id _)
    have htext : (ofText text).map String.toList = (splitLines text.toList).map trimEnd := by
      simp [ofText]
    calc toText (ofText text)
        = String.ofList (((ofText text).map String.toList).flatMap fun line => line ++ ['\n']) := by
          rw [toText, List.flatMap_map]
      _ = text := by rw [htext, hlines, flatMap_splitLines h.ends, String.ofList_toList]

end HouseStyle.Text
