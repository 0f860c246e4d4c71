import HouseStyle.Proofs.Block.Places
import HouseStyle.Proofs.Declaration.Lookahead

/-!
# The lines that errors report

An error in a file is reported with the number and the text of a line.  Blank lines are dropped before
declarations are read and count all the same, so the place among the lines of code is translated back.

* `exists_split_of_standsAt`, `getD_codeLineNumbers`: from a place among the lines of code to a line.
* `parse_eq_error_iff_split`: an error of a file, by what stands in front of its line and behind it.
* `parse_error_line`: **errors point at a line of the source, and most depend on nothing behind it.**
-/

namespace HouseStyle

open Text

/-! ## Numbers of lines of code -/

theorem length_codeLineNumbers (lines : List String) :
    (codeLineNumbers lines).length = (codeLines lines).length := by
  have hfilter : ∀ start, ((lines.zipIdx start).filter fun line => ! isBlank line.1).length =
      (codeLines lines).length := by
    induction lines with
    | nil => exact fun _ => rfl
    | cons line lines ih =>
      intro start
      rw [List.zipIdx_cons, codeLines, List.filter_cons, List.filter_cons]
      split
      · rw [List.length_cons, List.length_cons, ih]
        rfl
      · exact ih _
  rw [codeLineNumbers, List.length_map, hfilter]

theorem codeLineNumbers_append (a b : List String) : codeLineNumbers (a ++ b) =
    codeLineNumbers a ++ (((b.zipIdx a.length).filter fun line => ! isBlank line.1).map
      fun line => line.2 + 1) := by
  rw [codeLineNumbers, List.zipIdx_append, List.filter_append, List.map_append, Nat.zero_add]
  rfl

theorem getD_codeLineNumbers {before after : List String} {text : String}
    (h : isBlank text = false) :
    (codeLineNumbers (before ++ text :: after)).getD
      ((codeLineNumbers (before ++ text :: after)).length - ((codeLines after).length + 1)) 0 =
      before.length + 1 := by
  have hlength : (codeLineNumbers (before ++ text :: after)).length -
      ((codeLines after).length + 1) = (codeLineNumbers before).length := by
    rw [length_codeLineNumbers, length_codeLineNumbers, codeLines_append,
      codeLines_cons_of_not_isBlank h, List.length_append, List.length_cons, Nat.add_sub_cancel]
  rw [hlength, codeLineNumbers_append, List.zipIdx_cons,
    List.filter_cons_of_pos (by simp [h]), List.map_cons, List.getD_eq_getElem?_getD,
    List.getElem?_append_right le_rfl, Nat.sub_self, List.getElem?_cons_zero, Option.getD_some]

theorem exists_split_of_standsAt {lines : List String} {left : Nat} {text : String}
    (h : StandsAt (codeLines lines) left text) :
    ∃ before after, lines = before ++ text :: after ∧ isBlank text = false ∧
      left = (codeLines after).length + 1 := by
  obtain ⟨first, last, hcode, rfl⟩ := h
  obtain ⟨a, b, rfl, -, hb⟩ := List.filter_eq_append_iff.1 hcode
  obtain ⟨blanks, after, rfl, -, htext, rfl⟩ := List.filter_eq_cons_iff.1 hb
  exact ⟨a ++ blanks, after, by rw [List.append_assoc], by simpa using htext, rfl⟩

/-! ## Declarations -/

/-- An error of a file is an error of its lines of code, and reports the line that stands there. -/
theorem parse_eq_error_iff_split {lines : List String} {n : Nat} {text : String} {fault : Fault} :
    SourceFile.parse lines = .error (.atLine n text fault) ↔
      ∃ before after, lines = before ++ text :: after ∧ isBlank text = false ∧
        n = before.length + 1 ∧ SourceFile.read (codeLines lines) =
          .error (.atLine ((codeLines after).length + 1) text fault) := by
  constructor
  · intro h
    unfold SourceFile.parse at h
    cases hr : SourceFile.read (codeLines lines) with
    | ok file =>
      rw [hr] at h
      cases h
    | error e =>
      cases e with
      | missingDeclaration =>
        rw [hr] at h
        cases h
      | atLine left text' fault' =>
        rw [hr] at h
        obtain ⟨hn, rfl, rfl⟩ := ParseError.atLine.inj (Except.error.inj h)
        obtain ⟨before, after, rfl, htext, rfl⟩ :=
          exists_split_of_standsAt (SourceFile.standsAt_of_read hr)
        exact ⟨before, after, rfl, htext, hn.symm.trans (getD_codeLineNumbers htext), rfl⟩
  · rintro ⟨before, after, rfl, htext, rfl, hr⟩
    rw [SourceFile.parse, hr, Except.mapError, ParseError.locate, getD_codeLineNumbers htext]

/-- An error that its line causes itself is reported for every file that is the same down to it. -/
theorem parse_eq_error_of_take_eq {lines lines' : List String} {n : Nat} {text : String}
    {fault : Fault} (hf : fault.IsLocal)
    (h : SourceFile.parse lines = .error (.atLine n text fault))
    (htake : lines'.take n = lines.take n) :
    SourceFile.parse lines' = .error (.atLine n text fault) := by
  obtain ⟨before, after, rfl, htext, rfl, hr⟩ := parse_eq_error_iff_split.1 h
  have hfirst : (before ++ text :: after).take (before.length + 1) = before ++ [text] := by
    rw [List.append_cons, List.take_left' (by simp)]
  have hlines' : lines' = before ++ text :: lines'.drop (before.length + 1) := by
    rw [List.append_cons, ← hfirst, ← htake, List.take_append_drop]
  have hcode : ∀ rest, codeLines (before ++ text :: rest) =
      codeLines before ++ text :: codeLines rest := fun rest => by
    rw [codeLines_append, codeLines_cons_of_not_isBlank htext]
  refine parse_eq_error_iff_split.2 ⟨before, lines'.drop (before.length + 1), hlines', htext, rfl, ?_⟩
  rw [hcode] at hr
  rw [hlines', hcode]
  exact SourceFile.read_eq_error_of_sameDownTo hf ⟨codeLines before, rfl, by simp⟩ hr

/-! ## Both kinds of files -/

/-- Whether the number and the text of a reported line are those of a line of a source. -/
structure Reported (lines : List String) (n : Nat) (text : String) : Prop where
  one_le : 1 ≤ n
  le_length : n ≤ lines.length
  getElem? : lines[n - 1]? = some text
  code : isBlank text = false

theorem Reported.of_split {before after : List String} {text : String}
    (h : isBlank text = false) : Reported (before ++ text :: after) (before.length + 1) text := by
  refine ⟨Nat.succ_pos _, ?_, ?_, h⟩
  · rw [List.length_append, List.length_cons]
    omega
  · rw [Nat.add_sub_cancel, List.getElem?_append_right le_rfl, Nat.sub_self,
      List.getElem?_cons_zero]

theorem Block.reported_of_parse {lines : List String} {e : Block.ParseError}
    (h : Block.parse lines = .error e) : Reported lines e.line e.text := by
  unfold Block.parse at h
  cases hr : Block.read none lines with
  | ok p =>
    rw [hr] at h
    cases h
  | error e' =>
    rw [hr] at h
    obtain rfl := Except.error.inj h
    obtain ⟨hstands, hcode⟩ := Block.pointed_of_read hr
    obtain ⟨before, after, hlines, hline⟩ := hstands
    have hn : (e'.locate lines.length).line = before.length + 1 := by
      change lines.length + 1 - e'.line = _
      rw [hlines, hline, List.length_append, List.length_cons]
      omega
    rw [hn]
    exact hlines ▸ .of_split hcode

/-- **An error that reports a line points at that line of the source**, blank lines counted, and the
line is not blank.  An error of a file of declarations that the line causes itself is reported for every
source that is the same down to it, whatever follows. -/
theorem parse_error_line :
    (∀ (lines : List String) (n : Nat) (text : String) (fault : Fault),
      SourceFile.parse lines = .error (.atLine n text fault) →
        Reported lines n text ∧
        (fault = .unrecognized ∨ fault = .misindented ∨ fault = .trailing →
          ∀ lines' : List String, lines'.take n = lines.take n →
            SourceFile.parse lines' = .error (.atLine n text fault))) ∧
    ∀ (lines : List String) (e : Block.ParseError), Block.parse lines = .error e →
      Reported lines e.line e.text := by
  refine ⟨fun lines n text fault h => ⟨?_, fun hf lines' htake => ?_⟩, fun lines e h => ?_⟩
  · obtain ⟨before, after, rfl, htext, rfl, -⟩ := parse_eq_error_iff_split.1 h
    exact .of_split htext
  · exact parse_eq_error_of_take_eq hf h htake
  · exact Block.reported_of_parse h

/-- A member at the margin is reported whatever follows, and so is the start of an unfinished call. -/
theorem parse_error_line_margin :
    (Reported ["class A \x7b", "", "int b;", "\x7d"] 3 "int b;" ∧
      SourceFile.parse ["class A \x7b", "", "int b;", "int c"] =
        .error (.atLine 3 "int b;" .misindented)) ∧
    Reported ["", "f(", "  1"] 2 "f(" := by
  have hmargin : SourceFile.parse ["class A \x7b", "", "int b;", "\x7d"] =
      .error (.atLine 3 "int b;" .misindented) := by decide +kernel
  have hopen : Block.parse ["", "f(", "  1"] = .error ⟨2, "f(", .unfinished⟩ := by decide +kernel
  obtain ⟨hreported, hsame⟩ := parse_error_line.1 _ _ _ _ hmargin
  exact ⟨⟨hreported, hsame (.inr (.inl rfl)) _ rfl⟩, parse_error_line.2 _ _ hopen⟩

end HouseStyle
