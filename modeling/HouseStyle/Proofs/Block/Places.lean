import HouseStyle.Proofs.Block.Nested
import HouseStyle.Proofs.Reading

/-!
# Places of errors in blocks

While blocks are read, an error is located by a line and the number of lines from it to the end of the
input.  That line is one of the lines that are read, and it is not blank: it begins a statement or a
decorator, or it opens a block.

* `Pointed`: errors that point at a line of their input.
* `pointed_of_readDecorators`, `pointed_of_readOne`: the errors of decorators and of one node.
* `pointed_of_read`: **an error points at a line of the input that is not blank.**
-/

namespace HouseStyle.Block

open Text

/-- Whether an error points at one of some lines, and the line is not blank. -/
structure Pointed (lines : List String) (e : ParseError) : Prop where
  stands : StandsAt lines e.line e.text
  code : isBlank e.text = false

variable {dent : Option Nat} {lines below rest : List String} {line : String} {e : ParseError}

theorem Pointed.of_suffix {part : List String} (h : Pointed part e) (hs : part <:+ lines) :
    Pointed lines e := ⟨h.stands.of_suffix hs, h.code⟩

theorem pointed_unfinished (h : isBlank line = false) (below : List String) :
    Pointed (line :: below) (unfinished line below) := ⟨.head line below, h⟩

theorem suffix_of_logicalLine {block : List String} (h : logicalLine line below = some (block, rest)) :
    rest <:+ line :: below := ⟨block, append_of_logicalLine h⟩

theorem skipBlank_suffix (lines : List String) : skipBlank lines <:+ lines :=
  List.dropWhile_suffix _

theorem suffix_of_opening? {o : Opening} (h : opening? line below = .ok (some o)) :
    o.line :: o.below <:+ line :: below := by
  obtain ⟨decorators, -, htakes⟩ := takes_of_opening? h
  obtain ⟨taken, htaken, -⟩ := htakes.spread
  exact ⟨taken, htaken.symm⟩

theorem suffix_of_readOne {node : Node} (h : readOne line below = .ok (node, rest)) :
    rest <:+ line :: below := by
  rcases readOne_eq_ok h with ⟨physical, -, hl, -⟩ | ⟨o, signature, middle, body, ho, hl, -, hbody, -⟩
  · exact suffix_of_logicalLine hl
  · exact ((reads_of_read hbody).suffix.trans (suffix_of_logicalLine hl)).trans
      (suffix_of_opening? ho)

theorem pointed_of_readDecorators {dent : Indentation} (h : readDecorators dent lines = .error e) :
    Pointed lines e := by
  fun_induction readDecorators dent lines with
  | case1 => cases h
  | case2 line below hd hl =>
    rw [Bool.and_eq_true] at hd
    obtain rfl := Except.error.inj h
    exact pointed_unfinished (isBlank_of_isMarked hd.1) below
  | case3 line below hd decorator after hl _ ih =>
    exact (ih (map_eq_error_iff.1 h)).of_suffix
      ((skipBlank_suffix after).trans (suffix_of_logicalLine hl))
  | case4 => cases h

theorem pointed_of_opening? (h : opening? line below = .error e) : Pointed (line :: below) e := by
  unfold opening? at h
  split at h
  · split at h
    · next e' hd =>
      obtain rfl := Except.error.inj h
      exact pointed_of_readDecorators hd
    · cases h
    · split at h <;> cases h
  · cases h

/-- The error of a node points at a line of it, if the errors of what is below its first line do. -/
theorem pointed_of_readOne (hline : isBlank line = false)
    (ih : ∀ {dent lines e}, lines.length < (line :: below).length → read dent lines = .error e →
      Pointed lines e)
    (h : readOne line below = .error e) : Pointed (line :: below) e := by
  rw [readOne_eq] at h
  split at h
  · next e' ho =>
    obtain rfl := Except.error.inj h
    exact pointed_of_opening? ho
  · split at h
    · obtain rfl := Except.error.inj h
      exact pointed_unfinished hline below
    · cases h
  · next o ho =>
    have hsuffix := suffix_of_opening? ho
    have hopened : isBlank o.line = false := isBlank_of_kind? (opening?_eq_some_iff.1 ho).1
    split at h
    · obtain rfl := Except.error.inj h
      exact (pointed_unfinished hopened o.below).of_suffix hsuffix
    next signature after hl =>
    split at h
    · obtain rfl := Except.error.inj h
      exact Pointed.of_suffix ⟨.head o.line o.below, hopened⟩ hsuffix
    · split at h
      · next e' hbody =>
        obtain rfl := Except.error.inj h
        have hlt := length_rest_logicalLine hl
        have hle := length_below_opening ho
        refine (ih ?_ hbody).of_suffix ((suffix_of_logicalLine hl).trans hsuffix)
        rw [List.length_cons]
        omega
      · cases h

/-- **An error points at a line of the input that is not blank.** -/
theorem pointed_of_read (h : read dent lines = .error e) : Pointed lines e := by
  induction hn : lines.length using Nat.strongRecOn generalizing dent lines e with
  | ind n ih =>
    subst hn
    have hle := (skipBlank_sublist lines).length_le
    have hsuffix := skipBlank_suffix lines
    rw [read_eq] at h
    cases hs : skipBlank lines with
    | nil =>
      rw [hs] at h
      cases h
    | cons line below =>
      rw [hs] at hle hsuffix
      simp only [hs] at h
      split at h
      · split at h
        · next e' hnode =>
          obtain rfl := Except.error.inj h
          refine (pointed_of_readOne (isBlank_of_skipBlank hs) (fun hlt hr => ?_) hnode).of_suffix
            hsuffix
          exact ih _ (Nat.lt_of_lt_of_le hlt hle) hr rfl
        next node after hnode =>
        split at h
        · next e' hrest =>
          obtain rfl := Except.error.inj h
          have hafter := length_rest_readOne hnode
          rw [List.length_cons] at hle
          exact (ih _ (by omega) hrest rfl).of_suffix ((suffix_of_readOne hnode).trans hsuffix)
        · cases h
      · cases h

end HouseStyle.Block
