import HouseStyle.Proofs.Declaration.Nesting
import HouseStyle.Proofs.Reading

/-!
# Places of errors

While declarations are read, an error is located by a line and the number of lines from it to the end
of the input.  That line is indeed there: it is one of the lines that are read, or the line that opened
the scope whose members they are.

* `standsAt_of_read`, `readAll_eq_error`: the places of the errors of a declaration and of members.
* `SourceFile.standsAt_of_read`: **an error in a file points at one of its lines.**
-/

namespace HouseStyle

open Text

namespace Declaration

variable {ls rest : List String} {left : Nat} {text : String} {fault : Fault}

theorem afterHeader_suffix (ls : List String) : afterHeader ls <:+ ls :=
  (List.dropWhile_suffix _).trans (List.dropWhile_suffix _)

theorem suffix_of_read {d : Declaration} (h : read ls = .ok (d, rest)) : rest <:+ ls :=
  ⟨d.sourceLines, (sourceLines_of_read d h).symm⟩

theorem standsAt_of_endOfInput (h : endOfInput ls = .atLine left text fault) :
    StandsAt ls left text := by
  unfold endOfInput at h
  split at h
  · cases h
  · next last hlast =>
    obtain ⟨before, rfl⟩ := List.getLast?_eq_some_iff.1 hlast
    cases h
    exact ⟨before, [], rfl, rfl⟩

/-- An error of members is an error of the line that opened their scope, which is not closed, or of one
of the lines that are read. -/
def FaultsAt (opened : Place) (ls : List String) (left : Nat) (text : String) (fault : Fault) : Prop :=
  opened = ⟨left, text⟩ ∧ fault = .unclosed ∨ StandsAt ls left text

/-- Whether the errors of members that are read from some lines have their places. -/
def Faults (ls : List String) : Prop :=
  ∀ opened dent closer left text fault,
    readAll opened dent closer ls = .error (.atLine left text fault) →
      FaultsAt opened ls left text fault

theorem FaultsAt.standsAt {opened : Place} {inner : List String}
    (h : FaultsAt opened inner left text fault) (hinner : inner <:+ ls)
    (hopened : StandsAt ls opened.left opened.text) : StandsAt ls left text := by
  rcases h with ⟨rfl, -⟩ | hstands
  · exact hopened
  · exact hstands.of_suffix hinner

theorem Waiting.Opens.suffix {w : Waiting} (h : Waiting.Opens ls w) : w.lines <:+ ls := by
  have hsuffix := afterHeader_suffix ls
  cases h with
  | openClass ha _ => exact (List.suffix_cons _ _).trans (ha ▸ hsuffix)
  | fieldClass ha _ =>
    exact (List.suffix_cons _ _).trans ((List.suffix_cons _ _).trans (ha ▸ hsuffix))

theorem Waiting.Opens.standsAt {w : Waiting} (h : Waiting.Opens ls w) :
    StandsAt ls w.opened.left w.opened.text := by
  have hsuffix := afterHeader_suffix ls
  cases h with
  | openClass ha _ => exact (StandsAt.head _ _).of_suffix (ha ▸ hsuffix)
  | fieldClass ha _ =>
    exact (StandsAt.head _ _).of_suffix ((List.suffix_cons _ _).trans (ha ▸ hsuffix))

/-- The error of a declaration is an error of one of the lines it is read from. -/
theorem standsAt_of_read_of_faults (ih : ∀ ls', ls'.length < ls.length → Faults ls')
    (h : read ls = .error (.atLine left text fault)) : StandsAt ls left text := by
  generalize he : ParseError.atLine left text fault = e at h
  cases Waiting.fails_of_read_eq_error h with
  | endOfInput => exact standsAt_of_endOfInput he.symm
  | unrecognized ha | unclosed ha | unnamed ha =>
    cases he
    exact (StandsAt.head _ _).of_suffix (ha ▸ afterHeader_suffix ls)
  | inside ho hr =>
    subst he
    exact (ih _ ho.length_lt _ _ _ _ _ _ hr).standsAt ho.suffix ho.standsAt

/-- **The error of members is an error of one of their lines, or of a scope that is not closed.** -/
theorem readAll_eq_error (ls : List String) : Faults ls := by
  induction hn : ls.length using Nat.strongRecOn generalizing ls with
  | ind n ih =>
    subst hn
    intro opened dent closer left text fault h
    cases readAll_eq_error_iff.1 h with
    | unclosed | header => exact .inl ⟨rfl, rfl⟩
    | misindented => exact .inr (.head _ _)
    | member _ _ _ hm =>
      exact .inr (standsAt_of_read_of_faults (fun ls' hlt => ih _ hlt ls' rfl) hm)
    | later _ _ hm hrest =>
      rcases ih _ (length_lt_of_read hm) _ rfl _ _ _ _ _ _ hrest with hopened | hstands
      · exact .inl hopened
      · exact .inr (hstands.of_suffix (suffix_of_read hm))

theorem standsAt_of_read (h : read ls = .error (.atLine left text fault)) :
    StandsAt ls left text :=
  standsAt_of_read_of_faults (fun ls' _ => readAll_eq_error ls') h

/-- An error that is not for want of a closing line is an error of one of the lines of the members. -/
theorem standsAt_of_readAll {opened : Place} {dent : Nat} {closer : String}
    (hf : fault ≠ .unclosed)
    (h : readAll opened dent closer ls = .error (.atLine left text fault)) :
    StandsAt ls left text := by
  rcases readAll_eq_error ls _ _ _ _ _ _ h with ⟨-, he⟩ | hstands
  · exact absurd he hf
  · exact hstands

end Declaration

/-- **An error in a file without blank lines points at one of its lines.** -/
theorem SourceFile.standsAt_of_read {code : List String} {left : Nat} {text : String} {fault : Fault}
    (h : SourceFile.read code = .error (.atLine left text fault)) : StandsAt code left text := by
  have hsuffix : code.dropWhile isPreamble <:+ code := List.dropWhile_suffix _
  unfold SourceFile.read at h
  split at h
  · cases h
  · split at h
    · next e hr =>
      obtain rfl := Except.error.inj h
      exact (Declaration.standsAt_of_read hr).of_suffix hsuffix
    · cases h
    · next root line rest hr =>
      cases h
      exact (StandsAt.head _ _).of_suffix ((Declaration.suffix_of_read hr).trans hsuffix)

end HouseStyle
