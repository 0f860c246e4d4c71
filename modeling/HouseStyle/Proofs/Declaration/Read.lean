import HouseStyle.Declaration.Parser
import HouseStyle.Proofs.Reading

/-!
# One step of reading

`readMember` and `readMembers` carry the bound on the unread lines in their results.  Here the same
steps stand without it, so that what a step does can be said by equations on lists of lines.

* `read_of_afterHeader_cons`: reading a declaration is reading its head, its shape and its body.
* `readAll_cons`: reading members goes on until the closing line.
* `read_eq_ok_iff`, `readAll_eq_ok_iff`: what is known after a reading that succeeds, and all that is
  needed for it.
* `readAll_eq_error_iff`: **why members of a scope are not read.**
-/

namespace HouseStyle.Declaration

open Text

/-- The members up to the line that closes their scope, and the lines after that line. -/
def readAll (opened : Place) (dent : Nat) (closer : String) (ls : List String) :
    Except ParseError (List Declaration × List String) :=
  (readMembers opened dent closer ls).map fun (ds, rest) => (ds, rest.1)

/-- The rest of a declaration of a shape, after its head. -/
def readBody (shape : Shape) (place : Place) (head : Head) (below : List String) :
    Except ParseError (Declaration × List String) :=
  match shape, below with
  | .openClass, below =>
    (readAll place (leadingSpaces head.signature) "\x7d" below).map fun (members, rest) =>
      (.scope none head members, rest)
  | .fieldClass, [] => .error (place.error .unrecognized)
  | .fieldClass, opener :: inner =>
    (readAll ⟨inner.length + 1, opener⟩ (leadingSpaces opener) "\x7d;" inner).map
      fun (members, rest) => (.scope (some opener) head members, rest)
  | shape, below => readLeaf shape place head below

theorem map_named {α β : Type} (place : Place) (d : Declaration) (rest : α) (f : α → β) :
    ((named place d rest).map fun (d, rest) => (d, f rest)) = named place d (f rest) := by
  unfold named
  split <;> rfl

theorem fault_of_endOfInput {ls : List String} {left : Nat} {text : String} {fault : Fault}
    (h : endOfInput ls = .atLine left text fault) : fault = .unclosed := by
  unfold endOfInput at h
  split at h
  · cases h
  · cases h
    rfl

theorem read_of_afterHeader_nil {ls : List String} (h : afterHeader ls = []) :
    read ls = .error (endOfInput ls) := by
  unfold read
  rw [readMember]
  split
  · rfl
  · next h' => rw [h] at h'; cases h'

theorem read_of_afterHeader_cons {ls : List String} {signature : String} {below : List String}
    (h : afterHeader ls = signature :: below) :
    read ls = match classify signature below.head? with
      | none => .error (Place.error ⟨below.length + 1, signature⟩ .unrecognized)
      | some shape =>
        match readBody shape ⟨below.length + 1, signature⟩ ⟨headerLines ls, signature⟩ below with
        | .error e => .error e
        | .ok (d, rest) => named ⟨below.length + 1, signature⟩ d rest := by
  unfold read
  rw [readMember]
  split
  · next h' => rw [h] at h'; cases h'
  · next signature' below' h' =>
    obtain ⟨rfl, rfl⟩ := List.cons.inj (h.symm.trans h')
    cases hc : classify signature below.head? with
    | none => rfl
    | some shape =>
      cases shape
      case openClass =>
        simp only [readBody, readAll]
        split
        · next e hr => rw [hr]; rfl
        · next members after hr => rw [hr]; exact map_named _ _ _ _
      case fieldClass =>
        cases below with
        | nil => rfl
        | cons opener inner =>
          simp only [readBody, readAll]
          split
          · next e hr => rw [hr]; rfl
          · next members after hr => rw [hr]; exact map_named _ _ _ _
      all_goals
        simp only [readBody]
        split
        · next e hl => rw [hl]; rfl
        · next d after hl =>
          refine (map_named _ _ _ _).trans ?_
          change named _ d after = _
          rw [hl]

theorem readAll_nil (opened : Place) (dent : Nat) (closer : String) :
    readAll opened dent closer [] = .error (opened.error .unclosed) := by
  rw [readAll, readMembers]
  rfl

theorem readAll_cons (opened : Place) (dent : Nat) (closer : String) (line : String)
    (rest : List String) :
    readAll opened dent closer (line :: rest) =
      if closes line dent closer then .ok ([], rest)
      else if (Text.indentation line).atMost (.spaces dent) then
        .error (.atLine (rest.length + 1) line .misindented)
      else if (afterHeader (line :: rest)).isEmpty then .error (opened.error .unclosed)
      else
        match read (line :: rest) with
        | .error e => .error e
        | .ok (d, after) =>
          match readAll opened dent closer after with
          | .error e => .error e
          | .ok (ds, final) => .ok (d :: ds, final) := by
  rw [readAll, readMembers]
  split
  · rfl
  split
  · rfl
  split
  · rfl
  unfold read
  cases hm : readMember (line :: rest) with
  | error e => rfl
  | ok p =>
    obtain ⟨d, after⟩ := p
    simp only [Except.map, readAll]
    cases readMembers opened dent closer after.1 <;> rfl

/-! ## Readings that succeed -/

theorem named_eq_ok_iff {α : Type} {place : Place} {d e : Declaration} {r s : α} :
    named place d r = .ok (e, s) ↔ (d = e ∧ r = s) ∧ e.name?.isSome = true := by
  unfold named
  cases hn : d.name? with
  | none =>
    simp only [reduceCtorEq, false_iff]
    rintro ⟨⟨rfl, -⟩, h⟩
    rw [hn] at h
    cases h
  | some name =>
    simp only [Except.ok.injEq, Prod.mk.injEq]
    constructor
    · rintro ⟨rfl, rfl⟩
      exact ⟨⟨rfl, rfl⟩, by rw [hn]; rfl⟩
    · exact fun h => h.1

/-- What is known after a declaration has been read, and all that is needed to read it. -/
theorem read_eq_ok_iff {ls rest : List String} {d : Declaration} :
    read ls = .ok (d, rest) ↔
      ∃ signature below shape, afterHeader ls = signature :: below ∧
        classify signature below.head? = some shape ∧
        readBody shape ⟨below.length + 1, signature⟩ ⟨headerLines ls, signature⟩ below =
          .ok (d, rest) ∧
        d.name?.isSome = true := by
  constructor
  · intro h
    cases ha : afterHeader ls with
    | nil => rw [read_of_afterHeader_nil ha] at h; cases h
    | cons signature below =>
      rw [read_of_afterHeader_cons ha] at h
      cases hc : classify signature below.head? with
      | none => rw [hc] at h; cases h
      | some shape =>
        simp only [hc] at h
        split at h
        · cases h
        · next d' rest' hb =>
          obtain ⟨⟨rfl, rfl⟩, hn⟩ := named_eq_ok_iff.1 h
          exact ⟨signature, below, shape, rfl, hc, hb, hn⟩
  · rintro ⟨signature, below, shape, ha, hc, hb, hn⟩
    rw [read_of_afterHeader_cons ha]
    simp only [hc, hb]
    exact named_eq_ok_iff.2 ⟨⟨rfl, rfl⟩, hn⟩

theorem afterHeader_ne_nil_of_read {ls rest : List String} {d : Declaration}
    (h : read ls = .ok (d, rest)) : afterHeader ls ≠ [] := by
  obtain ⟨signature, below, shape, ha, -⟩ := read_eq_ok_iff.1 h
  exact ha ▸ List.cons_ne_nil signature below

theorem length_lt_of_read {ls rest : List String} {d : Declaration}
    (h : read ls = .ok (d, rest)) : rest.length < ls.length := by
  obtain ⟨⟨_, unread⟩, -, he⟩ := exists_of_map_eq_ok h
  cases he
  exact unread.2

/-! ## Members -/

section Members

variable {opened : Place} {dent : Nat} {closer line : String} {ls below rest : List String}
  {ds : List Declaration} {e : ParseError}

theorem atMost_eq_not_isInside (dent : Nat) (line : String) :
    (Text.indentation line).atMost (.spaces dent) = ! isInside dent line := by
  rw [isInside, Indentation.deeper, Bool.not_not]

theorem readAll_of_begins (hc : closes line dent closer = false) (hi : isInside dent line = true) :
    readAll opened dent closer (line :: below) =
      if (afterHeader (line :: below)).isEmpty then .error (opened.error .unclosed)
      else
        match read (line :: below) with
        | .error e => .error e
        | .ok (d, rest) =>
          match readAll opened dent closer rest with
          | .error e => .error e
          | .ok (ds, final) => .ok (d :: ds, final) := by
  rw [readAll_cons, if_neg (by simp [hc]), atMost_eq_not_isInside, if_neg (by simp [hi])]

/-- What is known after members have been read, and all that is needed to read them: either the
closing line comes first, or one member is read from lines that begin deeper, and the others after
it. -/
theorem readAll_eq_ok_iff : readAll opened dent closer ls = .ok (ds, rest) ↔
    (ds = [] ∧ ls = closingLine dent closer :: rest) ∨
      ∃ line below d ds' middle, ls = line :: below ∧ ds = d :: ds' ∧
        closes line dent closer = false ∧ isInside dent line = true ∧ read ls = .ok (d, middle) ∧
        readAll opened dent closer middle = .ok (ds', rest) := by
  constructor
  · intro h
    cases ls with
    | nil => rw [readAll_nil] at h; cases h
    | cons line below =>
      rw [readAll_cons, atMost_eq_not_isInside] at h
      split at h
      · next hc =>
        cases h
        exact .inl ⟨rfl, by rw [closes_iff.1 hc]⟩
      next hc =>
      split at h
      · cases h
      next hi =>
      split at h
      · cases h
      split at h
      · cases h
      next d middle hr =>
      split at h
      · cases h
      next ds' final hrest =>
      cases h
      exact .inr ⟨line, below, d, ds', middle, rfl, rfl, by simpa using hc, by simpa using hi, hr,
        hrest⟩
  · rintro (⟨rfl, rfl⟩ | ⟨line, below, d, ds', middle, rfl, rfl, hc, hi, hr, hrest⟩)
    · rw [readAll_cons, if_pos (closes_iff.2 rfl)]
    · rw [readAll_of_begins hc hi, if_neg (by simpa using afterHeader_ne_nil_of_read hr), hr]
      simp only [hrest]

/-- Why members of a scope are not read. -/
inductive MembersFail (opened : Place) (dent : Nat) (closer : String) : List String → ParseError → Prop
  /-- The closing line is missing. -/
  | unclosed : MembersFail opened dent closer [] (opened.error .unclosed)
  /-- The line where a member may begin is not deep enough. -/
  | misindented {line : String} {below : List String} (hc : closes line dent closer = false)
      (hi : isInside dent line = false) :
      MembersFail opened dent closer (line :: below) (.atLine (below.length + 1) line .misindented)
  /-- No signature follows a header. -/
  | header {line : String} {below : List String} (hc : closes line dent closer = false)
      (hi : isInside dent line = true) (ha : afterHeader (line :: below) = []) :
      MembersFail opened dent closer (line :: below) (opened.error .unclosed)
  /-- The first member is not read. -/
  | member {line : String} {below : List String} {e : ParseError}
      (hc : closes line dent closer = false) (hi : isInside dent line = true)
      (ha : afterHeader (line :: below) ≠ []) (hr : read (line :: below) = .error e) :
      MembersFail opened dent closer (line :: below) e
  /-- The members after the first one are not read. -/
  | later {line : String} {below rest : List String} {d : Declaration} {e : ParseError}
      (hc : closes line dent closer = false) (hi : isInside dent line = true)
      (hr : read (line :: below) = .ok (d, rest))
      (hrest : readAll opened dent closer rest = .error e) :
      MembersFail opened dent closer (line :: below) e

theorem readAll_eq_error_iff :
    readAll opened dent closer ls = .error e ↔ MembersFail opened dent closer ls e := by
  constructor
  · intro h
    cases ls with
    | nil =>
      rw [readAll_nil] at h
      cases h
      exact .unclosed
    | cons line below =>
      rw [readAll_cons, atMost_eq_not_isInside] at h
      split at h
      · cases h
      next hc =>
      have hc : closes line dent closer = false := by simpa using hc
      split at h
      · next hi =>
        cases h
        exact .misindented hc (by simpa using hi)
      next hi =>
      have hi : isInside dent line = true := by simpa using hi
      split at h
      · next ha =>
        cases h
        exact .header hc hi (List.isEmpty_iff.1 ha)
      next ha =>
      split at h
      · next hr =>
        cases h
        exact .member hc hi (by simpa using ha) hr
      next hr =>
      split at h
      · next hrest =>
        cases h
        exact .later hc hi hr hrest
      · cases h
  · intro h
    cases h with
    | unclosed => exact readAll_nil opened dent closer
    | misindented hc hi =>
      rw [readAll_cons, if_neg (by simp [hc]), atMost_eq_not_isInside, if_pos (by simp [hi])]
    | header hc hi ha => rw [readAll_of_begins hc hi, if_pos (by simp [ha])]
    | member hc hi ha hr => rw [readAll_of_begins hc hi, if_neg (by simpa using ha), hr]
    | later hc hi hr hrest =>
      rw [readAll_of_begins hc hi, if_neg (by simpa using afterHeader_ne_nil_of_read hr), hr]
      simp only [hrest]

end Members

end HouseStyle.Declaration
