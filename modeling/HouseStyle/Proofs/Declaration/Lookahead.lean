import HouseStyle.Proofs.Declaration.Places

/-!
# What an error depends on

A declaration is read line by line, with a look at the line below a signature and at the signature
below a header.  Two inputs that are the same down to a line are read the same way down to it, so an
error that the line itself causes does not depend on what follows.

* `SameDownTo`: inputs that are the same down to a line.
* `SameDownTo.dropWhile`, `SameDownTo.afterHeader`: the parts that are passed over.
* `ReadsAlike`, `readsAlike`: declarations and members, what is read and the errors.
* `SourceFile.read_eq_error_of_sameDownTo`: **an error of the line in a file stays the same.**
-/

namespace HouseStyle

open Text

/-- An error that the line it points at causes itself. -/
def Fault.IsLocal (fault : Fault) : Prop :=
  fault = .unrecognized ∨ fault = .misindented ∨ fault = .trailing

theorem Fault.IsLocal.ne_unclosed {fault : Fault} (h : fault.IsLocal) : fault ≠ .unclosed := by
  rintro rfl
  rcases h with h | h | h <;> cases h

theorem Fault.IsLocal.ne_unnamed {fault : Fault} (h : fault.IsLocal) (kind : Kind) :
    fault ≠ .unnamed kind := by
  rintro rfl
  rcases h with h | h | h <;> cases h

namespace Declaration

/-- Whether two inputs are the same down to a line, which is followed by other lines in each. -/
def SameDownTo (text : String) (more more' : List String) (ls ls' : List String) : Prop :=
  ∃ before, ls = before ++ text :: more ∧ ls' = before ++ text :: more'

variable {text : String} {more more' ls ls' : List String}

namespace SameDownTo

theorem refl (text : String) (more more' : List String) :
    SameDownTo text more more' (text :: more) (text :: more') := ⟨[], rfl, rfl⟩

/-- Lines above the line can be taken off either input. -/
theorem of_append (taken : List String) {rest : List String}
    (h : SameDownTo text more more' (taken ++ rest) ls')
    (hlt : more.length < rest.length) :
    ∃ rest', ls' = taken ++ rest' ∧ SameDownTo text more more' rest rest' := by
  obtain ⟨before, heq, rfl⟩ := h
  rcases List.append_eq_append_iff.1 heq with ⟨between, rfl, rfl⟩ | ⟨between, rfl, hrest⟩
  · exact ⟨between ++ text :: more', List.append_assoc .., between, rfl, rfl⟩
  · -- nothing of the line's end has been taken
    have hnil : between = [] := by
      have hlen := congrArg List.length hrest
      rw [List.length_append, List.length_cons] at hlen
      exact List.eq_nil_of_length_eq_zero (by omega)
    subst hnil
    obtain rfl : text :: more = rest := hrest
    exact ⟨text :: more', by rw [List.append_nil], refl text more more'⟩

theorem head?_eq (h : SameDownTo text more more' ls ls') : ls'.head? = ls.head? := by
  obtain ⟨before, rfl, rfl⟩ := h
  cases before <;> rfl

theorem exists_cons {line : String} {below : List String}
    (h : SameDownTo text more more' (line :: below) ls') : ∃ below', ls' = line :: below' :=
  List.head?_eq_some_iff.1 h.head?_eq

theorem tail {line : String} {below below' : List String}
    (h : SameDownTo text more more' (line :: below) (line :: below'))
    (hlt : more.length < below.length) : SameDownTo text more more' below below' := by
  obtain ⟨rest', hls, hsame⟩ := of_append [line] h hlt
  obtain rfl : below' = rest' := (List.cons.inj hls).2
  exact hsame

theorem eq_of_length_eq {line : String} {below below' : List String}
    (h : SameDownTo text more more' (line :: below) (line :: below'))
    (hlen : below.length = more.length) : text = line ∧ below' = more' := by
  obtain ⟨before, heq, heq'⟩ := h
  cases before with
  | nil =>
    obtain ⟨rfl, -⟩ := List.cons.inj heq
    exact ⟨rfl, (List.cons.inj heq').2⟩
  | cons first before =>
    have hlength := congrArg List.length heq
    simp only [List.length_append, List.length_cons] at hlength
    omega

theorem dropWhile {p : String → Bool} {line : String} {below : List String}
    (h : SameDownTo text more more' ls ls') (hd : ls.dropWhile p = line :: below)
    (hle : more.length ≤ below.length) :
    ∃ below', ls'.dropWhile p = line :: below' ∧ ls'.takeWhile p = ls.takeWhile p ∧
      SameDownTo text more more' (line :: below) (line :: below') := by
  have hsplit : ls.takeWhile p ++ line :: below = ls := by
    rw [← hd, List.takeWhile_append_dropWhile]
  have hline : p line = false := by
    have hhead := List.head?_dropWhile_not p ls
    rw [hd] at hhead
    simpa using hhead
  rw [← hsplit] at h
  obtain ⟨rest', rfl, hsame⟩ := of_append _ h (Nat.lt_succ_of_le hle)
  obtain ⟨below', rfl⟩ := hsame.exists_cons
  have htaken : ∀ l ∈ ls.takeWhile p, p l = true := List.all_eq_true.1 List.all_takeWhile
  have hboundary : ∀ l ∈ (line :: below').head?, p l = false := by
    intro l hl
    obtain rfl : line = l := Option.some.inj hl
    exact hline
  exact ⟨below', dropWhile_append_of_boundary htaken hboundary,
    takeWhile_append_of_boundary htaken hboundary, hsame⟩

theorem afterHeader {line : String} {below : List String} (h : SameDownTo text more more' ls ls')
    (ha : Declaration.afterHeader ls = line :: below) (hle : more.length ≤ below.length) :
    ∃ below', Declaration.afterHeader ls' = line :: below' ∧ headerLines ls' = headerLines ls ∧
      SameDownTo text more more' (line :: below) (line :: below') := by
  rw [Declaration.afterHeader] at ha
  cases hd : ls.dropWhile isComment with
  | nil =>
    rw [hd] at ha
    cases ha
  | cons first rest =>
    have hlength := (List.dropWhile_sublist (l := ls.dropWhile isComment) isMarked).length_le
    rw [ha, hd, List.length_cons, List.length_cons] at hlength
    obtain ⟨rest', hd', ht', hsame⟩ := h.dropWhile hd (by omega)
    rw [hd] at ha
    obtain ⟨below', ha', hmarked, hsame'⟩ := hsame.dropWhile ha hle
    refine ⟨below', ?_, ?_, hsame'⟩
    · rw [Declaration.afterHeader, hd', ha']
    · rw [headerLines, headerLines, ht', hd, hd', hmarked]

end SameDownTo

/-! ## Shapes and leaves -/

theorem classify_eq_none {signature : String} {next : Option String}
    (h : classify signature next = none) (next' : Option String) :
    classify signature next' = none := by
  have hfinds : startsWithWord signature = true → ¬ signature.toList.getLast? = some '=' := by
    intro hword hlast
    rw [classify, if_pos hword] at h
    -- with its value on the lines below, it would be a field
    exact List.find?_eq_none.1 h .multilineField (by decide) (beq_iff_eq.2 hlast)
  by_cases hword : startsWithWord signature = true
  · rw [← h]
    exact classify_congr fun hlast => absurd hlast (hfinds hword)
  · rw [classify, if_neg hword]

theorem readLines_sameDownTo {opened : Place} (opened' : Place) {dent : Nat} {lines rest : List String}
    (h : SameDownTo text more more' ls ls') (hr : readLines opened dent ls = .ok (lines, rest))
    (hlt : more.length < rest.length) :
    ∃ rest', readLines opened' dent ls' = .ok (lines, rest') ∧
      SameDownTo text more more' rest rest' := by
  unfold readLines at hr
  split at hr
  · cases hr
  · next line below hd =>
    cases hr
    obtain ⟨below', hd', ht', hsame⟩ := h.dropWhile hd (Nat.le_of_lt hlt)
    exact ⟨below', by rw [readLines, hd', ht'], hsame.tail hlt⟩

theorem readLeaf_sameDownTo {shape : Shape} {place place' : Place} {head : Head}
    {d : Declaration} {rest : List String} (h : SameDownTo text more more' ls ls')
    (hr : readLeaf shape place head ls = .ok (d, rest)) (hlt : more.length < rest.length) :
    ∃ rest', readLeaf shape place' head ls' = .ok (d, rest') ∧
      SameDownTo text more more' rest rest' := by
  have hlines : ∀ (f : List String → Declaration),
      ((readLines place (leadingSpaces head.signature) ls).map fun p => (f p.1, p.2)) =
        .ok (d, rest) →
      ∃ rest', ((readLines place' (leadingSpaces head.signature) ls').map fun p => (f p.1, p.2)) =
        .ok (d, rest') ∧ SameDownTo text more more' rest rest' := by
    intro f hf
    obtain ⟨⟨lines, after⟩, hlines, he⟩ := exists_of_map_eq_ok hf
    cases he
    obtain ⟨rest', hrest, hsame⟩ := readLines_sameDownTo place' h hlines hlt
    exact ⟨rest', by rw [hrest]; rfl, hsame⟩
  unfold readLeaf at hr ⊢
  cases shape with
  | enum =>
    simp only [] at hr ⊢
    split at hr
    · next hclosed =>
      cases hr
      exact ⟨ls', by rw [if_pos hclosed], h⟩
    · next hopen =>
      rw [if_neg hopen]
      exact hlines (.leaf .enum head) hr
  | openMethod => exact hlines (.leaf .method head) hr
  | multilineField =>
    cases hr
    cases hd : ls.dropWhile (isInside (leadingSpaces head.signature)) with
    | nil =>
      rw [hd] at hlt
      exact absurd hlt (Nat.not_lt_zero _)
    | cons line below =>
      rw [hd] at hlt
      obtain ⟨below', hd', ht', hsame⟩ := h.dropWhile hd (Nat.le_of_lt_succ hlt)
      exact ⟨line :: below', by simp only [hd', ht'], hsame⟩
  | openClass | fieldClass => cases hr
  | emptyClass | abstractMethod | emptyMethod | field =>
    cases hr
    exact ⟨ls', rfl, h⟩

/-! ## Declarations and members -/

/-- Whether members are read from two inputs the same way down to the line, with the same errors of
the line itself. -/
structure ReadsAlike (text : String) (more more' ls ls' : List String) : Prop where
  ok : ∀ opened opened' dent closer ds rest, readAll opened dent closer ls = .ok (ds, rest) →
    more.length < rest.length →
    ∃ rest', readAll opened' dent closer ls' = .ok (ds, rest') ∧
      SameDownTo text more more' rest rest'
  error : ∀ opened opened' dent closer fault, fault.IsLocal →
    readAll opened dent closer ls = .error (.atLine (more.length + 1) text fault) →
    readAll opened' dent closer ls' = .error (.atLine (more'.length + 1) text fault)

theorem readBody_sameDownTo {shape : Shape} {place : Place} (place' : Place) {head : Head}
    {below below' rest : List String} {d : Declaration}
    (ih : ∀ {inner inner'}, inner.length ≤ below.length → SameDownTo text more more' inner inner' →
      ReadsAlike text more more' inner inner')
    (h : SameDownTo text more more' below below')
    (hb : readBody shape place head below = .ok (d, rest)) (hlt : more.length < rest.length) :
    ∃ rest', readBody shape place' head below' = .ok (d, rest') ∧
      SameDownTo text more more' rest rest' := by
  cases shape
  case openClass =>
    obtain ⟨⟨members, after⟩, hr, he⟩ := exists_of_map_eq_ok hb
    cases he
    obtain ⟨rest', hrest, hsame⟩ := (ih (Nat.le_refl _) h).ok _ place' _ _ _ _ hr hlt
    exact ⟨rest', by simp only [readBody, hrest, Except.map], hsame⟩
  case fieldClass =>
    cases below with
    | nil => cases hb
    | cons opener inner =>
      obtain ⟨⟨members, after⟩, hr, he⟩ := exists_of_map_eq_ok hb
      cases he
      have hshorter : rest.length ≤ inner.length := by
        obtain ⟨⟨_, unread⟩, -, he⟩ := exists_of_map_eq_ok hr
        cases he
        exact Nat.le_of_lt unread.2
      obtain ⟨inner', rfl⟩ := h.exists_cons
      have hinner := h.tail (Nat.lt_of_lt_of_le hlt hshorter)
      obtain ⟨rest', hrest, hsame⟩ :=
        (ih (Nat.le_succ _) hinner).ok _ ⟨inner'.length + 1, opener⟩ _ _ _ _ hr hlt
      exact ⟨rest', by simp only [readBody, hrest, Except.map], hsame⟩
  all_goals
    simp only [readBody] at hb ⊢
    exact readLeaf_sameDownTo h hb hlt

/-- A declaration above the line is read the same way. -/
theorem read_sameDownTo {d : Declaration} {rest : List String}
    (ih : ∀ {inner inner'}, inner.length < ls.length → SameDownTo text more more' inner inner' →
      ReadsAlike text more more' inner inner')
    (h : SameDownTo text more more' ls ls') (hr : read ls = .ok (d, rest))
    (hlt : more.length < rest.length) :
    ∃ rest', read ls' = .ok (d, rest') ∧ SameDownTo text more more' rest rest' := by
  obtain ⟨signature, below, shape, ha, hc, hb, hn⟩ := read_eq_ok_iff.1 hr
  have hle := length_afterHeader_le ls
  rw [ha, List.length_cons] at hle
  have hbelow : rest.length ≤ below.length := by
    have hsource := (readBody_eq_ok hb hc fun _ _ m _ _ _ => sourceLines_of_read m).2.1
    rw [hsource, List.length_append]
    exact Nat.le_add_left _ _
  obtain ⟨below', ha', hheader, hsame⟩ := h.afterHeader ha (by omega)
  have htail := hsame.tail (Nat.lt_of_lt_of_le hlt hbelow)
  obtain ⟨rest', hb', hsame'⟩ := readBody_sameDownTo ⟨below'.length + 1, signature⟩
    (fun hle' => ih (Nat.lt_of_le_of_lt hle' hle)) htail hb hlt
  refine ⟨rest', read_eq_ok_iff.2 ⟨signature, below', shape, ha', ?_, ?_, hn⟩, hsame'⟩
  · rw [htail.head?_eq, hc]
  · rw [hheader, hb']

/-- A scope that is opened above the line is opened alike. -/
theorem Waiting.Opens.sameDownTo {w : Waiting} (ho : Waiting.Opens ls w)
    (h : SameDownTo text more more' ls ls') (hlt : more.length < w.lines.length) :
    ∃ opened lines, Waiting.Opens ls' ⟨opened, w.dent, w.closer, lines⟩ ∧
      SameDownTo text more more' w.lines lines := by
  cases ho with
  | openClass ha hc =>
    obtain ⟨below', ha', -, hsame⟩ := h.afterHeader ha (Nat.le_of_lt hlt)
    have htail := hsame.tail hlt
    exact ⟨_, below', .openClass ha' (htail.head?_eq ▸ hc), htail⟩
  | @fieldClass _ _ inner ha hc =>
    have hlt : more.length < inner.length := hlt
    obtain ⟨below', ha', -, hsame⟩ := h.afterHeader ha (by rw [List.length_cons]; omega)
    have htail := hsame.tail (by rw [List.length_cons]; omega)
    obtain ⟨inner', rfl⟩ := htail.exists_cons
    exact ⟨_, inner', .fieldClass ha' hc, htail.tail hlt⟩

/-- An error of the line itself is found in a declaration whatever follows the line. -/
theorem read_error_sameDownTo {fault : Fault} (hf : fault.IsLocal)
    (ih : ∀ {inner inner'}, inner.length < ls.length → SameDownTo text more more' inner inner' →
      ReadsAlike text more more' inner inner')
    (h : SameDownTo text more more' ls ls')
    (hr : read ls = .error (.atLine (more.length + 1) text fault)) :
    read ls' = .error (.atLine (more'.length + 1) text fault) := by
  generalize he : ParseError.atLine (more.length + 1) text fault = e at hr
  cases Waiting.fails_of_read_eq_error hr with
  | endOfInput => exact absurd (fault_of_endOfInput he.symm) hf.ne_unclosed
  | unclosed => exact absurd (ParseError.atLine.inj he).2.2 hf.ne_unclosed
  | unnamed => exact absurd (ParseError.atLine.inj he).2.2 (hf.ne_unnamed _)
  | @unrecognized signature below ha hc =>
    obtain ⟨hleft, rfl, rfl⟩ := ParseError.atLine.inj he
    have hlen : below.length = more.length := (Nat.succ.inj hleft).symm
    obtain ⟨below', ha', -, hsame⟩ := h.afterHeader ha (Nat.le_of_eq hlen.symm)
    obtain ⟨-, rfl⟩ := hsame.eq_of_length_eq hlen
    rw [read_of_afterHeader_cons ha', classify_eq_none hc]
    rfl
  | inside ho hread =>
    subst he
    have hle := (standsAt_of_readAll hf.ne_unclosed hread).le_length
    obtain ⟨opened, lines, ho', hsame⟩ := ho.sameDownTo h hle
    exact ho'.read_eq_error ((ih ho.length_lt hsame).error _ opened _ _ _ hf hread)

theorem afterHeader_ne_nil_of_read_error {left : Nat} {fault : Fault} (hf : fault.IsLocal)
    (h : read ls = .error (.atLine left text fault)) : afterHeader ls ≠ [] := by
  intro ha
  rw [read_of_afterHeader_nil ha, Except.error.injEq] at h
  exact hf.ne_unclosed (fault_of_endOfInput h)

theorem length_lt_of_readAll {opened : Place} {dent : Nat} {closer : String} {ds : List Declaration}
    {rest : List String} (h : readAll opened dent closer ls = .ok (ds, rest)) :
    rest.length < ls.length := by
  obtain ⟨⟨_, unread⟩, -, he⟩ := exists_of_map_eq_ok h
  cases he
  exact unread.2

/-- **Members are read alike down to the line, and an error of the line stays the same.** -/
theorem readsAlike (ls : List String) : ∀ {ls'}, SameDownTo text more more' ls ls' →
    ReadsAlike text more more' ls ls' := by
  induction hn : ls.length using Nat.strongRecOn generalizing ls with
  | ind n ih =>
    subst hn
    intro ls' h
    have hshorter : ∀ {inner inner'}, inner.length < ls.length →
        SameDownTo text more more' inner inner' → ReadsAlike text more more' inner inner' :=
      fun hlt => ih _ hlt _ rfl
    constructor
    · intro opened opened' dent closer ds rest hr hlt
      rcases readAll_eq_ok_iff.1 hr with
        ⟨rfl, rfl⟩ | ⟨line, below, d, ds', middle, rfl, rfl, hc, hi, hd, hds⟩
      · obtain ⟨rest', rfl⟩ := h.exists_cons
        exact ⟨rest', readAll_eq_ok_iff.2 (.inl ⟨rfl, rfl⟩), h.tail hlt⟩
      · obtain ⟨below', rfl⟩ := h.exists_cons
        obtain ⟨middle', hd', hsame⟩ :=
          read_sameDownTo hshorter h hd (Nat.lt_trans hlt (length_lt_of_readAll hds))
        obtain ⟨rest', hds', hsame'⟩ := (hshorter (length_lt_of_read hd) hsame).ok
          opened opened' _ _ _ _ hds hlt
        exact ⟨rest', readAll_eq_ok_iff.2
          (.inr ⟨line, below', d, ds', middle', rfl, rfl, hc, hi, hd', hds'⟩), hsame'⟩
    · intro opened opened' dent closer fault hf hr
      refine readAll_eq_error_iff.2 ?_
      generalize he : ParseError.atLine (more.length + 1) text fault = e at hr
      cases readAll_eq_error_iff.1 hr with
      | unclosed | header => exact absurd (ParseError.atLine.inj he).2.2 hf.ne_unclosed
      | misindented hc hi =>
        obtain ⟨hleft, rfl, rfl⟩ := ParseError.atLine.inj he
        obtain ⟨below', rfl⟩ := h.exists_cons
        obtain ⟨-, rfl⟩ := h.eq_of_length_eq (Nat.succ.inj hleft).symm
        exact .misindented hc hi
      | member hc hi _ hd =>
        subst he
        have hd' := read_error_sameDownTo hf hshorter h hd
        obtain ⟨below', rfl⟩ := h.exists_cons
        exact .member hc hi (afterHeader_ne_nil_of_read_error hf hd') hd'
      | later hc hi hd hds =>
        subst he
        have hle := (standsAt_of_readAll hf.ne_unclosed hds).le_length
        obtain ⟨middle', hd', hsame⟩ := read_sameDownTo hshorter h hd hle
        obtain ⟨below', rfl⟩ := h.exists_cons
        exact .later hc hi hd' ((hshorter (length_lt_of_read hd) hsame).error
          opened opened' _ _ _ hf hds)

end Declaration

/-! ## Files -/

/-- An error of a file is an error of its declaration, or of the line that follows the declaration. -/
theorem SourceFile.read_eq_error_iff {code below : List String} {first text : String} {left : Nat}
    {fault : Fault} (h : code.dropWhile isPreamble = first :: below) :
    SourceFile.read code = .error (.atLine left text fault) ↔
      Declaration.read (first :: below) = .error (.atLine left text fault) ∨
        ∃ root rest, Declaration.read (first :: below) = .ok (root, text :: rest) ∧
          left = rest.length + 1 ∧ fault = .trailing := by
  simp only [SourceFile.read, h]
  rcases Declaration.read (first :: below) with e | ⟨root, _ | ⟨line, rest⟩⟩
  · simp
  · simp
  · simp only [Except.error.injEq, ParseError.atLine.injEq, reduceCtorEq, Except.ok.injEq,
      Prod.mk.injEq, List.cons.injEq, false_or]
    constructor
    · rintro ⟨rfl, rfl, rfl⟩
      exact ⟨root, rest, ⟨rfl, rfl, rfl⟩, rfl, rfl⟩
    · rintro ⟨root', rest', ⟨-, rfl, rfl⟩, rfl, rfl⟩
      exact ⟨rfl, rfl, rfl⟩

/-- **An error that a line of a file causes itself stays the same whatever follows the line.** -/
theorem SourceFile.read_eq_error_of_sameDownTo {text : String} {more more' code code' : List String}
    {fault : Fault} (hf : fault.IsLocal) (h : Declaration.SameDownTo text more more' code code')
    (hr : SourceFile.read code = .error (.atLine (more.length + 1) text fault)) :
    SourceFile.read code' = .error (.atLine (more'.length + 1) text fault) := by
  cases hfirst : code.dropWhile isPreamble with
  | nil =>
    rw [SourceFile.read, hfirst] at hr
    cases hr
  | cons first below =>
    rcases (SourceFile.read_eq_error_iff hfirst).1 hr with hd | ⟨root, rest, hd, hleft, rfl⟩
    · have hle := (Declaration.standsAt_of_read hd).le_length
      obtain ⟨below', hfirst', -, hsame⟩ := h.dropWhile hfirst (Nat.le_of_succ_le_succ hle)
      refine (SourceFile.read_eq_error_iff hfirst').2 (.inl ?_)
      exact Declaration.read_error_sameDownTo hf (fun _ => Declaration.readsAlike _) hsame hd
    · have hlength : rest.length = more.length := (Nat.succ.inj hleft).symm
      have hlt := Declaration.length_lt_of_read hd
      rw [List.length_cons, List.length_cons] at hlt
      obtain ⟨below', hfirst', -, hsame⟩ := h.dropWhile hfirst (by omega)
      obtain ⟨rest', hd', hsame'⟩ := Declaration.read_sameDownTo
        (fun _ => Declaration.readsAlike _) hsame hd (by rw [List.length_cons]; omega)
      obtain ⟨below'', rfl⟩ := hsame'.exists_cons
      obtain ⟨-, rfl⟩ := hsame'.eq_of_length_eq hlength
      exact (SourceFile.read_eq_error_iff hfirst').2 (.inr ⟨root, below'', hd', rfl, rfl⟩)

end HouseStyle
