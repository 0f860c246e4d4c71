import HouseStyle.Proofs.Declaration.Read
import HouseStyle.Proofs.Declaration.Shape

/-!
# The lines a declaration was read from

A tree keeps the lines of its file except those that close something.  `sourceLines` puts them back
by the rules of the reader, so that reading a declaration takes exactly its `sourceLines` off the
input, and `Forms` says what a declaration of each shape is made of.

* `Declaration.ind`: induction over a tree.
* `Forms`, `Formed`: what reading guarantees of one declaration.
* `sourceLines_of_read`: what was read is the source of the declaration and the unread lines.
* `formed_of_read`: every declaration of a tree that was read is `Formed`.
-/

namespace HouseStyle.Declaration

open Text

/-! ## Trees -/

/-- Induction over a tree: a scope comes after its members. -/
@[elab_as_elim]
theorem ind {motive : Declaration → Prop}
    (leaf : ∀ kind head lines, motive (.leaf kind head lines))
    (scope : ∀ opener head members, (∀ d ∈ members, motive d) →
      motive (.scope opener head members)) :
    ∀ d, motive d
  | .leaf kind head lines => leaf kind head lines
  | .scope opener head members => scope opener head members fun d _ => ind leaf scope d

section Parts

variable (kind : LeafKind) (opener : Option String) (head : Head) (lines : List String)
  (members : List Declaration)

@[simp] theorem head_leaf : (leaf kind head lines).head = head := rfl

@[simp] theorem head_scope : (scope opener head members).head = head := rfl

@[simp] theorem header_leaf : (leaf kind head lines).header = head.header := rfl

@[simp] theorem header_scope : (scope opener head members).header = head.header := rfl

@[simp] theorem signature_leaf : (leaf kind head lines).signature = head.signature := rfl

@[simp] theorem signature_scope : (scope opener head members).signature = head.signature := rfl

end Parts

theorem self_mem_postorder (d : Declaration) : d ∈ d.postorder := by
  cases d <;> simp [postorder]

theorem mem_postorder_scope {c : Declaration} {opener : Option String} {head : Head}
    {members : List Declaration} :
    c ∈ (scope opener head members).postorder ↔
      (∃ d ∈ members, c ∈ d.postorder) ∨ c = .scope opener head members := by
  simp [postorder, postorderAll_eq_flatMap]

theorem mem_postorder_leaf {c : Declaration} {kind : LeafKind} {head : Head}
    {lines : List String} :
    c ∈ (leaf kind head lines).postorder ↔ c = .leaf kind head lines := by
  simp [postorder]

/-- The first line of a declaration. -/
def firstLine (d : Declaration) : String := d.header.headD d.signature

/-- The line below the signature, as far as it belongs to the declaration and bears on its shape. -/
def lineBelow? : Declaration → Option String
  | .leaf _ _ lines => lines.head?
  | .scope opener _ _ => opener

/-! ## Source -/

/-- The line that closes a leaf. -/
def leafEnd : LeafKind → String → List String
  | .enum, signature => closing ['\x7d'] signature
  | .field, _ => []
  | .method, signature => closing [';', '\x7d'] signature

/-- The line that closes a scope. -/
def scopeEnd : Option String → String → List String
  | none, signature =>
    if Shape.fits signature none .emptyClass then []
    else [closingLine (leadingSpaces signature) "\x7d"]
  | some opener, _ => [closingLine (leadingSpaces opener) "\x7d;"]

mutual

/-- The lines of a declaration in its source, blank lines left out. -/
def sourceLines : Declaration → List String
  | .leaf kind head lines =>
    head.header ++ head.signature :: (lines ++ leafEnd kind head.signature)
  | .scope opener head members =>
    head.header ++ head.signature ::
      (opener.toList ++ sourceLinesAll members ++ scopeEnd opener head.signature)

/-- The lines of declarations in their source. -/
def sourceLinesAll : List Declaration → List String
  | [] => []
  | d :: ds => d.sourceLines ++ sourceLinesAll ds

end

/-- The lines of a declaration in its source from the line below the signature on. -/
def bodyLines : Declaration → List String
  | .leaf kind head lines => lines ++ leafEnd kind head.signature
  | .scope opener head members =>
    opener.toList ++ sourceLinesAll members ++ scopeEnd opener head.signature

theorem sourceLines_eq (d : Declaration) :
    d.sourceLines = d.header ++ d.signature :: d.bodyLines := by
  cases d <;> rfl

theorem sourceLinesAll_eq_flatMap (ds : List Declaration) :
    sourceLinesAll ds = ds.flatMap sourceLines := by
  induction ds with
  | nil => rfl
  | cons d ds ih => rw [sourceLinesAll, ih, List.flatMap_cons]

theorem signature_mem_sourceLines (d : Declaration) : d.signature ∈ d.sourceLines := by
  rw [sourceLines_eq]
  simp

theorem sourceLines_subset (d : Declaration) :
    ∀ c ∈ d.postorder, c.sourceLines ⊆ d.sourceLines := by
  induction d using ind with
  | leaf kind head lines =>
    intro c hc
    rw [mem_postorder_leaf.1 hc]
    exact List.Subset.refl _
  | scope opener head members ih =>
    intro c hc
    rcases mem_postorder_scope.1 hc with ⟨m, hm, hc⟩ | rfl
    · refine List.Subset.trans (ih m hm c hc) fun l hl => ?_
      have hmem : l ∈ sourceLinesAll members := by
        rw [sourceLinesAll_eq_flatMap]
        exact List.mem_flatMap.2 ⟨m, hm, hl⟩
      simp [sourceLines, hmem]
    · exact List.Subset.refl _

/-! ## Shapes and declarations -/

/-- What a declaration of a shape is made of. -/
inductive Forms : Shape → Declaration → Prop
  | closedEnum {head : Head} (h : endsWithAny ['\x7d'] head.signature = true) :
      Forms .enum (.leaf .enum head [])
  | openEnum {head : Head} {lines : List String} (h : endsWithAny ['\x7d'] head.signature = false)
      (hl : closingLine (leadingSpaces head.signature) "\x7d" ∉ lines) :
      Forms .enum (.leaf .enum head lines)
  | emptyClass {head : Head} : Forms .emptyClass (.scope none head [])
  | openClass {head : Head} {members : List Declaration}
      (hm : ∀ d ∈ members, isInside (leadingSpaces head.signature) d.firstLine = true) :
      Forms .openClass (.scope none head members)
  | fieldClass {head : Head} {opener : String} {members : List Declaration}
      (hm : ∀ d ∈ members, isInside (leadingSpaces opener) d.firstLine = true) :
      Forms .fieldClass (.scope (some opener) head members)
  | abstractMethod {head : Head} : Forms .abstractMethod (.leaf .method head [])
  | emptyMethod {head : Head} : Forms .emptyMethod (.leaf .method head [])
  | openMethod {head : Head} {lines : List String}
      (hl : closingLine (leadingSpaces head.signature) "\x7d" ∉ lines) :
      Forms .openMethod (.leaf .method head lines)
  | field {head : Head} : Forms .field (.leaf .field head [])
  | multilineField {head : Head} {lines : List String}
      (hl : ∀ line ∈ lines, isInside (leadingSpaces head.signature) line = true) :
      Forms .multilineField (.leaf .field head lines)

/-- What reading guarantees of a declaration, its members apart. -/
structure Formed (d : Declaration) : Prop where
  /-- The header is made of comments, then annotations. -/
  header : (d.header.dropWhile isComment).all isMarked = true
  named : d.name?.isSome = true
  shaped : ∃ shape, classify d.signature d.lineBelow? = some shape ∧ Forms shape d

/-! ## Leaves -/

theorem readLines_eq_ok {opened : Place} {dent : Nat} {ls lines rest : List String}
    (h : readLines opened dent ls = .ok (lines, rest)) :
    ls = lines ++ closingLine dent "\x7d" :: rest ∧ closingLine dent "\x7d" ∉ lines := by
  have hsplit : ls.takeWhile (! closes · dent "\x7d") ++
      ls.dropWhile (! closes · dent "\x7d") = ls := List.takeWhile_append_dropWhile
  unfold readLines at h
  split at h
  · cases h
  · next line below hd =>
    cases h
    have hline : closes line dent "\x7d" = true := by
      have := List.head?_dropWhile_not (! closes · dent "\x7d") ls
      rw [hd] at this
      simpa using this
    refine ⟨by rw [← closes_iff.1 hline, ← hd, hsplit], fun hmem => ?_⟩
    have hall := List.all_eq_true.1
      (List.all_takeWhile (p := (! closes · dent "\x7d")) (l := ls)) _ hmem
    simp [closes_iff.2] at hall

theorem closing_of_last {endings : List Char} {signature : String} {c : Char}
    (h : signature.toList.getLast? = some c) (hc : c ∉ endings) :
    closing endings signature = [closingLine (leadingSpaces signature) "\x7d"] := by
  rw [closing, endsWithAny_eq_contains h, if_neg (by simpa using hc)]

theorem closing_of_last_mem {endings : List Char} {signature : String} {c : Char}
    (h : signature.toList.getLast? = some c) (hc : c ∈ endings) :
    closing endings signature = [] := by
  rw [closing, endsWithAny_eq_contains h, if_pos (by simpa using hc)]

theorem readLeaf_eq_ok {shape : Shape} {place : Place} {head : Head} {below rest : List String}
    {d : Declaration} (h : readLeaf shape place head below = .ok (d, rest))
    (hc : classify head.signature below.head? = some shape) :
    d.head = head ∧ below = d.bodyLines ++ rest ∧
      classify head.signature d.lineBelow? = some shape ∧ Forms shape d := by
  have hany := fun hf hm => classify_of_classify hc hf hm
  have hlast := fun c => getLast?_of_classify (c := c) hc
  unfold readLeaf at h
  cases shape with
  | enum =>
    simp only [] at h
    split at h
    · next he =>
      cases h
      have hl : head.signature.toList.getLast? = some '\x7d' := eq_of_beq he
      refine ⟨rfl, ?_, hany (by decide) (by decide) _, .closedEnum ?_⟩
      · simp [bodyLines, leafEnd, closing_of_last_mem hl]
      · rw [endsWithAny_eq_contains hl]; rfl
    · next he =>
      obtain ⟨⟨lines, after⟩, hr, he'⟩ := exists_of_map_eq_ok h
      cases he'
      obtain ⟨hb, hn⟩ := readLines_eq_ok hr
      have hend : endsWithAny ['\x7d'] head.signature = false := by
        cases hl : head.signature.toList.getLast? <;> simp_all [endsWithAny]
      refine ⟨rfl, ?_, hany (by decide) (by decide) _, .openEnum hend hn⟩
      simp [hb, bodyLines, leafEnd, closing, hend]
  | emptyClass =>
    cases h
    refine ⟨rfl, ?_, hany (by decide) (by decide) _, .emptyClass⟩
    have hf := fits_of_classify (hany (by decide) (by decide) none)
    simp [bodyLines, sourceLinesAll, scopeEnd, hf]
  | openClass => cases h
  | fieldClass => cases h
  | abstractMethod =>
    cases h
    refine ⟨rfl, ?_, hany (by decide) (by decide) _, .abstractMethod⟩
    simp [bodyLines, leafEnd, closing_of_last_mem (hlast _ rfl)]
  | emptyMethod =>
    cases h
    refine ⟨rfl, ?_, hany (by decide) (by decide) _, .emptyMethod⟩
    simp [bodyLines, leafEnd, closing_of_last_mem (hlast _ rfl)]
  | openMethod =>
    obtain ⟨⟨lines, after⟩, hr, he⟩ := exists_of_map_eq_ok h
    cases he
    obtain ⟨hb, hn⟩ := readLines_eq_ok hr
    refine ⟨rfl, ?_, hany (by decide) (by decide) _, .openMethod hn⟩
    simp [hb, bodyLines, leafEnd, closing_of_last (hlast _ rfl)]
  | field =>
    cases h
    exact ⟨rfl, rfl, hany (by decide) (by decide) _, .field⟩
  | multilineField =>
    cases h
    refine ⟨rfl, ?_, ?_, .multilineField fun line => List.all_eq_true.1 List.all_takeWhile line⟩
    · simp [bodyLines, leafEnd, List.takeWhile_append_dropWhile]
    · cases below with
      | nil => exact hc
      | cons line below =>
        simp only [lineBelow?, List.takeWhile_cons]
        split
        · exact hc
        · exact classify_none_of_multilineField hc

theorem members_of_readLeaf {shape : Shape} {place : Place} {head : Head}
    {below rest : List String} {d : Declaration} {members : List Declaration}
    (h : readLeaf shape place head below = .ok (d, rest)) (hm : d.members? = some members) :
    members = [] := by
  have lines : ∀ {f : List String × List String → Declaration × List String},
      (∀ p, (f p).1.members? = none) →
      (readLines place (leadingSpaces head.signature) below).map f = .ok (d, rest) →
      members = [] := by
    intro f hf he
    obtain ⟨p, -, hp⟩ := exists_of_map_eq_ok he
    have := hf p
    rw [hp, hm] at this
    cases this
  unfold readLeaf at h
  cases shape <;> simp only [] at h
  case enum =>
    split at h
    · cases h; cases hm
    · exact lines (fun _ => rfl) h
  case openMethod => exact lines (fun _ => rfl) h
  case emptyClass => cases h; cases hm; rfl
  all_goals cases h; try cases hm

/-! ## Scopes -/

theorem head?_sourceLines (d : Declaration) : d.sourceLines.head? = some d.firstLine := by
  rw [sourceLines_eq, firstLine]
  cases d.header <;> rfl

theorem exists_read_of_mem {members : List Declaration} :
    ∀ {opened : Place} {dent : Nat} {closer : String} {ls rest : List String},
      readAll opened dent closer ls = .ok (members, rest) →
      ∀ d ∈ members, ∃ ls' rest', read ls' = .ok (d, rest') := by
  induction members with
  | nil => intro _ _ _ _ _ _ d hd; cases hd
  | cons m ms ih =>
    intro opened dent closer ls rest h d hd
    obtain ⟨he, -⟩ | ⟨line, below, m', ms', middle, -, he, -, -, hr, hrest⟩ :=
      readAll_eq_ok_iff.1 h
    · cases he
    · obtain ⟨rfl, rfl⟩ := List.cons.inj he
      rcases List.mem_cons.1 hd with rfl | hd
      · exact ⟨ls, middle, hr⟩
      · exact ih hrest d hd

/-- Members were read from their source, the closing line and the unread lines. -/
theorem readAll_sound {members : List Declaration}
    (hm : ∀ d ∈ members, ∀ {ls rest}, read ls = .ok (d, rest) → ls = d.sourceLines ++ rest) :
    ∀ {opened : Place} {dent : Nat} {closer : String} {ls rest : List String},
      readAll opened dent closer ls = .ok (members, rest) →
      ls = sourceLinesAll members ++ closingLine dent closer :: rest ∧
        ∀ d ∈ members, isInside dent d.firstLine = true := by
  induction members with
  | nil =>
    intro opened dent closer ls rest h
    obtain ⟨-, hls⟩ | ⟨_, _, _, _, _, _, he, _⟩ := readAll_eq_ok_iff.1 h
    · exact ⟨hls, fun d hd => absurd hd (by simp)⟩
    · cases he
  | cons m ms ih =>
    intro opened dent closer ls rest h
    obtain ⟨he, -⟩ | ⟨line, below, m', ms', middle, hls, he, -, hdeep, hr, hrest⟩ :=
      readAll_eq_ok_iff.1 h
    · cases he
    obtain ⟨rfl, rfl⟩ := List.cons.inj he
    have hsource := hm m (by simp) hr
    obtain ⟨hmiddle, hms⟩ := ih (fun d hd => hm d (by simp [hd])) hrest
    refine ⟨by rw [hsource, hmiddle, sourceLinesAll, List.append_assoc], fun d hd => ?_⟩
    rcases List.mem_cons.1 hd with rfl | hd
    · have hhead : ls.head? = some d.firstLine := by
        rw [hsource, List.head?_append, head?_sourceLines, Option.some_or]
      rw [hls, List.head?_cons] at hhead
      rw [← Option.some.inj hhead]
      exact hdeep
    · exact hms d hd

/-! ## Whole declarations -/

theorem readBody_eq_ok {shape : Shape} {place : Place} {head : Head} {below rest : List String}
    {d : Declaration} (h : readBody shape place head below = .ok (d, rest))
    (hc : classify head.signature below.head? = some shape)
    (hm : ∀ members, d.members? = some members → ∀ m ∈ members, ∀ {ls rest},
      read ls = .ok (m, rest) → ls = m.sourceLines ++ rest) :
    d.head = head ∧ below = d.bodyLines ++ rest ∧
      classify head.signature d.lineBelow? = some shape ∧ Forms shape d := by
  unfold readBody at h
  split at h
  · obtain ⟨⟨members, after⟩, hr, he⟩ := exists_of_map_eq_ok h
    cases he
    obtain ⟨hb, hdeep⟩ := readAll_sound (hm members rfl) hr
    have hany := classify_of_classify hc (by decide) (by decide) none
    refine ⟨rfl, ?_, hany, .openClass hdeep⟩
    simp [hb, bodyLines, scopeEnd, not_fits_emptyClass_of_classify hany]
  · cases h
  · next opener inner =>
    obtain ⟨⟨members, after⟩, hr, he⟩ := exists_of_map_eq_ok h
    cases he
    obtain ⟨hb, hdeep⟩ := readAll_sound (hm members rfl) hr
    exact ⟨rfl, by simp [hb, bodyLines, scopeEnd], hc, .fieldClass hdeep⟩
  · exact readLeaf_eq_ok h hc

theorem all_isMarked_headerLines (ls : List String) :
    ((headerLines ls).dropWhile isComment).all isMarked = true := by
  have hcomments : ∀ l ∈ ls.takeWhile isComment, isComment l = true :=
    List.all_eq_true.1 List.all_takeWhile
  rw [headerLines, List.dropWhile_append_of_pos hcomments]
  refine List.all_eq_true.2 fun l hl => ?_
  exact List.all_eq_true.1 List.all_takeWhile l ((List.dropWhile_sublist _).subset hl)

/-- A declaration was read from its source and is formed by its shape, if its members were read from
theirs. -/
theorem read_step {d : Declaration} {ls rest : List String} (h : read ls = .ok (d, rest))
    (hm : ∀ members, d.members? = some members → ∀ m ∈ members, ∀ {ls rest},
      read ls = .ok (m, rest) → ls = m.sourceLines ++ rest) :
    ls = d.sourceLines ++ rest ∧ d.Formed := by
  obtain ⟨signature, below, shape, ha, hc, hb, hn⟩ := read_eq_ok_iff.1 h
  obtain ⟨hhead, hbelow, hshape, hforms⟩ := readBody_eq_ok hb hc hm
  have hheader : d.header = headerLines ls := congrArg Head.header hhead
  have hsignature : d.signature = signature := congrArg Head.signature hhead
  refine ⟨?_, ?_, hn, shape, ?_, hforms⟩
  · rw [sourceLines_eq, hheader, hsignature, List.append_assoc, List.cons_append, ← hbelow, ← ha,
      headerLines_append_afterHeader]
  · rw [hheader]
    exact all_isMarked_headerLines ls
  · rw [hsignature]
    exact hshape

/-- **Reading takes the source of what it returns off the input.** -/
theorem sourceLines_of_read (d : Declaration) :
    ∀ {ls rest : List String}, read ls = .ok (d, rest) → ls = d.sourceLines ++ rest := by
  induction d using ind with
  | leaf kind head lines =>
    intro ls rest h
    exact (read_step h fun members he => nomatch he).1
  | scope opener head members ih =>
    intro ls rest h
    refine (read_step h fun members' he => ?_).1
    cases he
    exact ih

theorem Formed.of_read {d : Declaration} {ls rest : List String} (h : read ls = .ok (d, rest)) :
    d.Formed :=
  (read_step h fun _ _ m _ => sourceLines_of_read m).2

theorem exists_read_of_mem_members {d : Declaration} {ls rest : List String}
    {members : List Declaration} (h : read ls = .ok (d, rest)) (hm : d.members? = some members) :
    ∀ m ∈ members, ∃ ls' rest', read ls' = .ok (m, rest') := by
  obtain ⟨signature, below, shape, -, hc, hb, -⟩ := read_eq_ok_iff.1 h
  unfold readBody at hb
  split at hb
  · obtain ⟨⟨_, _⟩, hr, he⟩ := exists_of_map_eq_ok hb
    cases he
    cases hm
    exact exists_read_of_mem hr
  · cases hb
  · obtain ⟨⟨_, _⟩, hr, he⟩ := exists_of_map_eq_ok hb
    cases he
    cases hm
    exact exists_read_of_mem hr
  · rw [members_of_readLeaf hb hm]
    intro m hm
    cases hm

/-- **Every declaration of a tree that was read is formed by its shape.** -/
theorem formed_of_read (d : Declaration) :
    ∀ {ls rest : List String}, read ls = .ok (d, rest) → ∀ c ∈ d.postorder, c.Formed := by
  induction d using ind with
  | leaf kind head lines =>
    intro ls rest h c hc
    rw [mem_postorder_leaf.1 hc]
    exact .of_read h
  | scope opener head members ih =>
    intro ls rest h c hc
    rcases mem_postorder_scope.1 hc with ⟨m, hm, hc⟩ | rfl
    · obtain ⟨ls', rest', hr⟩ := exists_read_of_mem_members h rfl m hm
      exact ih m hm hr c hc
    · exact .of_read h

end HouseStyle.Declaration
