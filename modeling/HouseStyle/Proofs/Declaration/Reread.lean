import HouseStyle.Proofs.Declaration.CodeLines
import HouseStyle.Proofs.Text.Runs

/-!
# Reading a declaration from its source

The source of a declaration is read back as that declaration if two things hold at every level.  The
members of a scope stand at one depth, deeper than the line that closes it: then no member is taken
for the closing line, and the value of a field ends where the next member begins.  And a field that
ends with `=` has a value: then the line below it does not decide what it is.

* `Regular`: these conditions, and that a class that ends with a brace ends with both.
* `Stable`: what a tree that was read and is regular has at every declaration.
* `read_sourceLines`: **the source of a stable declaration is read back**, whatever follows at its
  depth.
* `parse_compose_of_stable`: **what is written of a stable file is read back.**
-/

namespace HouseStyle

open Text

namespace Declaration

/-! ## Regular and stable declarations -/

/-- The lines of the head of a declaration. -/
def headLines (d : Declaration) : List String := d.header ++ [d.signature]

/-- The spaces in front of the line that closes a scope. -/
def closingSpaces (opener : Option String) (head : Head) : Nat :=
  leadingSpaces (opener.getD head.signature)

/-- Whether the heads of the members stand at one depth, deeper than the line that closes their
scope. -/
def Aligned : Declaration → Prop
  | .leaf .. => True
  | .scope opener head members =>
    ∃ n, closingSpaces opener head < n ∧
      ∀ m ∈ members, ∀ l ∈ m.headLines, Text.indentation l = .spaces n

/-- Whether a field that ends with `=` has a value on the lines below. -/
def Valued : Declaration → Prop
  | .leaf .field head lines => head.signature.toList.getLast? = some '=' → lines ≠ []
  | _ => True

/-- What is asked of every declaration of a file that shall be read back. -/
structure Regular (d : Declaration) : Prop where
  aligned : d.Aligned
  valued : d.Valued
  closesOnce : d.ClosesOnce

/-- What every declaration of a regular file that was read has. -/
structure Stable (d : Declaration) : Prop where
  formed : d.Formed
  aligned : d.Aligned
  valued : d.Valued
  closed : dropsCloser d = false
  lines : ∀ lines, d.lines? = some lines → ∀ l ∈ lines, isBlank l = false

/-! ## Heads -/

theorem headerLines_append {header : List String} {signature : String}
    (hh : (header.dropWhile isComment).all isMarked = true) (hs : startsWithWord signature = true)
    (below : List String) :
    headerLines (header ++ signature :: below) = header ∧
      afterHeader (header ++ signature :: below) = signature :: below := by
  have hcomment : isComment signature = false :=
    startsWith_of_startsWithWord (c := '/') hs rfl (by decide +kernel)
  have hmarked : isMarked signature = false :=
    startsWith_of_startsWithWord (c := '@') hs rfl (by decide +kernel)
  have hboundary : ∀ l ∈ (signature :: below).head?, isMarked l = false := by
    intro l hl
    obtain rfl : signature = l := Option.some.inj hl
    exact hmarked
  have hall := List.all_eq_true.1 hh
  rw [headerLines, afterHeader, takeWhile_append_cons header hcomment,
    dropWhile_append_cons header hcomment]
  rw [takeWhile_append_of_boundary hall hboundary, dropWhile_append_of_boundary hall hboundary]
  exact ⟨List.takeWhile_append_dropWhile, rfl⟩

theorem Formed.startsWithWord {d : Declaration} (h : d.Formed) :
    startsWithWord d.signature = true := by
  obtain ⟨shape, hshape, -⟩ := h.shaped
  exact startsWithWord_of_classify hshape

theorem Formed.isBlank_signature {d : Declaration} (h : d.Formed) : isBlank d.signature = false :=
  isBlank_of_startsWithWord h.startsWithWord

/-! ## Leaves -/

theorem readLines_append {dent : Nat} {lines : List String}
    (h : closingLine dent "\x7d" ∉ lines) (opened : Place) (rest : List String) :
    readLines opened dent (lines ++ closingLine dent "\x7d" :: rest) = .ok (lines, rest) := by
  have hall : ∀ l ∈ lines, (! closes l dent "\x7d") = true := by
    intro l hl
    rw [Bool.not_eq_true', Bool.eq_false_iff]
    intro hc
    exact h (closes_iff.1 hc ▸ hl)
  have hboundary : ∀ l ∈ (closingLine dent "\x7d" :: rest).head?,
      (! closes l dent "\x7d") = false := by
    intro l hl
    obtain rfl : closingLine dent "\x7d" = l := Option.some.inj hl
    rw [closes_iff.2 rfl]
    rfl
  rw [readLines, takeWhile_append_of_boundary hall hboundary,
    dropWhile_append_of_boundary hall hboundary]

theorem classify_bodyLines {d : Declaration} {shape : Shape}
    (hc : classify d.signature d.lineBelow? = some shape) (hf : Forms shape d) (hv : d.Valued)
    (rest : List String) : classify d.signature (d.bodyLines ++ rest).head? = some shape := by
  cases hf with
  | fieldClass _ => exact hc
  | @multilineField head lines _ =>
    cases lines with
    | nil => exact absurd rfl (hv (getLast?_of_classify hc rfl))
    | cons line lines => exact hc
  | _ => exact classify_of_classify hc (by decide) (by decide) _

/-! ## Members -/

theorem firstLine_mem_headLines (d : Declaration) : d.firstLine ∈ d.headLines := by
  rw [firstLine, headLines]
  cases d.header with
  | nil => simp
  | cons l ls => simp

theorem signature_mem_headLines (d : Declaration) : d.signature ∈ d.headLines := by
  simp [headLines]

theorem exists_sourceLines_eq_cons (d : Declaration) :
    ∃ below, d.sourceLines = d.firstLine :: below := by
  obtain ⟨below, h⟩ := List.head?_eq_some_iff.1 (head?_sourceLines d)
  exact ⟨below, h⟩

theorem isInside_head?_sourceLinesAll {members : List Declaration} {dent n : Nat} {closer : String}
    (hcloser : closer.toList.head? = some '\x7d') (hn : dent < n)
    (hm : ∀ m ∈ members, ∀ l ∈ m.headLines, Text.indentation l = .spaces n) (rest : List String) :
    ∀ l ∈ (sourceLinesAll members ++ closingLine dent closer :: rest).head?,
      isInside n l = false := by
  intro l hl
  cases members with
  | nil =>
    obtain rfl : closingLine dent closer = l := Option.some.inj hl
    refine Bool.eq_false_iff.2 fun hi => ?_
    rw [isInside_iff (isBlank_closingLine hcloser dent), leadingSpaces_closingLine hcloser] at hi
    omega
  | cons m ms =>
    rw [sourceLinesAll, List.append_assoc, List.head?_append, head?_sourceLines,
      Option.some_or] at hl
    obtain rfl : m.firstLine = l := Option.some.inj hl
    rw [isInside_of_indentation (hm m (by simp) _ m.firstLine_mem_headLines)]
    simp

/-- Members at one depth are read back up to the line that closes their scope. -/
theorem readAll_sourceLinesAll {members : List Declaration} {dent n : Nat} {closer : String}
    (hcloser : closer.toList.head? = some '\x7d') (hn : dent < n)
    (hm : ∀ m ∈ members, ∀ l ∈ m.headLines, Text.indentation l = .spaces n)
    (hread : ∀ m ∈ members, ∀ rest, (∀ l ∈ rest.head?, isInside n l = false) →
      read (m.sourceLines ++ rest) = .ok (m, rest)) (opened : Place) (rest : List String) :
    readAll opened dent closer (sourceLinesAll members ++ closingLine dent closer :: rest) =
      .ok (members, rest) := by
  induction members with
  | nil => exact readAll_eq_ok_iff.2 (.inl ⟨rfl, rfl⟩)
  | cons m ms ih =>
    obtain ⟨below, hbelow⟩ := exists_sourceLines_eq_cons m
    have hfirst := hm m (by simp) _ m.firstLine_mem_headLines
    have hnext := isInside_head?_sourceLinesAll hcloser hn
      (fun d (hd : d ∈ ms) => hm d (by simp [hd])) rest
    have hhere := hread m (by simp) _ hnext
    have hrest := ih (fun d hd => hm d (by simp [hd])) fun d hd => hread d (by simp [hd])
    have hinside : isInside dent m.firstLine = true := by
      rw [isInside_of_indentation hfirst]
      simpa using hn
    have hcloses : closes m.firstLine dent closer = false := by
      refine Bool.eq_false_iff.2 fun hc => ?_
      have hspaces := leadingSpaces_of_indentation hfirst
      rw [closes_iff.1 hc, leadingSpaces_closingLine hcloser] at hspaces
      omega
    rw [sourceLinesAll, List.append_assoc]
    rw [hbelow, List.cons_append] at hhere ⊢
    exact readAll_eq_ok_iff.2 (.inr ⟨_, _, m, ms, _, rfl, rfl, hcloses, hinside, hhere, hrest⟩)

/-! ## Whole declarations -/

/-- Whether the members of a declaration are read back up to the line that closes them. -/
def MembersReread : Declaration → Prop
  | .leaf .. => True
  | .scope opener head members =>
    ∀ opened closer rest, closer.toList.head? = some '\x7d' →
      readAll opened (closingSpaces opener head) closer (sourceLinesAll members ++
        closingLine (closingSpaces opener head) closer :: rest) = .ok (members, rest)

/-- A declaration is read back by its shape if its members are read back. -/
theorem readBody_bodyLines {d : Declaration} {shape : Shape}
    (hc : classify d.signature d.lineBelow? = some shape) (hf : Forms shape d) {rest : List String}
    (hrest : ∀ l ∈ rest.head?, isInside (leadingSpaces d.signature) l = false)
    (hm : d.MembersReread) (place : Place) :
    readBody shape place d.head (d.bodyLines ++ rest) = .ok (d, rest) := by
  have hany := fun hf hm => classify_of_classify hc hf hm none
  have hlast := fun c => getLast?_of_classify (c := c) hc
  cases hf
  all_goals simp only [signature_leaf, signature_scope, head_leaf, head_scope] at *
  case closedEnum head h =>
    have hl : head.signature.toList.getLast? = some '\x7d' := by
      unfold endsWithAny at h
      split at h
      · next c hc' => rw [hc', List.mem_singleton.1 (List.contains_iff_mem.1 h)]
      · cases h
    simp [readBody, readLeaf, hl, bodyLines, leafEnd, closing_of_last_mem hl]
  case openEnum head lines h hl =>
    have hlast' : (head.signature.toList.getLast? == some '\x7d') = false := by
      refine beq_eq_false_iff_ne.2 fun he => ?_
      rw [endsWithAny_eq_contains he] at h
      cases h
    simp [readBody, readLeaf, hlast', bodyLines, leafEnd, closing, h, readLines_append hl,
      Except.map]
  case emptyClass head =>
    simp [readBody, readLeaf, bodyLines, scopeEnd, sourceLinesAll,
      fits_of_classify (hany (by decide) (by decide))]
  case openClass head members hdeep =>
    have hread := hm place "\x7d" rest rfl
    have hopen := not_fits_emptyClass_of_classify (hany (by decide) (by decide))
    simp only [closingSpaces, Option.getD_none] at hread
    simp [readBody, bodyLines, scopeEnd, hopen, hread, Except.map]
  case fieldClass head opener members hdeep =>
    have hread := fun opened => hm opened "\x7d;" rest rfl
    simp only [closingSpaces, Option.getD_some] at hread
    simp [readBody, bodyLines, scopeEnd, hread, Except.map]
  case abstractMethod head =>
    simp [readBody, readLeaf, bodyLines, leafEnd, closing_of_last_mem (hlast _ rfl)]
  case emptyMethod head =>
    simp [readBody, readLeaf, bodyLines, leafEnd, closing_of_last_mem (hlast _ rfl)]
  case openMethod head lines hl =>
    simp [readBody, readLeaf, bodyLines, leafEnd, closing_of_last (hlast _ rfl),
      readLines_append hl, Except.map]
  case field head => simp [readBody, readLeaf, bodyLines, leafEnd]
  case multilineField head lines hl =>
    simp [readBody, readLeaf, bodyLines, leafEnd, takeWhile_append_of_boundary hl hrest,
      dropWhile_append_of_boundary hl hrest]

theorem read_of_readBody_members {d : Declaration} (hd : d.Stable) {rest : List String}
    (hrest : ∀ l ∈ rest.head?, isInside (leadingSpaces d.signature) l = false)
    (hm : d.MembersReread) : read (d.sourceLines ++ rest) = .ok (d, rest) := by
  obtain ⟨shape, hshape, hforms⟩ := hd.formed.shaped
  have hbody := readBody_bodyLines hshape hforms hrest hm
  have hhead := headerLines_append hd.formed.header hd.formed.startsWithWord (d.bodyLines ++ rest)
  rw [sourceLines_eq, List.append_assoc, List.cons_append]
  refine read_eq_ok_iff.2 ⟨d.signature, d.bodyLines ++ rest, shape, hhead.2,
    classify_bodyLines hshape hforms hd.valued rest, ?_, hd.formed.named⟩
  rw [hhead.1]
  exact hbody _

/-- **The source of a declaration is read back**, whatever follows at its depth, if all its
declarations are stable. -/
theorem read_sourceLines (d : Declaration) (hd : ∀ c ∈ d.postorder, c.Stable) :
    ∀ rest, (∀ l ∈ rest.head?, isInside (leadingSpaces d.signature) l = false) →
      read (d.sourceLines ++ rest) = .ok (d, rest) := by
  induction d using ind with
  | leaf kind head lines =>
    intro rest hrest
    exact read_of_readBody_members (hd _ (self_mem_postorder _)) hrest trivial
  | scope opener head members ih =>
    intro rest hrest
    have hmembers : ∀ m ∈ members, ∀ c ∈ m.postorder, c.Stable := fun m hm c hc =>
      hd c (mem_postorder_scope.2 (Or.inl ⟨m, hm, hc⟩))
    have hscope := hd _ (self_mem_postorder (.scope opener head members))
    obtain ⟨n, hn, haligned⟩ := hscope.aligned
    refine read_of_readBody_members hscope hrest fun opened closer rest' hcloser => ?_
    refine readAll_sourceLinesAll hcloser hn haligned (fun m hm rest'' h => ?_) _ _
    refine ih m hm (hmembers m hm) rest'' fun l hl => ?_
    rw [leadingSpaces_of_indentation (haligned m hm _ m.signature_mem_headLines)]
    exact h l hl

/-! ## Blank lines -/

theorem Formed.isBlank_header {d : Declaration} (h : d.Formed) :
    ∀ l ∈ d.header, isBlank l = false := by
  intro l hl
  rw [← List.takeWhile_append_dropWhile (p := isComment) (l := d.header), List.mem_append] at hl
  rcases hl with hl | hl
  · exact isBlank_of_startsWith (c := '/') rfl rfl (List.all_eq_true.1 List.all_takeWhile l hl)
  · exact isBlank_of_isMarked (List.all_eq_true.1 h.header l hl)

theorem isBlank_closing {endings : List Char} {signature : String} :
    ∀ l ∈ closing endings signature, isBlank l = false := by
  intro l hl
  rw [← codeLines_closing] at hl
  exact isBlank_of_mem_codeLines hl

theorem isBlank_scopeEnd {opener : Option String} {signature : String} :
    ∀ l ∈ scopeEnd opener signature, isBlank l = false := by
  intro l hl
  cases opener with
  | some opener =>
    rw [List.mem_singleton.1 hl]
    exact isBlank_closingLine rfl _
  | none =>
    rw [scopeEnd] at hl
    split at hl
    · cases hl
    · rw [List.mem_singleton.1 hl]
      exact isBlank_closingLine rfl _

theorem isBlank_sourceLines (d : Declaration) (hd : ∀ c ∈ d.postorder, c.Stable) :
    ∀ l ∈ d.sourceLines, isBlank l = false := by
  induction d using ind with
  | leaf kind head lines =>
    have hleaf := hd _ (self_mem_postorder _)
    intro l hl
    simp only [sourceLines, List.mem_append, List.mem_cons] at hl
    rcases hl with hl | rfl | hl | hl
    · exact hleaf.formed.isBlank_header l hl
    · exact hleaf.formed.isBlank_signature
    · exact hleaf.lines lines rfl l hl
    · cases kind with
      | enum => exact isBlank_closing l hl
      | field => cases hl
      | method => exact isBlank_closing l hl
  | scope opener head members ih =>
    have hscope := hd _ (self_mem_postorder (.scope opener head members))
    intro l hl
    simp only [sourceLines, List.mem_append, List.mem_cons, sourceLinesAll_eq_flatMap,
      List.mem_flatMap, Option.mem_toList] at hl
    rcases hl with hl | rfl | (hl | ⟨m, hm, hl⟩) | hl
    · exact hscope.formed.isBlank_header l hl
    · exact hscope.formed.isBlank_signature
    · subst hl
      obtain ⟨shape, hshape, hforms⟩ := hscope.formed.shaped
      cases hforms
      exact isBlank_of_isOpener (isOpener_of_classify hshape)
    · exact ih m hm (fun c hc => hd c (mem_postorder_scope.2 (Or.inl ⟨m, hm, hc⟩))) l hl
    · exact isBlank_scopeEnd l hl

end Declaration

/-! ## Files -/

/-- What a regular file that was read has. -/
structure SourceFile.Stable (file : SourceFile) : Prop where
  preamble : ∀ l ∈ file.preamble, isPreamble l = true
  first : isPreamble file.root.firstLine = false
  declarations : ∀ d ∈ file.root.postorder, d.Stable

theorem isBlank_of_isPreamble {line : String} (h : isPreamble line = true) :
    isBlank line = false := by
  obtain ⟨start, hstart, hp⟩ := List.any_eq_true.1 h
  obtain ⟨rest, hrest⟩ := List.isPrefixOf_iff_prefix.1 hp
  have hhead : ∀ c, start.toList.head? = some c → isSpace c = false → isBlank line = false := by
    intro c hc hspace
    refine Bool.eq_false_iff.2 fun hb => ?_
    have hmem : c ∈ line.toList := by
      rw [← hrest]
      exact List.mem_append_left _ (List.mem_of_head? hc)
    exact Bool.false_ne_true (hspace.symm.trans (List.all_eq_true.1 hb c hmem))
  rcases (by simpa using hstart : start = "package " ∨ start = "import " ∨ start = "//") with
    rfl | rfl | rfl
  · exact hhead 'p' rfl rfl
  · exact hhead 'i' rfl rfl
  · exact hhead '/' rfl rfl

/-- A regular file that was read from lines without line feeds is stable. -/
theorem stable_of_parse {lines : List String} {file : SourceFile}
    (hn : ∀ line ∈ lines, '\n' ∉ line.toList) (h : SourceFile.parse lines = .ok file)
    (hr : ∀ d ∈ file.root.postorder, d.Regular) : file.Stable := by
  obtain ⟨hpreamble, hread⟩ := exists_read_of_parse h
  refine ⟨?_, ?_, fun d hd => ?_⟩
  · rw [hpreamble]
    exact List.all_eq_true.1 List.all_takeWhile
  · have hsource := Declaration.sourceLines_of_read file.root hread
    have hhead := List.head?_dropWhile_not isPreamble (codeLines lines)
    rw [hsource, List.append_nil, Declaration.head?_sourceLines] at hhead
    simpa using hhead
  · have hformed := formed_of_parse h d hd
    have hclosed : Declaration.dropsCloser d = false :=
      (hformed.dropsCloser_eq_false_iff (hn _ (signature_mem_of_parse h hd))).2 (hr d hd).closesOnce
    refine ⟨hformed, (hr d hd).aligned, (hr d hd).valued, hclosed, fun ls hls l hl => ?_⟩
    have hmem : l ∈ file.root.sourceLines := by
      refine Declaration.sourceLines_subset file.root d hd ?_
      cases d with
      | leaf kind head lines =>
        cases hls
        simp [Declaration.sourceLines, hl]
      | scope opener head members => cases hls
    exact isBlank_of_mem_codeLines (mem_of_mem_sourceLines h hmem)

theorem codeLines_compose_of_stable {file : SourceFile} (h : file.Stable) :
    codeLines file.compose = file.preamble ++ file.root.sourceLines := by
  have hpreamble := codeLines_eq_self fun l hl => isBlank_of_isPreamble (h.preamble l hl)
  have hblank := Declaration.isBlank_sourceLines file.root h.declarations
  rw [SourceFile.compose, codeLines_append, hpreamble,
    (Declaration.codeLines_compose_eq_iff hblank).2 fun c hc => (h.declarations c hc).closed]

/-- **What is written of a stable file is read back.** -/
theorem parse_compose_of_stable {file : SourceFile} (h : file.Stable) :
    SourceFile.parse file.compose = .ok file := by
  obtain ⟨below, hbelow⟩ := file.root.exists_sourceLines_eq_cons
  have hboundary : ∀ l ∈ file.root.sourceLines.head?, isPreamble l = false := by
    intro l hl
    rw [Declaration.head?_sourceLines] at hl
    obtain rfl := Option.some.inj hl
    exact h.first
  have hread := Declaration.read_sourceLines file.root h.declarations [] fun l hl => nomatch hl
  rw [List.append_nil, hbelow] at hread
  have hfile : SourceFile.read (codeLines file.compose) = .ok file := by
    rw [codeLines_compose_of_stable h, SourceFile.read,
      takeWhile_append_of_boundary h.preamble hboundary,
      dropWhile_append_of_boundary h.preamble hboundary, hbelow]
    simp only [hread]
  rw [SourceFile.parse, hfile]
  rfl

end HouseStyle
