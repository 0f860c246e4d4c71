import HouseStyle.Proofs.Block.Nested

/-!
# Reading again what was written

Writing changes the blank lines between logical lines.  Where a node begins, which block owns it and
what its decorators lead to depends on lines of code alone; where a logical line ends does not, since
a blank line ends what a backslash or a short string has left open.  A tree is *settled* if every
logical line that needs such a blank line has one in what is written.

* `settled`: the condition, decided on the tree.
* `reads_of_nestedAll`: what was written of a settled tree is read back if the tree is nested.
* `settledAll_of_reads`: only settled trees are read back.
* `parse_compose_iff_of_formed`: formed trees are read back exactly if they are settled and nested.
* `parse_compose_iff`: **a file that was read is read back from what is written exactly if its tree
  is settled.**
-/

namespace HouseStyle.Block

open Text

/-! ## Settled trees -/

/-- Whether a blank line is written below a node, given the nodes after it in its list; `followed`
says that one is written below the list. -/
def gapBelow (topLevel followed : Bool) (node : Node) (nodes : List Node) : Bool :=
  match nodes with
  | [] => followed
  | _ :: _ => 0 < blankLines topLevel (some node) nodes

mutual

/-- Whether the logical lines of a node end where they ended when they were read; `followed` says
that a blank line is written below the node. -/
def Node.settled (followed : Bool) : Node → Bool
  | .statement lines => isClosed lines || followed
  | .block _ header signature body =>
    decide (readDecorators (Text.indentation (firstOf header)) header = .ok (header, [])) &&
      (isClosed signature || body.isEmpty && followed) && settledAll false followed body

/-- Whether the logical lines of the nodes end where they ended when they were read; `followed` says
that a blank line is written below the last node. -/
def settledAll (topLevel followed : Bool) : List Node → Bool
  | [] => true
  | node :: nodes =>
    node.settled (gapBelow topLevel followed node nodes) && settledAll topLevel followed nodes

end

/-- Whether the logical lines of a file end where they ended when they were read. -/
def settled (nodes : List Node) : Bool := settledAll true false nodes

/-! ## Blank lines below -/

theorem beginsBlank_composeAfter {nodes : List Node} (hf : ∀ node ∈ nodes, Formed node)
    (topLevel : Bool) (node : Node) (below : List String) :
    beginsBlank (composeAfter topLevel (some node) nodes ++ below) =
      gapBelow topLevel (beginsBlank below) node nodes := by
  cases nodes with
  | nil => rfl
  | cons next nodes =>
    obtain ⟨tail, htail, hb⟩ := (hf next (by simp)).composeNode_eq
    rw [composeAfter, gapBelow, htail]
    cases blankLines topLevel (some node) (next :: nodes) with
    | zero => exact hb
    | succ n => rfl

theorem beginsBlank_body {nodes : List Node} (hf : ∀ node ∈ nodes, Formed node) (topLevel : Bool)
    (below : List String) :
    beginsBlank (composeAfter topLevel none nodes ++ below) =
      (nodes.isEmpty && beginsBlank below) := by
  cases nodes with
  | nil => rfl
  | cons node nodes =>
    obtain ⟨tail, htail, hb⟩ := (hf node (by simp)).composeNode_eq
    rw [composeAfter, htail]
    exact hb

/-! ## Decorators -/

theorem readDecorators_of_not {dent : Indentation} {line : String} {below : List String}
    (h : (isMarked line && indentation line == dent) = false) :
    readDecorators dent (line :: below) = .ok ([], line :: below) := by
  rw [readDecorators, if_neg (by simp [h])]

theorem readDecorators_of_logicalLine {dent : Indentation} {line : String}
    {below decorator rest : List String} (h : (isMarked line && indentation line == dent) = true)
    (hl : logicalLine line below = some (decorator, rest)) :
    readDecorators dent (line :: below) =
      (readDecorators dent (skipBlank rest)).map fun (more, rest) => (decorator ++ more, rest) := by
  rw [readDecorators, if_pos h]
  split
  · next hl' => rw [hl] at hl'; cases hl'
  · next hl' => rw [hl] at hl'; cases hl'; rfl

/-- Decorators that are read back by themselves are read back in front of any line that is neither
blank nor one of them. -/
theorem readDecorators_append {dent : Indentation} {lines header : List String} {line : String}
    {below : List String} (h : readDecorators dent lines = .ok (header, []))
    (hb : isBlank line = false) (hm : isMarked line = false) :
    readDecorators dent (lines ++ line :: below) = .ok (header, line :: below) := by
  fun_induction readDecorators dent lines generalizing header with
  | case1 =>
    cases h
    exact readDecorators_of_not (by simp [hm])
  | case2 => cases h
  | case3 first rest hd decorator after hl _ ih =>
    obtain ⟨⟨more, _⟩, hr, he⟩ := exists_of_map_eq_ok h
    cases he
    have hends : isClosed decorator = true ∨ beginsBlank (after ++ line :: below) = true := by
      refine (isClosed_or_beginsBlank hl).imp_right fun hblank => ?_
      cases after with
      | nil => cases hblank
      | cons => exact hblank
    have hskip : skipBlank (after ++ line :: below) = skipBlank after ++ line :: below := by
      rw [skipBlank, List.dropWhile_append]
      split
      · next hnil =>
        rw [skipBlank, List.isEmpty_iff.1 hnil]
        exact skipBlank_cons hb
      · rfl
    obtain ⟨kept, rfl, hl'⟩ := logicalLine_of_logicalLine hl hends
    rw [← append_of_logicalLine hl, List.append_assoc, List.cons_append,
      readDecorators_of_logicalLine hd hl', hskip, ih hr]
    rfl
  | case4 => cases h

theorem length_readDecorators_le {dent : Indentation} {lines header rest : List String}
    (h : readDecorators dent lines = .ok (header, rest)) :
    header.length + rest.length ≤ lines.length := by
  fun_induction readDecorators dent lines generalizing header rest with
  | case1 => cases h; exact Nat.le_refl _
  | case2 => cases h
  | case3 line below _ decorator after hl _ ih =>
    obtain ⟨⟨more, rest'⟩, hr, he⟩ := exists_of_map_eq_ok h
    cases he
    have hlines := congrArg List.length (append_of_logicalLine hl)
    have hskip := (skipBlank_sublist after).length_le
    have := ih hr
    rw [← hlines]
    simp only [List.length_append]
    omega
  | case4 => cases h; simp

/-- Decorators that take up all lines in front of what is left are read back by themselves. -/
theorem readDecorators_self {dent : Indentation} {lines header rest : List String}
    (h : readDecorators dent lines = .ok (header, rest)) (hlines : lines = header ++ rest) :
    readDecorators dent header = .ok (header, []) := by
  fun_induction readDecorators dent lines generalizing header rest with
  | case1 => cases h; rw [readDecorators]
  | case2 => cases h
  | case3 line below hd decorator after hl _ ih =>
    obtain ⟨⟨more, rest'⟩, hr, he⟩ := exists_of_map_eq_ok h
    cases he
    have hafter : after = more ++ rest := by
      have := (append_of_logicalLine hl).trans hlines
      rwa [List.append_assoc, List.append_cancel_left_eq] at this
    have hskip : skipBlank after = after := by
      refine (skipBlank_sublist after).eq_of_length_le ?_
      have hle := length_readDecorators_le hr
      rw [← List.length_append, ← hafter] at hle
      exact hle
    have hblank : beginsBlank after = false := hskip ▸ beginsBlank_skipBlank after
    have hmore : skipBlank more = more := by
      refine skipBlank_eq_self ?_
      cases more with
      | nil => rfl
      | cons first more => rw [hafter] at hblank; exact hblank
    have hclosed : isClosed decorator = true :=
      (isClosed_or_beginsBlank hl).resolve_right (by simp [hblank])
    obtain ⟨kept, rfl, hl'⟩ :
        ∃ kept, decorator = line :: kept ∧
          logicalLine line (kept ++ more) = some (decorator, more) :=
      logicalLine_of_logicalLine hl (Or.inl hclosed)
    rw [List.cons_append, readDecorators_of_logicalLine hd hl', hmore, ih hr (hskip.trans hafter)]
    rfl
  | case4 =>
    cases h
    rw [readDecorators]

/-! ## Settled, nested trees are read back -/

theorem isWithin_of_indentation {dent : Option Nat} {a b : String}
    (h : indentation a = indentation b) : isWithin dent a = isWithin dent b := by
  cases dent with
  | none => rfl
  | some dent => rw [isWithin, isWithin, Option.all_some, Option.all_some, isInside, isInside, h]

theorem isWithin_trans {dent : Option Nat} {level : Nat} {a line : String}
    (ha : isWithin dent a = true) (hi : indentation a = .spaces level)
    (hl : isWithin (some level) line = true) : isWithin dent line = true := by
  cases dent with
  | none => rfl
  | some dent =>
    simp only [isWithin, Option.all_some, isInside, Indentation.deeper, hi, Bool.not_eq_true'] at *
    refine Bool.eq_false_iff.2 fun hd => ?_
    have hle : (Indentation.spaces dent).atMost (.spaces level) = true :=
      (Indentation.atMost_total _ _).resolve_right (by simp [ha])
    exact Bool.false_ne_true (hl.symm.trans (Indentation.atMost_trans hd hle))

theorem entersAt_of_skipBlank {dent : Option Nat} {lines below : List String} {line : String}
    (h : skipBlank lines = line :: below) (hc : isComment line = false) :
    entersAt dent lines = isWithin dent line := by
  have hcode : codeLines lines = line :: codeLines below := by
    rw [← codeLines_dropWhile_isBlank, show lines.dropWhile isBlank = line :: below from h,
      codeLines_cons_of_not_isBlank (isBlank_of_skipBlank h)]
  have hfirst : firstCode lines = some line := by
    rw [firstCode, hcode, List.find?_cons_of_pos (by simp [hc])]
  rw [entersAt, landmarkLine_of_firstCode hfirst]
  rfl

/-- Decorators end in front of a line that is neither one of them nor opens a block at their
indentation. -/
theorem exists_readDecorators_of_ne {dent : Indentation} {first : String} {rest : List String}
    (h : isMarked first = true ∨ (kind? first).isSome = true → indentation first ≠ dent) :
    ∃ header after, readDecorators dent (first :: rest) = .ok (header, after) ∧
      opensAt dent after = false := by
  refine ⟨[], first :: rest, readDecorators_of_not ?_, ?_⟩
  · refine Bool.eq_false_iff.2 fun hm => ?_
    rw [Bool.and_eq_true, beq_iff_eq] at hm
    exact h (Or.inl hm.1) hm.2
  · refine Bool.eq_false_iff.2 fun hk => ?_
    rw [opensAt, Bool.and_eq_true, beq_iff_eq] at hk
    exact h (Or.inr hk.2) hk.1

theorem exists_readDecorators_below {dent : Option Nat} {below : List String} {line : String}
    (hline : isWithin dent line = true) (hbelow : entersAt dent below = false) :
    ∃ header after, readDecorators (indentation line) (skipBlank below) = .ok (header, after) ∧
      opensAt (indentation line) after = false := by
  cases hs : skipBlank below with
  | nil => exact ⟨[], [], by rw [readDecorators], rfl⟩
  | cons first rest =>
    refine exists_readDecorators_of_ne fun hopens hi => ?_
    have hcode : isComment first = false := by
      rcases hopens with hm | hk
      · exact isComment_of_isMarked hm
      · obtain ⟨kind, hk⟩ := Option.isSome_iff_exists.1 hk
        exact isComment_of_kind? hk
    rw [entersAt_of_skipBlank hs hcode, isWithin_of_indentation hi, hline] at hbelow
    cases hbelow

/-- Where a decorator by itself is followed by no block of its indentation in a list of nodes, it
leads to none in what is written of them. -/
theorem exists_readDecorators {dent : Option Nat} {topLevel : Bool} {below : List String}
    {line : String} (hline : isWithin dent line = true) (hbelow : entersAt dent below = false) :
    ∀ {nodes : List Node} {before : Option Node}, (∀ node ∈ nodes, Formed node) →
      nestedAll dent nodes = true → settledAll topLevel (beginsBlank below) nodes = true →
      (∀ next ∈ nodes.head?, next.isBlock = true → next.indentation ≠ indentation line) →
      ∃ header after, readDecorators (indentation line)
          (skipBlank (composeAfter topLevel before nodes ++ below)) = .ok (header, after) ∧
        opensAt (indentation line) after = false := by
  intro nodes
  induction nodes with
  | nil =>
    intro before _ _ _ _
    rw [composeAfter, List.nil_append]
    exact exists_readDecorators_below hline hbelow
  | cons node nodes ih =>
    intro before hf hn hs hnext
    obtain ⟨hnode, hnodes⟩ := List.forall_mem_cons.1 hf
    obtain ⟨hstands, -, htailnested⟩ := nestedAll_cons_iff.1 hn
    rw [settledAll, Bool.and_eq_true] at hs
    rw [hnode.skipBlank_composeAfter]
    obtain ⟨tail, htail, -⟩ := hnode.composeNode_eq
    by_cases hd : node.isDecorator = true ∧ node.indentation = indentation line
    · cases hnode with
      | block => exact absurd hd.1 Bool.false_ne_true
      | @statement physical hl hk =>
        have hends := hs.1
        rw [Node.settled, Bool.or_eq_true, ← beginsBlank_composeAfter hnodes] at hends
        obtain ⟨kept, hkept, hl'⟩ := hl.logicalLine hends
        have hmarked : (isMarked (firstOf physical) &&
            indentation (firstOf physical) == indentation line) = true := by
          rw [Bool.and_eq_true, beq_iff_eq]
          exact hd
        have hdecorator : ∀ next ∈ nodes.head?, next.isBlock = true →
            next.indentation ≠ indentation line := by
          intro next hnext hblock
          rw [← hd.2]
          exact hstands.decorator hd.1 next hnext hblock
        obtain ⟨header, after, hread, hopens⟩ :=
          @ih (some (.statement physical)) hnodes htailnested hs.2 hdecorator
        refine ⟨physical ++ header, after, ?_, hopens⟩
        have hlines : ∀ written, physical ++ written = firstOf physical :: (kept ++ written) :=
          fun written => congrArg (· ++ written) hkept
        rw [composeNode, hlines, readDecorators_of_logicalLine hmarked hl', hread]
        rfl
    · rw [htail, List.cons_append]
      refine exists_readDecorators_of_ne fun hopens hi => ?_
      cases hnode with
      | block => exact hnext _ rfl rfl hi
      | @statement physical hl hk =>
        rcases hopens with hm | hopens
        · exact hd ⟨hm, hi⟩
        · rw [show Node.firstLine (.statement physical) = firstOf physical from rfl, hk] at hopens
          cases hopens

theorem exists_opening? {kind : Kind} {header signature kept written : List String}
    {body : List Node} (hf : Formed (.block kind header signature body))
    (hs : readDecorators (indentation (firstOf header)) header = .ok (header, []))
    (hkept : signature = firstOf signature :: kept) :
    ∃ line below, header ++ (signature ++ written) = line :: below ∧ isBlank line = false ∧
      opening? line below = .ok (some ⟨kind, header, firstOf signature, kept ++ written⟩) := by
  cases hf with
  | block hl hk hn hh hb =>
    have hline := isBlank_of_kind? hk
    cases header with
    | nil =>
      refine ⟨firstOf signature, kept ++ written, ?_, hline, ?_⟩
      · rw [List.nil_append, ← List.cons_append, ← hkept]
      · exact opening?_eq_some_iff.2 ⟨hk, Or.inl ⟨isMarked_of_kind? hk, rfl, rfl, rfl⟩⟩
    | cons line header =>
      obtain ⟨hm, hi⟩ := hh line rfl
      refine ⟨line, header ++ (signature ++ written), rfl, isBlank_of_isMarked hm, ?_⟩
      refine opening?_eq_some_iff.2 ⟨hk, Or.inr ⟨hm, hi, ?_⟩⟩
      have hlines : signature ++ written = firstOf signature :: (kept ++ written) :=
        congrArg (· ++ written) hkept
      rw [hlines]
      exact readDecorators_append hs hline (isMarked_of_kind? hk)

section

variable {dent : Option Nat} {topLevel : Bool} {before : Option Node} {below : List String}
  {node : Node} {nodes : List Node}

/-- What is written of nested nodes lies deeper than the line that opens their list. -/
theorem entersAt_composeAfter (hf : ∀ n ∈ node :: nodes, Formed n)
    (hn : nestedAll dent (node :: nodes) = true)
    (hends : endsInCommentAll (node :: nodes) = true → firstCode below = none) :
    entersAt dent (composeAfter topLevel before (node :: nodes) ++ below) = true := by
  have hne : node :: nodes ≠ [] := List.cons_ne_nil _ _
  by_cases hall : ∀ n ∈ node :: nodes, n.isComment = true
  · have hnone := hends (endsInCommentAll_of_all hne hall)
    have hplace : node.isComment = false ∨ ∀ n ∈ nodes, n.isComment = true :=
      Or.inr (List.forall_mem_cons.1 hall).2
    rw [entersAt, landmarkLine_composeAfter hf _ _ _ hne (Or.inr hnone), landmark_cons hplace]
    exact (nestedAll_cons_iff.1 hn).1.inside hplace
  · have hcode := exists_isComment_eq_false hall
    rw [entersAt, landmarkLine_composeAfter hf _ _ _ hne (Or.inl hcode), landmark]
    cases hfind : (node :: nodes).find? fun n => !n.isComment with
    | none => exact absurd (find?_eq_none_iff_all.1 hfind) hall
    | some next =>
      refine isWithin_of_mem_nestedAll hn (List.mem_of_find?_eq_some hfind) ?_
      simpa using List.find?_some hfind

theorem entersAt_below_block {kind : Kind} {header signature : List String} {body : List Node}
    (hblock : node = .block kind header signature body) (hf : ∀ n ∈ node :: nodes, Formed n)
    (hn : nestedAll dent (node :: nodes) = true) (hbelow : entersAt dent below = false)
    (hends : endsInCommentAll (node :: nodes) = true → firstCode below = none) :
    entersAt (some (leadingSpaces (firstOf signature)))
      (composeAfter topLevel before nodes ++ below) = false := by
  obtain ⟨hnode, hnodes⟩ := List.forall_mem_cons.1 hf
  obtain ⟨hstands, -, -⟩ := nestedAll_cons_iff.1 hn
  subst hblock
  by_cases hne : nodes = []
  · subst hne
    rw [composeAfter, List.nil_append]
    rw [entersAt] at hbelow ⊢
    cases hmark : landmarkLine below with
    | none => rfl
    | some line =>
      rw [hmark] at hbelow
      refine Bool.eq_false_iff.2 fun hwithin => ?_
      have := isWithin_trans (hstands.inside (Or.inl rfl)) hnode.indentation_block hwithin
      exact Bool.false_ne_true (hbelow.symm.trans this)
  · have hjudged : (∃ n ∈ nodes, n.isComment = false) ∨ firstCode below = none := by
      refine exists_isComment_eq_false_or fun hall => hends ?_
      rw [endsInCommentAll_cons hne]
      exact endsInCommentAll_of_all hne hall
    rw [entersAt, landmarkLine_composeAfter hnodes _ _ _ hne hjudged]
    cases hmark : landmark nodes with
    | none => rfl
    | some next =>
      have hlevel := hstands.level rfl next hmark
      rw [hnode.indentation_block] at hlevel
      simpa [isWithin, isInside, Node.indentation, Indentation.deeper] using hlevel

theorem firstCode_below_block (hf : ∀ n ∈ node :: nodes, Formed n)
    (hn : nestedAll dent (node :: nodes) = true) (hcomment : node.endsInComment = true)
    (hends : endsInCommentAll (node :: nodes) = true → firstCode below = none) :
    firstCode (composeAfter topLevel before nodes ++ below) = none := by
  have hall := (nestedAll_cons_iff.1 hn).1.comment hcomment
  rw [firstCode_composeAfter (List.forall_mem_cons.1 hf).2, find?_eq_none_iff_all.2 hall,
    Option.map_none, Option.none_or]
  refine hends ?_
  by_cases hne : nodes = []
  · rw [hne, endsInCommentAll, hcomment, Bool.or_true]
  · rw [endsInCommentAll_cons hne]
    exact endsInCommentAll_of_all hne hall

theorem opening?_of_statement {physical kept : List String}
    (hf : ∀ n ∈ .statement physical :: nodes, Formed n)
    (hn : nestedAll dent (.statement physical :: nodes) = true)
    (hs : settledAll topLevel (beginsBlank below) nodes = true) (hbelow : entersAt dent below = false)
    (hl : logicalLine (firstOf physical)
      (kept ++ (composeAfter topLevel (some (.statement physical)) nodes ++ below)) =
        some (physical, composeAfter topLevel (some (.statement physical)) nodes ++ below)) :
    opening? (firstOf physical)
      (kept ++ (composeAfter topLevel (some (.statement physical)) nodes ++ below)) = .ok none := by
  obtain ⟨hnode, hnodes⟩ := List.forall_mem_cons.1 hf
  obtain ⟨hstands, -, hn⟩ := nestedAll_cons_iff.1 hn
  rw [opening?_eq_none_iff]
  by_cases hm : isMarked (firstOf physical) = true
  · refine Or.inr ⟨hm, ?_⟩
    have hmarked : (isMarked (firstOf physical) &&
        indentation (firstOf physical) == indentation (firstOf physical)) = true := by simp [hm]
    have hcode : Node.isComment (.statement physical) = false := by
      rw [← hnode.isComment_firstLine]
      exact isComment_of_isMarked hm
    obtain ⟨header, after, hread, hopens⟩ : ∃ header after,
        readDecorators (indentation (firstOf physical))
          (skipBlank (composeAfter topLevel (some (.statement physical)) nodes ++ below)) =
            .ok (header, after) ∧ opensAt (indentation (firstOf physical)) after = false :=
      exists_readDecorators (hstands.inside (Or.inl hcode)) hbelow hnodes hn hs
        (hstands.decorator hm)
    refine ⟨physical ++ header, after, ?_, hopens⟩
    rw [readDecorators_of_logicalLine hmarked hl, hread]
    rfl
  · cases hnode with
    | statement _ hk => exact Or.inl ⟨Bool.eq_false_iff.2 hm, hk⟩

end

/-- **What is written of a settled, nested tree is read back**, in front of any text that lies no
deeper and is no code if the tree ends with a comment. -/
theorem reads_of_nestedAll {nodes : List Node} :
    ∀ {dent : Option Nat} {topLevel : Bool} {before : Option Node} {below : List String},
      (∀ node ∈ nodes, Formed node) → nestedAll dent nodes = true →
      settledAll topLevel (beginsBlank below) nodes = true → entersAt dent below = false →
      (endsInCommentAll nodes = true → firstCode below = none) →
      Reads dent (composeAfter topLevel before nodes ++ below) nodes (skipBlank below) := by
  induction nodes using nodes_induction with
  | nil =>
    intro dent topLevel before below _ _ _ hbelow _
    rw [composeAfter, List.nil_append]
    cases hs : skipBlank below with
    | nil => exact .nil hs
    | cons line rest => exact .stop hs ((continues_eq_entersAt hs dent).trans hbelow)
  | statement physical nodes ih =>
    intro dent topLevel before below hf hn hs hbelow hends
    obtain ⟨hnode, hnodes⟩ := List.forall_mem_cons.1 hf
    have henters : entersAt dent (composeAfter topLevel before (.statement physical :: nodes) ++
        below) = true := entersAt_composeAfter hf hn hends
    rw [settledAll, Bool.and_eq_true, Node.settled, Bool.or_eq_true,
      ← beginsBlank_composeAfter hnodes topLevel (.statement physical)] at hs
    have hw := hnode.skipBlank_composeAfter topLevel before nodes below
    cases hnode with
    | statement hl hk =>
      obtain ⟨kept, hkept, hl'⟩ := hl.logicalLine hs.1
      rw [composeNode, hkept, List.cons_append, ← hkept] at hw
      exact .statement hw ((continues_eq_entersAt hw dent).trans henters)
        (opening?_of_statement hf hn hs.2 hbelow hl') hl'
        (ih hnodes (nestedAll_cons_iff.1 hn).2.2 hs.2 hbelow
          fun h => hends (endsInCommentAll_of_tail h))
  | block kind header signature body nodes ihb ihr =>
    intro dent topLevel before below hf hn hs hbelow hends
    obtain ⟨hnode, hnodes⟩ := List.forall_mem_cons.1 hf
    obtain ⟨-, hnbody, hnnodes⟩ := nestedAll_cons_iff.1 hn
    have henters : entersAt dent (composeAfter topLevel before
        (.block kind header signature body :: nodes) ++ below) = true :=
      entersAt_composeAfter hf hn hends
    have hbelow' : entersAt (some (leadingSpaces (firstOf signature)))
        (composeAfter topLevel (some (.block kind header signature body)) nodes ++ below) = false :=
      entersAt_below_block rfl hf hn hbelow hends
    have hcomment : endsInCommentAll body = true → firstCode (composeAfter topLevel
        (some (.block kind header signature body)) nodes ++ below) = none :=
      fun h => firstCode_below_block hf hn h hends
    rw [settledAll, Bool.and_eq_true, Node.settled, Bool.and_eq_true, Bool.and_eq_true,
      Bool.or_eq_true, Bool.and_eq_true, decide_eq_true_eq,
      ← beginsBlank_composeAfter hnodes topLevel (.block kind header signature body)] at hs
    obtain ⟨⟨⟨hheader, hsignature⟩, hsbody⟩, hsnodes⟩ := hs
    have hw := hnode.skipBlank_composeAfter topLevel before nodes below
    have hblock := hnode
    cases hnode with
    | block hl hk hname hh hb =>
      have hclosed : isClosed signature = true ∨ beginsBlank (composeAfter false none body ++
          (composeAfter topLevel (some (.block kind header signature body)) nodes ++ below)) =
            true := by
        rw [beginsBlank_body hb, Bool.and_eq_true]
        exact hsignature
      obtain ⟨kept, hkept, hl'⟩ := hl.logicalLine hclosed
      obtain ⟨line, written, hwritten, -, ho⟩ := exists_opening? hblock hheader hkept
      rw [composeNode, List.append_assoc, List.append_assoc, hwritten] at hw
      have hrest : Reads dent (composeAfter topLevel (some (.block kind header signature body))
          nodes ++ below) nodes (skipBlank below) :=
        ihr hnodes hnnodes hsnodes hbelow fun h => hends (endsInCommentAll_of_tail h)
      exact .block hw ((continues_eq_entersAt hw dent).trans henters) ho hl' hname
        (ihb hb hnbody hsbody hbelow' hcomment) (hrest.of_skipBlank (skipBlank_skipBlank _).symm)

/-- What is written of a settled tree that was read is read back, whatever lines of code follow. -/
theorem Reads.reread {dent : Option Nat} {lines rest : List String} {nodes : List Node}
    (h : Reads dent lines nodes rest) {topLevel : Bool} {before : Option Node}
    {below : List String} (hcode : codeLines below = codeLines rest)
    (hs : settledAll topLevel (beginsBlank below) nodes = true) :
    Reads dent (composeAfter topLevel before nodes ++ below) nodes (skipBlank below) := by
  obtain ⟨hn, hends⟩ := nestedAll_of_reads h
  refine reads_of_nestedAll (formed_of_reads h) hn hs ?_ ?_
  · rw [entersAt_congr hcode]
    exact h.entersAt_rest
  · rw [firstCode_congr hcode]
    exact hends

/-! ## Only settled trees are read back -/

/-- The decorators of a block that is read back are read back by themselves. -/
theorem readDecorators_of_opening? {line : String} {below written : List String} {o : Opening}
    (ho : opening? line below = .ok (some o)) (hw : line :: below = o.header ++ written)
    (hb : beginsBlank written = false) :
    o.line :: o.below = written ∧
      readDecorators (indentation (firstOf o.header)) o.header = .ok (o.header, []) := by
  obtain ⟨hkind, ⟨-, hheader, hline, hbelow⟩ | ⟨hm, -, hread⟩⟩ := opening?_eq_some_iff.1 ho
  · rw [hheader] at hw ⊢
    exact ⟨by rw [hline, hbelow, hw, List.nil_append], by rw [readDecorators]⟩
  · obtain ⟨decorators, hheader, ht⟩ := takes_readDecorators hread
    obtain ⟨taken, htaken, hspread⟩ := ht.spread
    have hcode : codeLines (o.line :: o.below) = codeLines written := by
      have := congrArg codeLines (htaken.symm.trans hw)
      rwa [codeLines_append, codeLines_append, hspread.codeLines_eq, hheader,
        List.append_cancel_left_eq] at this
    have hwritten : o.line :: o.below = written := by
      have hrest : o.line :: o.below <:+ line :: below := htaken ▸ List.suffix_append _ _
      have hend : written <:+ line :: below := hw ▸ List.suffix_append _ _
      have := dropWhile_isBlank_eq_of_suffix hrest hend hcode
      rwa [show (o.line :: o.below).dropWhile isBlank = o.line :: o.below from
        skipBlank_cons (isBlank_of_kind? hkind),
        show written.dropWhile isBlank = written from skipBlank_eq_self hb] at this
    have hfirst : firstOf o.header = line := by rw [firstOf, head?_of_readDecorators hm hread]; rfl
    rw [hfirst]
    exact ⟨hwritten, readDecorators_self hread (by rw [hw, hwritten])⟩

/-- **Only settled trees are read back** from what is written of them. -/
theorem settledAll_of_reads {dent : Option Nat} {lines rest : List String} {nodes : List Node}
    (h : Reads dent lines nodes rest) :
    ∀ {topLevel : Bool} {before : Option Node} {below : List String},
      skipBlank lines = skipBlank (composeAfter topLevel before nodes ++ below) →
      settledAll topLevel (beginsBlank below) nodes = true := by
  induction h with
  | nil => exact fun _ => rfl
  | stop => exact fun _ => rfl
  | @statement dent lines line below' physical after rest nodes h hc ho hl hr ih =>
    intro topLevel before below hw
    obtain ⟨hnode, hnodes⟩ := List.forall_mem_cons.1 (formed_of_reads (.statement h hc ho hl hr))
    rw [hnode.skipBlank_composeAfter, composeNode, h, ← append_of_logicalLine hl,
      List.append_cancel_left_eq] at hw
    rw [settledAll, Bool.and_eq_true, Node.settled, Bool.or_eq_true,
      ← beginsBlank_composeAfter hnodes topLevel (.statement physical)]
    refine ⟨?_, ih (congrArg skipBlank hw)⟩
    rw [← hw]
    exact isClosed_or_beginsBlank hl
  | @block dent lines line below' signature after middle rest o body nodes h hc ho hl hn hb hr
      ihb ihr =>
    intro topLevel before below hw
    obtain ⟨hnode, hnodes⟩ := List.forall_mem_cons.1 (formed_of_reads (.block h hc ho hl hn hb hr))
    rw [hnode.skipBlank_composeAfter, composeNode, h, List.append_assoc, List.append_assoc] at hw
    have hline := isBlank_of_kind? (opening?_eq_some_iff.1 ho).1
    have hfirst : ∀ ls, beginsBlank (signature ++ ls) = false := by
      obtain ⟨kept, rfl, -⟩ := logicalLine_eq_some hl
      exact fun ls => hline
    obtain ⟨hwritten, hheader⟩ := readDecorators_of_opening? ho hw (hfirst _)
    rw [← append_of_logicalLine hl, List.append_cancel_left_eq] at hwritten
    have hafter := hb.codeLines_eq false none
    rw [hwritten, codeLines_append (composeAfter false none body),
      codeLines_append (composeAfter false none body), List.append_cancel_left_eq] at hafter
    -- what is left below the body has the lines of code of what is written below it
    have hmiddle := dropWhile_isBlank_eq_of_suffix hb.suffix
      (hwritten ▸ List.suffix_append (composeAfter false none body) _) hafter.symm
    have hends := isClosed_or_beginsBlank hl
    rw [hwritten, beginsBlank_body (formed_of_reads hb), Bool.and_eq_true] at hends
    rw [settledAll, Bool.and_eq_true, Node.settled, Bool.and_eq_true, Bool.and_eq_true,
      Bool.or_eq_true, Bool.and_eq_true, decide_eq_true_eq, ← beginsBlank_composeAfter hnodes]
    exact ⟨⟨⟨hheader, hends⟩, ihb (congrArg skipBlank hwritten)⟩, ihr hmiddle⟩

/-! ## Files -/

theorem parse_eq_ok_iff {lines : List String} {nodes : List Node} :
    parse lines = .ok nodes ↔ Reads none lines nodes [] := by
  constructor
  · intro h
    obtain ⟨rest, hr⟩ := reads_of_parse h
    rwa [rest_of_reads_none hr] at hr
  · intro h
    rw [parse, h.read_ok]
    rfl

/-- **Formed nodes are read back from what is written of them exactly if they are settled and
nested**, wherever they come from. -/
theorem parse_compose_iff_of_formed {nodes : List Node} (hf : ∀ node ∈ nodes, Formed node) :
    parse (compose true nodes) = .ok nodes ↔ settled nodes = true ∧ nested nodes = true := by
  have happend : composeAfter true none nodes ++ [] = compose true nodes := List.append_nil _
  rw [parse_eq_ok_iff]
  constructor
  · intro hw
    exact ⟨settledAll_of_reads hw (congrArg skipBlank happend.symm), (nestedAll_of_reads hw).1⟩
  · rintro ⟨hs, hn⟩
    have hw : Reads none (composeAfter true none nodes ++ []) nodes (skipBlank []) :=
      reads_of_nestedAll hf hn hs (entersAt_eq_false_of_skipBlank rfl none) fun _ => rfl
    rwa [happend] at hw

/-- **A file that was read is read back from what is written exactly if its tree is settled.** -/
theorem parse_compose_iff {lines : List String} {nodes : List Node} (h : parse lines = .ok nodes) :
    parse (compose true nodes) = .ok nodes ↔ settled nodes = true := by
  have hr := parse_eq_ok_iff.1 h
  have happend : composeAfter true none nodes ++ [] = compose true nodes := List.append_nil _
  rw [parse_eq_ok_iff]
  constructor
  · intro hw
    exact settledAll_of_reads hw (congrArg skipBlank happend.symm)
  · intro hs
    have hw : Reads none (composeAfter true none nodes ++ []) nodes (skipBlank []) :=
      hr.reread rfl hs
    rwa [happend] at hw

/-- Brackets go on past blank lines, and so does a string in triple quotation marks. -/
theorem parse_compose_brackets :
    ∃ nodes, parse ["x = [", "", "]", "def f():", "    return x"] = .ok nodes ∧
      parse (compose true nodes) = .ok nodes := by
  have h : parse ["x = [", "", "]", "def f():", "    return x"] =
      .ok [.statement ["x = [", "", "]"],
        .block .function [] ["def f():"] [.statement ["    return x"]]] := by decide +kernel
  exact ⟨_, h, (parse_compose_iff h).2 (by decide +kernel)⟩

/-- A backslash in front of a blank line: what is written joins two statements. -/
theorem parse_compose_ne_of_backslash :
    ∃ nodes, parse ["x = 1 \\", "", "y = 2"] = .ok nodes ∧
      parse (compose true nodes) ≠ .ok nodes :=
  ⟨[.statement ["x = 1 \\"], .statement ["y = 2"]], by decide +kernel, by decide +kernel⟩

end HouseStyle.Block
