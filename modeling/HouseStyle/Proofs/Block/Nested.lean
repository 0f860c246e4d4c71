import HouseStyle.Proofs.Block.Formed

/-!
# Where nodes may stand

The reader judges the place of a line by its indentation, and the place of a comment by the code
below it.  Both depend on what follows, so that a node which is read at one place may not be read at
another one.  A tree is *nested* if every node of it stands where the reader finds it.

* `landmarkLine`, `entersAt`: the line by which the place of a text is judged, and the judgement.
* `Node.Stands`: what a node needs of the nodes below it in its list.
* `nested`: trees all nodes of which stand where they are found.
* `nestedAll_of_reads`: trees that were read are nested.
-/

namespace HouseStyle.Block

open Text

/-! ## Definitions -/

/-- The first line of code that is no comment. -/
def firstCode (lines : List String) : Option String := (codeLines lines).find? fun l => !isComment l

/-- The line by which the place of a text is judged: the first code, or if all of it is comments the
first of them. -/
def landmarkLine (lines : List String) : Option String :=
  (firstCode lines).or (codeLines lines).head?

/-- Whether a line is deeper than `dent`; every line is if there is no `dent`. -/
def isWithin (dent : Option Nat) (line : String) : Bool := dent.all fun dent => isInside dent line

/-- Whether a text begins with something deeper than `dent`. -/
def entersAt (dent : Option Nat) (lines : List String) : Bool :=
  (landmarkLine lines).any (isWithin dent)

/-- The node by which the place of a list of nodes is judged. -/
def landmark (nodes : List Node) : Option Node :=
  (nodes.find? fun node => !node.isComment).or nodes.head?

/-- Whether the node is a decorator that belongs to no block. -/
def Node.isDecorator : Node → Bool
  | .statement lines => isMarked (firstOf lines)
  | .block _ _ _ _ => false

mutual

/-- Whether a block ends with a comment of its body. -/
def Node.endsInComment : Node → Bool
  | .statement _ => false
  | .block _ _ _ body => endsInCommentAll body

/-- Whether the last line of some nodes is a comment. -/
def endsInCommentAll : List Node → Bool
  | [] => false
  | [node] => node.isComment || node.endsInComment
  | _ :: node :: nodes => endsInCommentAll (node :: nodes)

end

/-- What a node needs of the nodes below it in a list of nodes deeper than `dent`. -/
structure Node.Stands (dent : Option Nat) (node : Node) (nodes : List Node) : Prop where
  /-- It is deeper than `dent`; a comment in front of code goes by that code. -/
  inside : node.isComment = false ∨ (∀ n ∈ nodes, n.isComment = true) →
    isWithin dent node.firstLine = true
  /-- What follows a block is no deeper than the block. -/
  level : node.isBlock = true →
    ∀ next ∈ landmark nodes, next.indentation.atMost node.indentation = true
  /-- A decorator by itself is not one of the block below it. -/
  decorator : node.isDecorator = true →
    ∀ next ∈ nodes.head?, next.isBlock = true → next.indentation ≠ node.indentation
  /-- Only comments follow a block that ends with a comment of its body. -/
  comment : node.endsInComment = true → ∀ n ∈ nodes, n.isComment = true

instance (dent : Option Nat) (node : Node) (nodes : List Node) :
    Decidable (node.Stands dent nodes) :=
  decidable_of_iff
    ((node.isComment = false ∨ (∀ n ∈ nodes, n.isComment = true) →
        isWithin dent node.firstLine = true) ∧
      (node.isBlock = true →
        ∀ next ∈ landmark nodes, next.indentation.atMost node.indentation = true) ∧
      (node.isDecorator = true →
        ∀ next ∈ nodes.head?, next.isBlock = true → next.indentation ≠ node.indentation) ∧
      (node.endsInComment = true → ∀ n ∈ nodes, n.isComment = true))
    ⟨fun ⟨h1, h2, h3, h4⟩ => ⟨h1, h2, h3, h4⟩, fun ⟨h1, h2, h3, h4⟩ => ⟨h1, h2, h3, h4⟩⟩

mutual

/-- Whether the nodes inside a node stand where they are found. -/
def Node.nested : Node → Bool
  | .statement _ => true
  | .block _ _ signature body => nestedAll (some (leadingSpaces (firstOf signature))) body

/-- Whether some nodes and those inside them stand where they are found. -/
def nestedAll (dent : Option Nat) : List Node → Bool
  | [] => true
  | node :: nodes => decide (node.Stands dent nodes) && node.nested && nestedAll dent nodes

end

/-- Whether the nodes of a file stand where they are found. -/
def nested (nodes : List Node) : Bool := nestedAll none nodes

/-! ## Nested lists -/

section

variable {dent : Option Nat} {node : Node} {nodes : List Node}

theorem nestedAll_cons_iff : nestedAll dent (node :: nodes) = true ↔
    node.Stands dent nodes ∧ node.nested = true ∧ nestedAll dent nodes = true := by
  rw [nestedAll, Bool.and_eq_true, Bool.and_eq_true, decide_eq_true_eq, and_assoc]

theorem endsInCommentAll_cons (h : nodes ≠ []) :
    endsInCommentAll (node :: nodes) = endsInCommentAll nodes := by
  cases nodes with
  | nil => exact absurd rfl h
  | cons next nodes => rw [endsInCommentAll]

theorem endsInCommentAll_of_tail (h : endsInCommentAll nodes = true) :
    endsInCommentAll (node :: nodes) = true := by
  cases nodes with
  | nil => cases h
  | cons => exact h

theorem endsInCommentAll_of_all (hne : nodes ≠ []) (h : ∀ n ∈ nodes, n.isComment = true) :
    endsInCommentAll nodes = true := by
  induction nodes with
  | nil => exact absurd rfl hne
  | cons node nodes ih =>
    obtain ⟨hnode, hnodes⟩ := List.forall_mem_cons.1 h
    by_cases hnil : nodes = []
    · rw [hnil, endsInCommentAll, hnode, Bool.true_or]
    · rw [endsInCommentAll_cons hnil]
      exact ih hnil hnodes

theorem nestedAll_of_append {before : List Node} (h : nestedAll dent (before ++ nodes) = true) :
    nestedAll dent nodes = true := by
  induction before with
  | nil => exact h
  | cons node before ih => exact ih (nestedAll_cons_iff.1 h).2.2

theorem Node.nested_of_mem (h : nestedAll dent nodes = true) (hmem : node ∈ nodes) :
    node.nested = true := by
  induction nodes with
  | nil => cases hmem
  | cons first nodes ih =>
    obtain ⟨-, hfirst, hnodes⟩ := nestedAll_cons_iff.1 h
    rcases List.mem_cons.1 hmem with rfl | hmem
    · exact hfirst
    · exact ih hnodes hmem

theorem exists_nestedAll_of_mem_listsWithin (h : node.nested = true) :
    ∀ l ∈ node.listsWithin, ∃ dent, nestedAll dent l = true := by
  induction node using node_induction with
  | statement lines =>
    intro l hl
    rw [Node.listsWithin] at hl
    cases hl
  | block kind header signature body ih =>
    intro l hl
    rw [Node.nested] at h
    rw [listsWithin_block, lists_eq, List.mem_append, List.mem_flatMap, List.mem_singleton] at hl
    rcases hl with ⟨n, hn, hl⟩ | rfl
    · exact ih n hn (Node.nested_of_mem h hn) l hl
    · exact ⟨_, h⟩

theorem exists_nestedAll_of_mem_lists (h : nestedAll dent nodes = true) {l : List Node}
    (hl : l ∈ Node.lists nodes) : ∃ dent, nestedAll dent l = true := by
  rw [lists_eq, List.mem_append, List.mem_flatMap, List.mem_singleton] at hl
  rcases hl with ⟨n, hn, hl⟩ | rfl
  · exact exists_nestedAll_of_mem_listsWithin (Node.nested_of_mem h hn) l hl
  · exact ⟨dent, h⟩

theorem isWithin_of_mem_nestedAll (h : nestedAll dent nodes = true) (hmem : node ∈ nodes)
    (hcode : node.isComment = false) : isWithin dent node.firstLine = true := by
  induction nodes with
  | nil => cases hmem
  | cons first nodes ih =>
    obtain ⟨hstands, -, hnodes⟩ := nestedAll_cons_iff.1 h
    rcases List.mem_cons.1 hmem with rfl | hmem
    · exact hstands.inside (Or.inl hcode)
    · exact ih hnodes hmem

theorem find?_eq_none_iff_all :
    (nodes.find? fun n => !n.isComment) = none ↔ ∀ n ∈ nodes, n.isComment = true := by
  simp

theorem exists_isComment_eq_false (h : ¬∀ n ∈ nodes, n.isComment = true) :
    ∃ n ∈ nodes, n.isComment = false := by
  simpa using h

theorem exists_isComment_eq_false_or {p : Prop} (h : (∀ n ∈ nodes, n.isComment = true) → p) :
    (∃ n ∈ nodes, n.isComment = false) ∨ p := by
  by_cases hall : ∀ n ∈ nodes, n.isComment = true
  · exact Or.inr (h hall)
  · exact Or.inl (exists_isComment_eq_false hall)

theorem landmark_cons (h : node.isComment = false ∨ ∀ n ∈ nodes, n.isComment = true) :
    landmark (node :: nodes) = some node := by
  rw [landmark]
  cases hc : node.isComment with
  | false =>
    rw [List.find?_cons_of_pos (by simp [hc])]
    rfl
  | true =>
    have hall := h.resolve_left (by simp [hc])
    rw [List.find?_cons_of_neg (by simp [hc]), find?_eq_none_iff_all.2 hall]
    rfl

end

/-! ## Landmarks of texts -/

theorem firstCode_congr {a b : List String} (h : codeLines a = codeLines b) :
    firstCode a = firstCode b := by
  rw [firstCode, firstCode, h]

theorem landmarkLine_congr {a b : List String} (h : codeLines a = codeLines b) :
    landmarkLine a = landmarkLine b := by
  rw [landmarkLine, landmarkLine, firstCode_congr h, h]

theorem entersAt_congr {a b : List String} (h : codeLines a = codeLines b) (dent : Option Nat) :
    entersAt dent a = entersAt dent b := by
  rw [entersAt, entersAt, landmarkLine_congr h]

theorem landmarkLine_of_firstCode {lines : List String} {line : String}
    (h : firstCode lines = some line) : landmarkLine lines = some line := by
  rw [landmarkLine, h, Option.some_or]

theorem continues_eq_entersAt {lines : List String} {line : String} {below : List String}
    (h : skipBlank lines = line :: below) (dent : Option Nat) :
    continues dent line below = entersAt dent lines := by
  have hcode : codeLines lines = line :: codeLines below := by
    rw [← codeLines_dropWhile_isBlank, show lines.dropWhile isBlank = line :: below from h,
      codeLines_cons_of_not_isBlank (isBlank_of_skipBlank h)]
  have hfind : (line :: below).find? (fun l => !isBlank l && !isComment l) = firstCode lines := by
    rw [firstCode, hcode, ← codeLines_cons_of_not_isBlank (isBlank_of_skipBlank h), codeLines,
      List.find?_filter]
    simp
  have hmark : landmarkLine lines = some ((firstCode lines).getD line) := by
    rw [landmarkLine, hcode]
    cases firstCode lines <;> rfl
  rw [entersAt, hmark]
  cases dent with
  | none => rfl
  | some dent =>
    rw [continues, hfind]
    rfl

theorem entersAt_eq_false_of_skipBlank {lines : List String} (h : skipBlank lines = [])
    (dent : Option Nat) : entersAt dent lines = false := by
  have hcode : codeLines lines = [] := by
    rw [← codeLines_dropWhile_isBlank, show lines.dropWhile isBlank = [] from h, codeLines_nil]
  rw [entersAt, landmarkLine, firstCode, hcode]
  rfl

theorem codeLines_composeAfter_cons {node : Node} (hnode : Formed node) (nodes : List Node)
    (topLevel : Bool) (before : Option Node) (below : List String) :
    ∃ tail, composeNode node = node.firstLine :: tail ∧
      codeLines (composeAfter topLevel before (node :: nodes) ++ below) =
        node.firstLine :: codeLines (tail ++ (composeAfter topLevel (some node) nodes ++ below)) := by
  obtain ⟨tail, htail, hb⟩ := hnode.composeNode_eq
  refine ⟨tail, htail, ?_⟩
  have hskip := hnode.skipBlank_composeAfter topLevel before nodes below
  rw [← codeLines_dropWhile_isBlank, show (composeAfter topLevel before (node :: nodes) ++
    below).dropWhile isBlank = _ from hskip, htail, List.cons_append,
    codeLines_cons_of_not_isBlank hb]

section

variable {nodes : List Node} (hf : ∀ node ∈ nodes, Formed node) (topLevel : Bool)
  (before : Option Node) (below : List String)

include hf

/-- The first code of what is written is the first line of the first node that is no comment. -/
theorem firstCode_composeAfter :
    firstCode (composeAfter topLevel before nodes ++ below) =
      ((nodes.find? fun n => !n.isComment).map Node.firstLine).or (firstCode below) := by
  induction nodes generalizing before with
  | nil => rfl
  | cons node nodes ih =>
    obtain ⟨hnode, hnodes⟩ := List.forall_mem_cons.1 hf
    obtain ⟨tail, htail, hcode⟩ := codeLines_composeAfter_cons hnode nodes topLevel before below
    cases hc : node.isComment with
    | true =>
      rw [Formed.composeNode_of_isComment hc] at htail
      obtain ⟨-, rfl⟩ := List.cons.inj htail
      rw [List.find?_cons_of_neg (by simp [hc]), ← ih hnodes (some node), firstCode, hcode,
        List.find?_cons_of_neg (by simp [hnode.isComment_firstLine, hc])]
      rfl
    | false =>
      rw [List.find?_cons_of_pos (by simp [hc]), firstCode, hcode,
        List.find?_cons_of_pos (by simp [hnode.isComment_firstLine, hc])]
      rfl

/-- What is written is judged by the first line of its landmark, unless it is all comments and code
follows. -/
theorem landmarkLine_composeAfter (hne : nodes ≠ [])
    (h : (∃ n ∈ nodes, n.isComment = false) ∨ firstCode below = none) :
    landmarkLine (composeAfter topLevel before nodes ++ below) =
      (landmark nodes).map Node.firstLine := by
  obtain ⟨node, nodes', rfl⟩ := List.exists_cons_of_ne_nil hne
  obtain ⟨hnode, hnodes⟩ := List.forall_mem_cons.1 hf
  obtain ⟨tail, -, hcode⟩ := codeLines_composeAfter_cons hnode nodes' topLevel before below
  have hfirst := firstCode_composeAfter hf topLevel before below
  rw [landmarkLine, hfirst, hcode, landmark]
  cases hfind : (node :: nodes').find? fun n => !n.isComment with
  | some m => rfl
  | none =>
    have hall := find?_eq_none_iff_all.1 hfind
    rcases h with ⟨n, hn, hc⟩ | hnone
    · exact absurd (hc.symm.trans (hall n hn)) Bool.false_ne_true
    · rw [hnone]
      rfl

theorem landmarkLine_composeAfter_of_all (hall : ∀ n ∈ nodes, n.isComment = true) {line : String}
    (h : firstCode below = some line) :
    landmarkLine (composeAfter topLevel before nodes ++ below) = some line := by
  refine landmarkLine_of_firstCode ?_
  rw [firstCode_composeAfter hf, find?_eq_none_iff_all.2 hall, h]
  rfl

end

/-! ## Trees that were read -/

namespace Reads

variable {dent : Option Nat} {lines rest : List String} {nodes : List Node}

/-- Reading depends on the lines from the first one that is not blank. -/
theorem of_skipBlank {a b : List String} (hr : Reads dent a nodes rest)
    (hab : skipBlank a = skipBlank b) : Reads dent b nodes rest := by
  cases hr with
  | nil h => exact .nil (hab ▸ h)
  | stop h hc => exact .stop (hab ▸ h) hc
  | statement h hc ho hl hr => exact .statement (hab ▸ h) hc ho hl hr
  | block h hc ho hl hn hb hr => exact .block (hab ▸ h) hc ho hl hn hb hr

theorem codeLines_eq (h : Reads dent lines nodes rest) (topLevel : Bool) (before : Option Node) :
    codeLines lines = codeLines (composeAfter topLevel before nodes ++ rest) := by
  obtain ⟨blocks, hseg, ht⟩ := h.takes
  obtain ⟨taken, rfl, hs⟩ := ht.spread
  rw [codeLines_append, codeLines_append, hs.codeLines_eq, (hseg.spread topLevel before).codeLines_eq]

theorem suffix (h : Reads dent lines nodes rest) : rest <:+ lines := by
  obtain ⟨_, -, ht⟩ := h.takes
  obtain ⟨taken, rfl, -⟩ := ht.spread
  exact List.suffix_append taken rest

/-- Reading stops in front of what is no deeper. -/
theorem entersAt_rest (h : Reads dent lines nodes rest) : entersAt dent rest = false := by
  induction h with
  | nil h => exact entersAt_eq_false_of_skipBlank rfl _
  | stop h hc =>
    rw [← continues_eq_entersAt (skipBlank_cons (isBlank_of_skipBlank h))]
    exact hc
  | statement _ _ _ _ _ ih => exact ih
  | block _ _ _ _ _ _ _ _ ih => exact ih

theorem isWithin_landmark (h : Reads dent lines nodes rest) (hne : nodes ≠ [])
    (henters : entersAt dent lines = true) :
    (∀ next ∈ landmark nodes, isWithin dent next.firstLine = true) ∧
      ((∀ n ∈ nodes, n.isComment = true) → firstCode rest = none) := by
  have hf := formed_of_reads h
  have hrest := h.entersAt_rest
  rw [entersAt_congr (h.codeLines_eq false none)] at henters
  have hcomments : (∀ n ∈ nodes, n.isComment = true) → firstCode rest = none := by
    intro hall
    cases hcode : firstCode rest with
    | none => rfl
    | some line =>
      rw [entersAt, landmarkLine_composeAfter_of_all hf _ _ _ hall hcode] at henters
      rw [entersAt, landmarkLine_of_firstCode hcode] at hrest
      exact absurd (hrest.symm.trans henters) Bool.false_ne_true
  refine ⟨?_, hcomments⟩
  intro next hnext
  rw [entersAt, landmarkLine_composeAfter hf _ _ _ hne (exists_isComment_eq_false_or hcomments),
    hnext] at henters
  exact henters

/-- Where a body of indentation `level` ends, what is read next is no deeper. -/
theorem level (h : Reads dent lines nodes rest) {level : Nat}
    (hends : entersAt (some level) lines = false)
    (hcomments : endsInCommentAll nodes = true → firstCode rest = none) :
    ∀ next ∈ landmark nodes, next.indentation.atMost (.spaces level) = true := by
  intro next hnext
  have hne : nodes ≠ [] := by
    rintro rfl
    cases hnext
  have hjudged : (∃ n ∈ nodes, n.isComment = false) ∨ firstCode rest = none :=
    exists_isComment_eq_false_or fun hall => hcomments (endsInCommentAll_of_all hne hall)
  rw [entersAt_congr (h.codeLines_eq false none), entersAt,
    landmarkLine_composeAfter (formed_of_reads h) _ _ _ hne hjudged, hnext] at hends
  simpa [isWithin, isInside, Node.indentation, Indentation.deeper] using hends

/-- Of a text without code only comments are read. -/
theorem all_of_firstCode (h : Reads dent lines nodes rest) (hnone : firstCode lines = none) :
    (∀ n ∈ nodes, n.isComment = true) ∧ firstCode rest = none := by
  rw [firstCode_congr (h.codeLines_eq false none), firstCode_composeAfter (formed_of_reads h),
    Option.or_eq_none_iff, Option.map_eq_none_iff, find?_eq_none_iff_all] at hnone
  exact hnone

end Reads

/-- A decorator that is read as a statement stands in front of no block of its indentation. -/
theorem Reads.indentation_ne {dent : Option Nat} {line : String}
    {below physical after rest : List String} {node : Node} {nodes : List Node}
    (ho : opening? line below = .ok none) (hm : isMarked line = true)
    (hl : logicalLine line below = some (physical, after))
    (hr : Reads dent after (node :: nodes) rest) (hblock : node.isBlock = true) :
    node.indentation ≠ indentation line := by
  intro hi
  rcases opening?_eq_none_iff.1 ho with ⟨hn, -⟩ | ⟨-, header, rest', hread, hopens⟩
  · exact Bool.false_ne_true (hn.symm.trans hm)
  have hmarked : (isMarked line && indentation line == indentation line) = true := by simp [hm]
  rw [readDecorators, if_pos hmarked] at hread
  split at hread
  · cases hread
  next decorator after' hl' =>
  rw [hl] at hl'
  cases hl'
  obtain ⟨⟨more, _⟩, hmore, he⟩ := exists_of_map_eq_ok hread
  cases he
  have hformed := (List.forall_mem_cons.1 (formed_of_reads hr)).1
  cases hr with
  | statement => cases hblock
  | @block _ _ line' below' signature _ middle _ o body _ h _ ho' hl' _ _ _ =>
    obtain ⟨hk, hheader⟩ := opening?_eq_some_iff.1 ho'
    have hopened : indentation o.line = indentation line := by
      rw [← hi, hformed.indentation_block, firstOf_of_logicalLine hl',
        indentation_of_not_isBlank (isBlank_of_kind? hk)]
    rw [h] at hmore
    -- what the decorators of the block lead to, those in front of it lead to as well
    have hopens' : opensAt (indentation line) rest' = true := by
      rcases hheader with ⟨hn, -, hline, -⟩ | ⟨-, hi', hread'⟩
      · rw [hline] at hk hopened
        rw [readDecorators, if_neg (by simp [hn])] at hmore
        cases hmore
        simp [opensAt, hopened, hk]
      · rw [← hi', hopened, hmore] at hread'
        cases hread'
        simp [opensAt, hopened, hk]
    exact Bool.false_ne_true (hopens.symm.trans hopens')

section

variable {dent : Option Nat} {lines below after rest : List String} {line : String}
  {nodes : List Node} (h : skipBlank lines = line :: below)
  (hc : continues dent line below = true)

include h hc

theorem Reads.stands_statement {physical : List String} (ho : opening? line below = .ok none)
    (hl : logicalLine line below = some (physical, after)) (hr : Reads dent after nodes rest) :
    Node.Stands dent (.statement physical) nodes where
  inside hplace := by
    have henters : entersAt dent lines = true := by rw [← continues_eq_entersAt h, hc]
    exact ((Reads.statement h hc ho hl hr).isWithin_landmark (List.cons_ne_nil _ _) henters).1 _
      (landmark_cons hplace)
  level hblock := absurd hblock Bool.false_ne_true
  decorator hm next hnext hblock := by
    have hfirst := firstOf_of_logicalLine hl
    obtain ⟨nodes, rfl⟩ := List.head?_eq_some_iff.1 hnext
    rw [show Node.indentation (.statement physical) = indentation line from
      congrArg indentation hfirst]
    have hmarked : isMarked line = true := by
      rw [← hfirst]
      exact hm
    exact Reads.indentation_ne ho hmarked hl hr hblock
  comment hends := absurd hends Bool.false_ne_true

/-- A block stands where it was read, and if its body ends with a comment no code follows. -/
theorem Reads.stands_block {signature middle : List String} {o : Opening} {body : List Node}
    (ho : opening? line below = .ok (some o))
    (hl : logicalLine o.line o.below = some (signature, after))
    (hn : (o.kind.name? o.line).isSome = true)
    (hb : Reads (some (leadingSpaces o.line)) after body middle) (hr : Reads dent middle nodes rest)
    (hbody : endsInCommentAll body = true → firstCode middle = none)
    (hnodes : endsInCommentAll nodes = true → firstCode rest = none) :
    Node.Stands dent (.block o.kind o.header signature body) nodes where
  inside _ := by
    have henters : entersAt dent lines = true := by rw [← continues_eq_entersAt h, hc]
    exact ((Reads.block h hc ho hl hn hb hr).isWithin_landmark (List.cons_ne_nil _ _) henters).1 _
      (landmark_cons (.inl rfl))
  level _ := by
    have hformed := formed_of_reads (Reads.block h hc ho hl hn hb hr) _ List.mem_cons_self
    rw [hformed.indentation_block, firstOf_of_logicalLine hl]
    exact hr.level hb.entersAt_rest hnodes
  decorator hm := absurd hm Bool.false_ne_true
  comment hends := (hr.all_of_firstCode (hbody hends)).1

end

/-- **Trees that were read are nested**, and if they end with a comment no code follows. -/
theorem nestedAll_of_reads {dent : Option Nat} {lines rest : List String} {nodes : List Node}
    (h : Reads dent lines nodes rest) :
    nestedAll dent nodes = true ∧ (endsInCommentAll nodes = true → firstCode rest = none) := by
  induction h with
  | nil | stop => exact ⟨rfl, fun hends => absurd hends Bool.false_ne_true⟩
  | @statement dent lines line below physical after rest nodes h hc ho hl hr ih =>
    refine ⟨nestedAll_cons_iff.2 ⟨Reads.stands_statement h hc ho hl hr, rfl, ih.1⟩, fun hends => ?_⟩
    cases nodes with
    | nil =>
      have henters : entersAt dent lines = true := by rw [← continues_eq_entersAt h, hc]
      have hread := Reads.statement h hc ho hl hr
      rw [endsInCommentAll, Node.endsInComment, Bool.or_false] at hends
      exact (hread.isWithin_landmark (List.cons_ne_nil _ _) henters).2
        (List.forall_mem_singleton.2 hends)
    | cons node nodes =>
      rw [endsInCommentAll_cons (List.cons_ne_nil _ _)] at hends
      exact ih.2 hends
  | @block dent lines line below signature after middle rest o body nodes h hc ho hl hn hb hr ihb
      ihr =>
    have hstands := Reads.stands_block h hc ho hl hn hb hr ihb.2 ihr.2
    refine ⟨nestedAll_cons_iff.2 ⟨hstands, ?_, ihr.1⟩, fun hends => ?_⟩
    · rw [Node.nested, firstOf_of_logicalLine hl]
      exact ihb.1
    · cases nodes with
      | nil => exact (hr.all_of_firstCode (ihb.2 hends)).2
      | cons node nodes =>
        rw [endsInCommentAll_cons (List.cons_ne_nil _ _)] at hends
        exact ihr.2 hends

end HouseStyle.Block
