import HouseStyle.Proofs.Block.Nested

/-!
# What a block owns

A node stands in a file behind the lines of code above it and in front of those below its last line.
Where the reader puts it is decided by indentation alone: a block ends in front of the first code
that is no deeper than its opening line, and a comment is in the list of the code it stands in front
of.  All of it is read off one reading step (`Reads`), with the lines of code above it generalised.

* `Site`, `sites`: the nodes of a tree, each with what stands behind it in its list and above it in
  the file.
* `exists_site`: every node of every list of a tree has its site.
* `Site.Owns`: what indentation says of the lines below a node.
* `owns_of_parse`: **blocks own exactly the lines that their indentation says.**
-/

namespace HouseStyle.Block

open Text

/-! ## Definitions -/

/-- Where a node of a tree stands. -/
structure Site where
  node : Node
  /-- The nodes behind it in its list. -/
  siblings : List Node
  /-- The lines of code of the file in front of its first line. -/
  above : List String

mutual

/-- The sites of the nodes inside a node. -/
def Node.sitesWithin (above : List String) : Node → List Site
  | .statement _ => []
  | .block _ header signature body => sites (above ++ codeLines (header ++ signature)) body

/-- The sites of the nodes of a list and of all nodes inside them, below the lines `above`. -/
def sites (above : List String) : List Node → List Site
  | [] => []
  | node :: nodes =>
    ⟨node, nodes, above⟩ ::
      (node.sitesWithin above ++ sites (above ++ codeLines (composeNode node)) nodes)

end

/-- What indentation says of a node and of the lines `below` its last one. -/
structure Site.Owns (s : Site) (below : List String) : Prop where
  /-- Code in the body of a block is deeper than its opening line. -/
  inside : ∀ kind header signature body, s.node = .block kind header signature body →
    ∀ n ∈ body, n.isComment = false →
      n.indentation.deeper (indentation (firstOf signature)) = true
  /-- The first code below a block is not. -/
  outside : ∀ kind header signature body, s.node = .block kind header signature body →
    ∀ line ∈ firstCode below, (indentation line).atMost (indentation (firstOf signature)) = true
  /-- The first code below a comment begins a node behind it in its list, and where the list has
  no such node there is no code below it. -/
  comment : s.node.isComment = true →
    firstCode below = (s.siblings.find? fun n => !n.isComment).map Node.firstLine

/-! ## Sites of a tree -/

theorem mem_sites_cons {above : List String} {node : Node} {nodes : List Node} {s : Site} :
    s ∈ sites above (node :: nodes) ↔ s = ⟨node, nodes, above⟩ ∨ s ∈ node.sitesWithin above ∨
      s ∈ sites (above ++ codeLines (composeNode node)) nodes := by
  rw [sites, List.mem_cons, List.mem_append]

theorem exists_site_of_suffix {node : Node} {after nodes : List Node}
    (h : node :: after <:+ nodes) :
    ∀ above, ∃ s ∈ sites above nodes, s.node = node ∧ s.siblings = after := by
  induction nodes with
  | nil => exact absurd (List.suffix_nil.1 h) (List.cons_ne_nil _ _)
  | cons first nodes ih =>
    intro above
    rcases List.suffix_cons_iff.1 h with heq | hsuffix
    · cases heq
      exact ⟨_, mem_sites_cons.2 (Or.inl rfl), rfl, rfl⟩
    · obtain ⟨s, hs, hnode, hafter⟩ := ih hsuffix (above ++ codeLines (composeNode first))
      exact ⟨s, mem_sites_cons.2 (Or.inr (Or.inr hs)), hnode, hafter⟩

/-- Every node of every list of a tree has its site. -/
theorem exists_site {node : Node} {after l nodes : List Node} (hl : l ∈ Node.lists nodes)
    (h : node :: after <:+ l) :
    ∀ above, ∃ s ∈ sites above nodes, s.node = node ∧ s.siblings = after := by
  induction nodes using nodes_induction with
  | nil =>
    rw [lists_eq, List.flatMap_nil, List.nil_append, List.mem_singleton] at hl
    subst hl
    exact exists_site_of_suffix h
  | statement lines nodes ih =>
    rw [lists_eq, List.flatMap_cons, Node.listsWithin, List.nil_append, List.mem_append,
      List.mem_singleton] at hl
    rcases hl with hl | rfl
    · intro above
      obtain ⟨s, hs, hsite⟩ := ih (by rw [lists_eq]; exact List.mem_append_left _ hl)
        (above ++ codeLines (composeNode (.statement lines)))
      exact ⟨s, mem_sites_cons.2 (Or.inr (Or.inr hs)), hsite⟩
    · exact exists_site_of_suffix h
  | block kind header signature body nodes ihb ihr =>
    rw [lists_eq, List.flatMap_cons, listsWithin_block, List.mem_append, List.mem_append,
      List.mem_singleton] at hl
    rcases hl with (hl | hl) | rfl
    · intro above
      obtain ⟨s, hs, hsite⟩ := ihb hl (above ++ codeLines (header ++ signature))
      exact ⟨s, mem_sites_cons.2 (Or.inr (Or.inl hs)), hsite⟩
    · intro above
      obtain ⟨s, hs, hsite⟩ := ihr (by rw [lists_eq]; exact List.mem_append_left _ hl)
        (above ++ codeLines (composeNode (.block kind header signature body)))
      exact ⟨s, mem_sites_cons.2 (Or.inr (Or.inr hs)), hsite⟩
    · exact exists_site_of_suffix h

/-! ## Lines of code of one step -/

theorem codeLines_of_logicalLine {lines below physical after : List String} {line : String}
    (h : skipBlank lines = line :: below) (hl : logicalLine line below = some (physical, after)) :
    codeLines lines = codeLines physical ++ codeLines after := by
  rw [← codeLines_dropWhile_isBlank, show lines.dropWhile isBlank = line :: below from h,
    ← append_of_logicalLine hl, codeLines_append]

theorem codeLines_of_opening? {lines below signature after : List String} {line : String}
    {o : Opening} (h : skipBlank lines = line :: below) (ho : opening? line below = .ok (some o))
    (hl : logicalLine o.line o.below = some (signature, after)) :
    codeLines lines = codeLines (o.header ++ signature) ++ codeLines after := by
  obtain ⟨decorators, hheader, ht⟩ := takes_of_opening? ho
  obtain ⟨taken, htaken, hs⟩ := ht.spread
  have hdecorators : codeLines taken = codeLines o.header := by rw [hs.codeLines_eq, hheader]
  rw [← codeLines_dropWhile_isBlank, show lines.dropWhile isBlank = line :: below from h, htaken,
    codeLines_append, hdecorators, ← append_of_logicalLine hl, codeLines_append, codeLines_append,
    List.append_assoc]

/-! ## Sites of a tree that was read -/

namespace Reads

variable {dent : Option Nat} {lines rest : List String} {nodes : List Node}

/-- The first code of what was read into a list is that of its first node that is no comment, or
stands behind the list. -/
theorem firstCode_eq (h : Reads dent lines nodes rest) :
    firstCode lines =
      ((nodes.find? fun n => !n.isComment).map Node.firstLine).or (firstCode rest) := by
  rw [firstCode_congr (h.codeLines_eq false none), firstCode_composeAfter (formed_of_reads h)]

theorem atMost_firstCode {level : Nat} (h : Reads (some level) lines nodes rest) :
    ∀ line ∈ firstCode rest, (indentation line).atMost (.spaces level) = true := by
  intro line hline
  have hends := h.entersAt_rest
  rw [entersAt, landmarkLine_of_firstCode hline] at hends
  simpa [isWithin, isInside, Indentation.deeper] using hends

/-- Behind a comment comes code of its own list, or no code at all. -/
theorem owns_statement {physical below : List String} (above : List String)
    (hread : Reads dent lines (.statement physical :: nodes) rest)
    (hr : Reads dent below nodes rest) : (Site.mk (.statement physical) nodes above).Owns below where
  inside := fun _ _ _ _ heq => nomatch heq
  outside := fun _ _ _ _ heq => nomatch heq
  comment := by
    intro hcomment
    rw [hr.firstCode_eq]
    cases hfind : nodes.find? fun n => !n.isComment with
    | some next => rfl
    | none =>
      have hall : ∀ n ∈ .statement physical :: nodes, n.isComment = true :=
        List.forall_mem_cons.2 ⟨hcomment, find?_eq_none_iff_all.1 hfind⟩
      have hends := endsInCommentAll_of_all (List.cons_ne_nil _ _) hall
      exact (nestedAll_of_reads hread).2 hends

/-- A body ends in front of the first code that is no deeper than the opening line. -/
theorem owns_block {kind : Kind} {header signature middle : List String} {body : List Node}
    (above : List String) (hopening : isBlank (firstOf signature) = false)
    (hb : Reads (some (leadingSpaces (firstOf signature))) lines body middle) :
    (Site.mk (.block kind header signature body) nodes above).Owns middle where
  inside := by
    rintro _ _ _ _ ⟨⟩ n hn hcode
    rw [indentation_of_not_isBlank hopening]
    exact isWithin_of_mem_nestedAll (nestedAll_of_reads hb).1 hn hcode
  outside := by
    rintro _ _ _ _ ⟨⟩
    rw [indentation_of_not_isBlank hopening]
    exact hb.atMost_firstCode
  comment := fun hcomment => absurd hcomment Bool.false_ne_true

/-- **Every node that was read stands where its indentation says**, whatever code is above it. -/
theorem owns {whole : List String} (h : Reads dent lines nodes rest) :
    ∀ above, codeLines whole = above ++ codeLines lines → ∀ s ∈ sites above nodes,
      ∃ below, codeLines whole = s.above ++ codeLines (composeNode s.node) ++ codeLines below ∧
        s.Owns below := by
  induction h with
  | nil | stop => exact fun _ _ _ hs => nomatch hs
  | @statement dent lines line below physical after rest nodes h hc ho hl hr ih =>
    intro above hwhole s hs
    have hafter : codeLines whole = above ++ codeLines physical ++ codeLines after := by
      rw [hwhole, codeLines_of_logicalLine h hl, List.append_assoc]
    rcases mem_sites_cons.1 hs with rfl | hs | hs
    · exact ⟨after, hafter, owns_statement above (.statement h hc ho hl hr) hr⟩
    · cases hs
    · exact ih _ hafter s hs
  | @block dent lines line below signature after middle rest o body nodes h hc ho hl hn hb hr ihb
      ihr =>
    intro above hwhole s hs
    have hfirst := firstOf_of_logicalLine hl
    have hopening : isBlank (firstOf signature) = false := by
      rw [hfirst]
      exact isBlank_of_kind? (opening?_eq_some_iff.1 ho).1
    have hafter : codeLines whole =
        above ++ codeLines (o.header ++ signature) ++ codeLines after := by
      rw [hwhole, codeLines_of_opening? h ho hl, List.append_assoc]
    have hmiddle : codeLines whole =
        above ++ codeLines (composeNode (.block o.kind o.header signature body)) ++
          codeLines middle := by
      rw [hafter, hb.codeLines_eq false none, composeNode]
      simp only [codeLines_append, List.append_assoc]
    rcases mem_sites_cons.1 hs with rfl | hs | hs
    · rw [← hfirst] at hb
      exact ⟨middle, hmiddle, hb.owns_block above hopening⟩
    · exact ihb _ hafter s hs
    · exact ihr _ hmiddle s hs

end Reads

/-- **Blocks own exactly the lines that their indentation says**, and a comment is in the list of
the next line of code. -/
theorem owns_of_parse {lines : List String} {file : List Node} (h : parse lines = .ok file) :
    (∀ l ∈ Node.lists file, ∀ node after, node :: after <:+ l →
      ∃ s ∈ sites [] file, s.node = node ∧ s.siblings = after) ∧
    ∀ s ∈ sites [] file, ∃ below,
      codeLines lines = s.above ++ codeLines (composeNode s.node) ++ codeLines below ∧
        s.Owns below := by
  obtain ⟨rest, hr⟩ := reads_of_parse h
  refine ⟨?_, hr.owns [] rfl⟩
  intro l hl node after hafter
  exact exists_site hl hafter []

/-- A comment at the margin, behind a signature that ends at the margin, is in the body of the
function. -/
theorem owns_of_parse_outdented :
    ∃ file, parse ["class A:", "    @cached", "    def f(x,", "y):", "# note", "        return x",
        "", "    # end", "z = 1"] = .ok file ∧
      ∃ s ∈ sites [] file, s.node = .statement ["# note"] ∧
        s.siblings = [.statement ["        return x"]] ∧
        ∃ below, s.Owns below ∧ firstCode below = some "        return x" := by
  have h : parse ["class A:", "    @cached", "    def f(x,", "y):", "# note", "        return x", "",
        "    # end", "z = 1"] =
      .ok [.block .namedClass [] ["class A:"]
          [.block .function ["    @cached"] ["    def f(x,", "y):"]
            [.statement ["# note"], .statement ["        return x"]]],
        .statement ["    # end"], .statement ["z = 1"]] := by decide +kernel
  obtain ⟨hlists, howns⟩ := owns_of_parse h
  obtain ⟨s, hs, hnode, hsiblings⟩ := hlists [.statement ["# note"], .statement ["        return x"]]
    (by decide +kernel) _ _ List.suffix_rfl
  obtain ⟨below, -, hbelow⟩ := howns s hs
  have hcomment : s.node.isComment = true := by
    rw [hnode]
    decide +kernel
  have hfirst := hbelow.comment hcomment
  rw [hsiblings] at hfirst
  exact ⟨_, h, s, hs, hnode, hsiblings, below, hbelow, hfirst.trans (by decide +kernel)⟩

end HouseStyle.Block
