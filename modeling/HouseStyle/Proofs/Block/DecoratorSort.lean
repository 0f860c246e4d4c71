import HouseStyle.Proofs.Block.Decorators
import HouseStyle.Proofs.Block.Indentation

/-!
# Sorting and decorators

Decorators read with a block move with it.  Those that are statements stay where they are, so that
they lead to whatever block a sort puts below them: to their own block only if that one comes first
in its run.

* `decorators_sort`: a sort leaves the decorators that are statements where they are.
* `leadsTo?_sort`: a decorator whose block comes first in its run.
* `decorations_sort_perm`: **where blocks keep their indentations and those led to come first, a sort
  leaves every decorator its block.**
* `decorations_sort_ne`: a comment below a decorator.
-/

namespace HouseStyle.Block

open Text

/-- A decorator with its block, after the body of the block was sorted. -/
def sortTarget (d : List String × Option Node) : List String × Option Node :=
  (d.1, d.2.map Node.sortBody)

/-! ## Sorted lists -/

/-- A block that comes before its neighbours stays the first of its run. -/
theorem sort_cons_block {node : Node} {nodes : List Node} (hb : node.isBlock = true)
    (hle : ∀ n ∈ nodes.takeWhile Node.isBlock, (compareNodes node n).isLE = true) :
    ∃ back rest : List Node, sort (node :: nodes) = node.sortBody :: (back.map Node.sortBody ++ rest) ∧
      (∀ n ∈ back, n.isBlock = true ∧ (compareNodes node n).isLE = true) ∧
      ∀ n ∈ rest.head?, n.isBlock = false := by
  have hrun : ∀ n ∈ node :: nodes.takeWhile Node.isBlock, n.isBlock = true :=
    List.forall_mem_cons.2 ⟨hb, fun n hn => List.all_eq_true.1 List.all_takeWhile n hn⟩
  have hrest : ∀ n ∈ (nodes.dropWhile Node.isBlock).head?, n.isBlock = false := by
    intro n hn
    have hhead := List.head?_dropWhile_not Node.isBlock nodes
    rw [hn] at hhead
    simpa using hhead
  obtain ⟨front, back, hcons, hinner, hfront⟩ := inOrder_cons node (nodes.takeWhile Node.isBlock)
  have hmem : ∀ n ∈ front ++ back, n ∈ nodes.takeWhile Node.isBlock := by
    intro n hn
    exact (inOrder_perm _).mem_iff.1 (hinner ▸ hn)
  obtain rfl : front = [] := by
    refine List.eq_nil_iff_forall_not_mem.2 fun n hn => ?_
    have hless := hfront n hn
    rw [hle n (hmem n (List.mem_append_left _ hn))] at hless
    cases hless
  refine ⟨back, sort (nodes.dropWhile Node.isBlock), ?_, fun n hn => ?_, ?_⟩
  · have hsorted := sort_run_append (List.cons_ne_nil _ _) hrun hrest
    rw [List.cons_append, List.takeWhile_append_dropWhile, hcons] at hsorted
    exact hsorted
  · exact ⟨hrun n (List.mem_cons_of_mem _ (hmem n hn)), hle n (hmem n hn)⟩
  · intro n hn
    have hbodies : ∀ m ∈ ((nodes.dropWhile Node.isBlock).map Node.sortBody).head?,
        m.isBlock = false := by
      intro m hm
      rw [List.head?_map] at hm
      obtain ⟨inner, hinner, rfl⟩ := Option.map_eq_some_iff.1 hm
      rw [Node.isBlock_sortBody]
      exact hrest inner hinner
    rw [sort_eq, sortRuns, head?_mapRuns hbodies] at hn
    exact hbodies n hn

section

variable {dent : Indentation} {node : Node} {nodes : List Node}

theorem leadsTo?_cons_block (h : node.isBlock = true) :
    leadsTo? dent (node :: nodes) = if node.indentation == dent then some node else none := by
  cases node with
  | statement => cases h
  | block => rfl

theorem isHeld_cons_block (h : node.isBlock = true) :
    isHeld dent (node :: nodes) = (node.indentation == dent &&
      (nodes.takeWhile Node.isBlock).all fun next => (compareNodes node next).isLE) := by
  cases node with
  | statement => cases h
  | block => rfl

/-- Below a decorator that is held stands what it passes over, and then its block, the first one of its
run, or nothing of concern. -/
theorem isHeld_induction
    {motive : (nodes : List Node) → isHeld dent nodes = true → Prop} (nil : motive [] rfl)
    (passed : ∀ lines nodes (_ : Node.isPassed (.statement lines) = true)
      (h : isHeld dent (.statement lines :: nodes) = true) (h' : isHeld dent nodes = true),
      motive nodes h' → motive (.statement lines :: nodes) h)
    (other : ∀ lines nodes (_ : ¬ Node.isPassed (.statement lines) = true)
      (h : isHeld dent (.statement lines :: nodes) = true), motive (.statement lines :: nodes) h)
    (block : ∀ node nodes (h : isHeld dent (node :: nodes) = true), node.isBlock = true →
      (node.indentation == dent) = true →
      (∀ next ∈ nodes.takeWhile Node.isBlock, (compareNodes node next).isLE = true) →
      motive (node :: nodes) h)
    (h : isHeld dent nodes = true) : motive nodes h := by
  induction nodes with
  | nil => exact nil
  | cons node nodes ih =>
    cases hb : node.isBlock with
    | false =>
      obtain ⟨lines, rfl⟩ := exists_statement_of_isBlock hb
      by_cases hp : Node.isPassed (.statement lines) = true
      · have h' : isHeld dent nodes = true := by rwa [isHeld, if_pos hp] at h
        exact passed lines nodes hp h h' (ih h')
      · exact other lines nodes hp h
    | true =>
      have h' := h
      rw [isHeld_cons_block hb, Bool.and_eq_true, List.all_eq_true] at h'
      exact block node nodes h hb h'.1 h'.2

theorem leadsTo?_sort (h : isHeld dent nodes = true) :
    leadsTo? dent (sort nodes) = (leadsTo? dent nodes).map Node.sortBody := by
  induction h using isHeld_induction with
  | nil => rw [sort_nil]; rfl
  | passed lines nodes hp _ _ ih =>
    rw [sort_cons_statement, leadsTo?, leadsTo?, if_pos hp, if_pos hp]
    exact ih
  | other lines nodes hp _ =>
    rw [sort_cons_statement, leadsTo?, leadsTo?, if_neg hp, if_neg hp]
    rfl
  | block node nodes _ hb hi hle =>
    obtain ⟨back, rest, hsort, -, -⟩ := sort_cons_block hb hle
    rw [hsort, leadsTo?_cons_block hb, leadsTo?_cons_block (node.isBlock_sortBody.trans hb),
      Node.indentation_sortBody, if_pos hi, if_pos hi, Option.map_some]

theorem isHeld_sort (h : isHeld dent nodes = true) : isHeld dent (sort nodes) = true := by
  induction h using isHeld_induction with
  | nil => rw [sort_nil]; rfl
  | passed lines nodes hp _ _ ih =>
    rw [sort_cons_statement, isHeld, if_pos hp]
    exact ih
  | other lines nodes hp _ =>
    rw [sort_cons_statement, isHeld, if_neg hp]
    rfl
  | block node nodes _ hb hi hle =>
    obtain ⟨back, rest, hsort, hback, hrest⟩ := sort_cons_block hb hle
    have hblocks : ∀ n ∈ back.map Node.sortBody, n.isBlock = true := by
      intro n hn
      obtain ⟨m, hm, rfl⟩ := List.mem_map.1 hn
      exact m.isBlock_sortBody.trans (hback m hm).1
    rw [hsort, isHeld_cons_block (node.isBlock_sortBody.trans hb), Node.indentation_sortBody,
      takeWhile_append_of_boundary hblocks hrest, Bool.and_eq_true, List.all_eq_true]
    refine ⟨hi, fun n hn => ?_⟩
    obtain ⟨m, hm, rfl⟩ := List.mem_map.1 hn
    rw [compareNodes_sortBody]
    exact (hback m hm).2

/-- A sort keeps the decorators that belong to no block, and changes what is below them. -/
theorem decorators_sort (nodes : List Node) :
    decorators (sort nodes) = (decorators nodes).map fun d => (d.1, sort d.2) := by
  have hblocks : ∀ {run : List Node}, (∀ n ∈ run, n.isBlock = true) → ∀ nodes,
      decorators (run ++ nodes) = decorators nodes := by
    intro run hrun nodes
    induction run with
    | nil => rfl
    | cons node run ih =>
      obtain ⟨hnode, hrun⟩ := List.forall_mem_cons.1 hrun
      rw [List.cons_append, decorators, if_neg (by cases node <;> simp_all [Node.isDecorator,
        Node.isBlock]), ih hrun]
  induction nodes using runs_induction (p := Node.isBlock) with
  | nil => rw [sort_nil]; rfl
  | other node nodes hnode ih =>
    obtain ⟨lines, rfl⟩ := exists_statement_of_isBlock hnode
    rw [sort_cons_statement, decorators, decorators, ih]
    cases Node.isDecorator (.statement lines) <;> rfl
  | run run rest hne hrun hrest ih =>
    have hsorted : ∀ n ∈ (inOrder run).map Node.sortBody, n.isBlock = true := by
      intro n hn
      obtain ⟨m, hm, rfl⟩ := List.mem_map.1 hn
      rw [Node.isBlock_sortBody]
      exact hrun m ((inOrder_perm run).mem_iff.1 hm)
    rw [sort_run_append hne hrun hrest, hblocks hsorted, hblocks hrun, ih]

theorem isLed_sort (h : isLed nodes = true) : isLed (sort nodes) = true := by
  rw [isLed, decorators_sort, List.all_map, List.all_eq_true]
  intro d hd
  exact isHeld_sort (List.all_eq_true.1 h d hd)

theorem looseDecorations_sort (h : isLed nodes = true) :
    looseDecorations (sort nodes) = (looseDecorations nodes).map sortTarget := by
  rw [looseDecorations, decorators_sort, looseDecorations, List.map_map, List.map_map]
  refine List.map_congr_left fun d hd => ?_
  rw [Function.comp_apply, Function.comp_apply, leadsTo?_sort (List.all_eq_true.1 h d hd)]
  rfl

end

/-! ## Sorted trees -/

theorem map_sort_of_const {β : Type} {f : Node → β} {c : β} (hf : ∀ n, f n.sortBody = f n)
    (hc : ∀ n, n.isBlock = true → f n = c) (nodes : List Node) :
    (sort nodes).map f = nodes.map f := by
  induction nodes using runs_induction (p := Node.isBlock) with
  | nil => rw [sort_nil]
  | other node nodes hnode ih =>
    obtain ⟨lines, rfl⟩ := exists_statement_of_isBlock hnode
    rw [sort_cons_statement, List.map_cons, List.map_cons, ih]
  | run run rest hne hrun hrest ih =>
    have hconst : ∀ {l : List Node}, (∀ n ∈ l, n.isBlock = true) →
        l.map f = List.replicate l.length c := by
      intro l hl
      refine List.eq_replicate_iff.2 ⟨List.length_map _, fun b hb => ?_⟩
      obtain ⟨n, hn, rfl⟩ := List.mem_map.1 hb
      exact hc n (hl n hn)
    have hsorted : ((inOrder run).map Node.sortBody).map f = (inOrder run).map f := by
      rw [List.map_map]
      exact List.map_congr_left fun n _ => hf n
    have hmem : ∀ n ∈ inOrder run, n.isBlock = true := fun n hn =>
      hrun n ((inOrder_perm run).mem_iff.1 hn)
    rw [sort_run_append hne hrun hrest, List.map_append, List.map_append, ih, hsorted, hconst hmem,
      hconst hrun, (inOrder_perm run).length_eq]

/-- What decides whether a list is level. -/
def Node.shape (node : Node) : (Bool × Bool) × Indentation :=
  ((node.isBlock, node.isComment), node.indentation)

theorem isLevel_congr {a b : List Node} (h : a.map Node.shape = b.map Node.shape) :
    isLevel a = isLevel b := by
  have hfind : ∀ (l : List Node) (i : Indentation),
      ((l.find? fun n => !n.isComment).all fun next => next.indentation.atMost i) =
        ((l.map Node.shape).find? fun s => !s.1.2).all fun s => s.2.atMost i := by
    intro l i
    rw [List.find?_map, Option.all_map]
    rfl
  induction a generalizing b with
  | nil => rw [List.map_eq_nil_iff.1 h.symm]
  | cons node nodes ih =>
    obtain ⟨node', nodes', rfl, hnode, hnodes⟩ := List.map_eq_cons_iff.1 h.symm
    obtain ⟨hkind, hi⟩ := Prod.mk.inj hnode
    rw [isLevel, isLevel, hfind, hfind, hnodes, ih hnodes.symm, hi, (Prod.mk.inj hkind).1]

theorem map_shape_sort {nodes : List Node}
    (h : (sort nodes).map Node.indentation = nodes.map Node.indentation) :
    (sort nodes).map Node.shape = nodes.map Node.shape := by
  have hzip : ∀ l : List Node, l.map Node.shape =
      (l.map fun n => (n.isBlock, n.isComment)).zip (l.map Node.indentation) := by
    intro l
    rw [List.zip_map']
    rfl
  have hkind : (sort nodes).map (fun n => (n.isBlock, n.isComment)) =
      nodes.map fun n => (n.isBlock, n.isComment) := by
    refine map_sort_of_const (c := (true, false)) (fun n => ?_) (fun n hn => ?_) nodes
    · rw [Node.isBlock_sortBody, Node.isComment_sortBody]
    · rw [hn, Node.isComment_eq_false_of_isBlock hn]
  rw [hzip, hzip, hkind, h]

theorem Orderly.sort {nodes : List Node} (ho : Orderly nodes)
    (h : (Block.sort nodes).map Node.indentation = nodes.map Node.indentation) :
    Orderly (Block.sort nodes) where
  level := (isLevel_congr (map_shape_sort h)).trans ho.level
  led := isLed_sort ho.led
  deeper := by
    intro kind header signature body hblock n hn hc
    obtain ⟨node, hnode, heq⟩ := List.mem_map.1 ((sort_perm nodes).mem_iff.1 hblock)
    cases node with
    | statement lines =>
      rw [Node.sortBody_statement] at heq
      cases heq
    | block kind' header' signature' body' =>
      rw [Node.sortBody_block] at heq
      cases heq
      obtain ⟨m, hm, rfl⟩ := List.mem_map.1 ((sort_perm body').mem_iff.1 hn)
      rw [Node.firstLine_sortBody]
      rw [Node.isComment_sortBody] at hc
      exact ho.deeper _ _ _ _ hnode m hm hc

/-- Lists that stay orderly when they are sorted. -/
def StaysOrderly (nodes : List Node) : Prop :=
  Orderly nodes ∧ (sort nodes).map Node.indentation = nodes.map Node.indentation

theorem orderly_of_mem_lists_sort {nodes : List Node} (h : ∀ l ∈ Node.lists nodes, StaysOrderly l) :
    ∀ l ∈ Node.lists (sort nodes), Orderly l := by
  intro l hl
  obtain ⟨l', hl', rfl⟩ := List.mem_map.1 ((lists_sort_perm nodes).mem_iff.1 hl)
  exact (h l' hl').1.sort (h l' hl').2

theorem decorations_passages_perm {nodes : List Node} (hf : ∀ n ∈ nodes, Formed n)
    (ho : ∀ l ∈ Node.lists nodes, Orderly l) : (decorations (passages nodes)).Perm
      (looseDecorations nodes ++ nodes.flatMap Node.ownDecorations) := by
  have h := decorations_perm hf ho (fun n _ _ => (rfl : isWithin none n.firstLine = true))
    (blind_nil none)
  rwa [List.append_nil, decorations, List.append_nil] at h

theorem decorations_sort_perm_of_forall {nodes : List Node} (hf : ∀ n ∈ nodes, Formed n)
    (h : ∀ l ∈ Node.lists nodes, StaysOrderly l)
    (hown : ∀ n ∈ nodes, n.sortBody.ownDecorations.Perm (n.ownDecorations.map sortTarget)) :
    (decorations (passages (sort nodes))).Perm ((decorations (passages nodes)).map sortTarget) := by
  have hblocks : ((sort nodes).flatMap Node.ownDecorations).Perm
      ((nodes.flatMap Node.ownDecorations).map sortTarget) := by
    rw [List.map_flatMap]
    refine ((sort_perm nodes).flatMap_right _).trans ?_
    rw [List.flatMap_map]
    exact List.Perm.flatMap_left nodes hown
  have hsorted := decorations_passages_perm (formed_sort hf) (orderly_of_mem_lists_sort h)
  have hplain := decorations_passages_perm hf fun l hl => (h l hl).1
  rw [looseDecorations_sort (h nodes (self_mem_lists nodes)).1.led] at hsorted
  refine (hsorted.trans (hblocks.append_left _)).trans ?_
  rw [← List.map_append]
  exact (hplain.map sortTarget).symm

theorem ownDecorations_sortBody_perm {node : Node} (hf : Formed node)
    (h : ∀ l ∈ node.listsWithin, StaysOrderly l) :
    node.sortBody.ownDecorations.Perm (node.ownDecorations.map sortTarget) := by
  induction node using node_induction with
  | statement lines =>
    rw [Node.sortBody_statement, Node.ownDecorations]
    exact .refl _
  | block kind header signature body ih =>
    cases hf with
    | block hl hk hn hh hb =>
      rw [listsWithin_block] at h
      have hbody := decorations_sort_perm_of_forall hb h fun n hn =>
        ih n hn (hb n hn) fun l hl => h l (mem_lists_of_mem_listsWithin hn hl)
      rw [Node.sortBody_block, Node.ownDecorations, Node.ownDecorations, List.map_append,
        List.map_map]
      refine List.Perm.append (List.Perm.of_eq (List.map_congr_left fun p _ => ?_)) hbody
      rw [Function.comp_apply, sortTarget, Option.map_some, Node.sortBody_block]

/-! ## Files -/

theorem isLevel_of_nestedAll {dent : Option Nat} {nodes : List Node}
    (h : nestedAll dent nodes = true) : isLevel nodes = true := by
  induction nodes with
  | nil => rfl
  | cons node nodes ih =>
    obtain ⟨hstands, -, hnodes⟩ := nestedAll_cons_iff.1 h
    rw [isLevel, ih hnodes, Bool.and_true]
    cases hb : node.isBlock with
    | false => rfl
    | true =>
      rw [Bool.not_true, Bool.false_or]
      cases hfind : nodes.find? fun n => !n.isComment with
      | none => rfl
      | some next =>
        refine hstands.level hb next ?_
        rw [landmark, hfind]
        rfl

theorem orderly_of_nestedAll {dent : Option Nat} {nodes : List Node}
    (h : nestedAll dent nodes = true) (hled : isLed nodes = true) : Orderly nodes where
  level := isLevel_of_nestedAll h
  led := hled
  deeper := by
    intro kind header signature body hblock n hn hc
    have hbody := Node.nested_of_mem h hblock
    rw [Node.nested] at hbody
    exact isWithin_of_mem_nestedAll hbody hn hc

/-- **A sort leaves every decorator its block** where blocks keep their indentations and the blocks
that decorators lead to past a comment come first in their runs.  The passages of both trees are all
lines of code of the file and of what is written. -/
theorem decorations_sort_perm {lines : List String} {nodes : List Node}
    (h : parse lines = .ok nodes)
    (hlevel : ∀ l ∈ Node.lists nodes, (sort l).map Node.indentation = l.map Node.indentation)
    (hled : ∀ l ∈ Node.lists nodes, isLed l = true) :
    codeLines ((passages nodes).flatMap Passage.lines) = codeLines lines ∧
      codeLines ((passages (sort nodes)).flatMap Passage.lines) =
        codeLines (compose true (sort nodes)) ∧
      (decorations (passages (sort nodes))).Perm
        ((decorations (passages nodes)).map sortTarget) := by
  have hread := parse_eq_ok_iff.1 h
  have hf := formed_of_reads hread
  have hstays : ∀ l ∈ Node.lists nodes, StaysOrderly l := by
    intro l hl
    obtain ⟨dent, hdent⟩ := exists_nestedAll_of_mem_lists (nestedAll_of_reads hread).1 hl
    exact ⟨orderly_of_nestedAll hdent (hled l hl), hlevel l hl⟩
  refine ⟨?_, codeLines_passages true none (sort nodes), ?_⟩
  · exact (codeLines_passages true none nodes).trans (compose_spread h).1
  · refine decorations_sort_perm_of_forall hf hstays fun n hn => ?_
    exact ownDecorations_sortBody_perm (hf n hn) fun l hl =>
      hstays l (mem_lists_of_mem_listsWithin hn hl)

/-- A decorator above a comment and a class, which comes first, and one above a function, which
changes its place. -/
theorem decorations_sort_perm_class :
    ∃ nodes, parse ["@one", "# note", "class A:", "    pass", "def g():", "    pass", "@two",
        "def f():", "    pass"] = .ok nodes ∧
      (decorations (passages (sort nodes))).Perm
        [(["@one"], some (.block .namedClass [] ["class A:"] [.statement ["    pass"]])),
          (["@two"], some (.block .function ["@two"] ["def f():"] [.statement ["    pass"]]))] := by
  let body : List Node := [.statement ["    pass"]]
  let nodes : List Node := [.statement ["@one"], .statement ["# note"],
    .block .namedClass [] ["class A:"] body, .block .function [] ["def g():"] body,
    .block .function ["@two"] ["def f():"] body]
  have hread : parse ["@one", "# note", "class A:", "    pass", "def g():", "    pass", "@two",
      "def f():", "    pass"] = .ok nodes := by decide +kernel
  have hlevel : ∀ l ∈ Node.lists nodes, ∀ a ∈ l, ∀ b ∈ l, a.isBlock = true → b.isBlock = true →
      a.indentation = b.indentation := by decide +kernel
  obtain ⟨-, -, hperm⟩ := decorations_sort_perm hread
    (fun l hl => map_indentation_sort_of_forall (hlevel l hl)) (by decide +kernel)
  have hplain : decorations (passages nodes) = [(["@one"], some (.block .namedClass [] ["class A:"]
      body)), (["@two"], some (.block .function ["@two"] ["def f():"] body))] := by decide +kernel
  rw [hplain] at hperm
  refine ⟨nodes, hread, ?_⟩
  simpa [sortTarget, Node.sortBody_block, sort_cons_statement, body] using hperm

/-- A comment below a decorator: a sort puts another function there. -/
theorem decorations_sort_ne :
    ∃ nodes, parse ["@dec", "# note", "def b():", "    pass", "def a():", "    pass"] = .ok nodes ∧
      (decorations (passages nodes)).map (fun d => (d.1, d.2.bind Node.name?)) =
        [(["@dec"], some "b")] ∧
      (decorations (passages (sort nodes))).map (fun d => (d.1, d.2.bind Node.name?)) =
        [(["@dec"], some "a")] := by
  let a : Node := .block .function [] ["def a():"] [.statement ["    pass"]]
  let b : Node := .block .function [] ["def b():"] [.statement ["    pass"]]
  have hread : parse ["@dec", "# note", "def b():", "    pass", "def a():", "    pass"] =
      .ok [.statement ["@dec"], .statement ["# note"], b, a] := by decide +kernel
  have hsorted : sort [.statement ["@dec"], .statement ["# note"], b, a] =
      [.statement ["@dec"], .statement ["# note"], a, b] := by
    have hrun := sort_append_of_perm [] (List.cons_ne_nil b [a]) (by decide +kernel)
      (List.Perm.swap b a []) (by decide +kernel) (fun _ hn => nomatch hn)
    rw [sort_cons_statement, sort_cons_statement]
    simpa [Node.sortBody_block, sort_cons_statement, a, b] using hrun
  refine ⟨_, hread, by decide +kernel, ?_⟩
  rw [hsorted]
  decide +kernel

end HouseStyle.Block
