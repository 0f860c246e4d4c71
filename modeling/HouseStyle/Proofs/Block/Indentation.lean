import HouseStyle.Proofs.Block.Reread
import HouseStyle.Proofs.Block.Sort

/-!
# Sorting and indentation

Neighbouring blocks need not stand at one indentation: a list holds what is indented under an `if`
as well as what follows the `if`.  Where a file is read, the indentation of neighbouring blocks never
grows.  A sort keeps the indentation at every place of a list exactly if it has no reason to move a
block past one of another indentation.

* `pairwise_atMost_of_nestedAll`: neighbouring blocks of a nested list.
* `map_indentation_inOrder`, `aligned_of_map_indentation`: the sorted runs that keep theirs.
* `map_indentation_sort_of_forall`: blocks that stand at one indentation.
* `map_indentation_sort_iff`: **when a sorted file does**, list by list.
* `map_indentation_sort_ne`: a function under an `if` changes places with one below it.
-/

namespace HouseStyle.Block

open Text

variable {dent : Option Nat}

/-! ## Neighbouring blocks -/

theorem Node.isComment_eq_false_of_isBlock {node : Node} (h : node.isBlock = true) :
    node.isComment = false := by
  cases node with
  | statement => cases h
  | block => rfl

theorem pairwise_atMost_of_nestedAll {run rest : List Node} (hn : nestedAll dent (run ++ rest) = true)
    (hrun : ∀ n ∈ run, n.isBlock = true) :
    run.Pairwise fun a b => b.indentation.atMost a.indentation = true := by
  induction run with
  | nil => exact .nil
  | cons a run ih =>
    obtain ⟨ha, hrun⟩ := List.forall_mem_cons.1 hrun
    obtain ⟨hstands, -, hn⟩ := nestedAll_cons_iff.1 hn
    have hpairs := ih hn hrun
    refine .cons (fun b hb => ?_) hpairs
    cases run with
    | nil => cases hb
    | cons next run =>
      have hnext : next.indentation.atMost a.indentation = true := by
        refine hstands.level ha next ?_
        refine landmark_cons (Or.inl ?_)
        exact Node.isComment_eq_false_of_isBlock (hrun next (by simp))
      rcases List.mem_cons.1 hb with rfl | hb
      · exact hnext
      · exact Indentation.atMost_trans (List.rel_of_pairwise_cons hpairs hb) hnext

/-! ## One run -/

/-- Whether a sort has no reason to move blocks past blocks of another indentation. -/
def Aligned (run : List Node) : Prop :=
  run.Pairwise fun a b => a.indentation = b.indentation ∨ (compareNodes a b).isLE = true

/-- Blocks in the order of their keys stand where the blocks of their indentation stood. -/
theorem map_indentation_inOrder {run : List Node} (h : Aligned run) :
    (inOrder run).map Node.indentation = run.map Node.indentation := by
  induction run with
  | nil => rw [inOrder_nil]
  | cons a run ih =>
    obtain ⟨ha, hrun⟩ := List.pairwise_cons.1 h
    obtain ⟨front, back, hcons, hinner, hfront⟩ := inOrder_cons a run
    have hih := ih hrun
    -- the blocks that are less than `a` stand where `a` does
    have hlevel : front.map Node.indentation = List.replicate front.length a.indentation := by
      refine List.eq_replicate_iff.2 ⟨List.length_map _, fun i hi => ?_⟩
      obtain ⟨b, hb, rfl⟩ := List.mem_map.1 hi
      have hmem : b ∈ run := by
        refine (inOrder_perm run).mem_iff.1 ?_
        rw [hinner]
        exact List.mem_append_left _ hb
      exact ((ha b hmem).resolve_right (by simp [hfront b hb])).symm
    rw [hinner, List.map_append, hlevel] at hih
    rw [hcons, List.map_append, List.map_cons, List.map_cons, hlevel, ← hih, ← List.cons_append,
      ← List.replicate_succ, List.replicate_succ', List.append_assoc]
    rfl

/-- A run whose indentations do not grow, before and after a sort, is aligned. -/
theorem aligned_of_map_indentation {run : List Node}
    (hlevel : run.Pairwise fun a b => b.indentation.atMost a.indentation = true)
    (h : (inOrder run).map Node.indentation = run.map Node.indentation) : Aligned run := by
  have hsorted : (inOrder run).Pairwise fun a b => b.indentation.atMost a.indentation = true := by
    have hmap : (run.map Node.indentation).Pairwise fun i j => j.atMost i = true :=
      List.pairwise_map.2 hlevel
    rw [← h] at hmap
    exact List.pairwise_map.1 hmap
  let Apart : Node → Node → Prop := fun a b =>
    (compareNodes a b).isLE = true ∧ b.indentation.atMost a.indentation = true ∨
      (compareNodes b a).isLE = true ∧ a.indentation.atMost b.indentation = true
  -- any two blocks agree on both orders, since they do where the sorted run has them
  have hapart : (inOrder run).Pairwise Apart :=
    ((inOrder_pairwise run).and hsorted).imp fun hab => Or.inl hab
  have hsymm : Std.Symm Apart := ⟨fun _ _ hab => hab.symm⟩
  refine hlevel.imp_of_mem fun {a b} ha hb hle => ?_
  by_cases hi : a.indentation = b.indentation
  · exact Or.inl hi
  · have hne : a ≠ b := fun he => hi (congrArg Node.indentation he)
    have hmem := fun n => (inOrder_perm run).mem_iff (a := n)
    rcases hapart.forall ((hmem a).2 ha) ((hmem b).2 hb) hne with ⟨hab, -⟩ | ⟨-, hge⟩
    · exact Or.inr hab
    · exact absurd (Indentation.eq_of_atMost hge hle) hi

/-! ## Lists -/

theorem map_indentation_sort_eq (nodes : List Node) :
    (sort nodes).map Node.indentation = (sortRuns nodes).map Node.indentation := by
  rw [sort_eq_map, List.map_map]
  exact List.map_congr_left fun n _ => n.indentation_sortBody

theorem map_indentation_sort {nodes : List Node}
    (h : ∀ run, run <:+: nodes → (∀ n ∈ run, n.isBlock = true) → Aligned run) :
    (sort nodes).map Node.indentation = nodes.map Node.indentation := by
  rw [map_indentation_sort_eq]
  induction nodes using runs_induction (p := Node.isBlock) with
  | nil => rw [sortRuns, mapRuns]
  | other node nodes hnode ih =>
    rw [sortRuns_cons_of_not_isBlock hnode, List.map_cons, List.map_cons, ih]
    exact fun run hrun => h run (hrun.trans (List.suffix_cons node nodes).isInfix)
  | run run rest hne hrun hrest ih =>
    rw [sortRuns_append hne hrun hrest, List.map_append, List.map_append, ih,
      map_indentation_inOrder (h run (List.prefix_append run rest).isInfix hrun)]
    exact fun stretch hs => h stretch (hs.trans (List.suffix_append run rest).isInfix)

theorem map_indentation_sort_of_forall {nodes : List Node}
    (h : ∀ a ∈ nodes, ∀ b ∈ nodes, a.isBlock = true → b.isBlock = true →
      a.indentation = b.indentation) :
    (sort nodes).map Node.indentation = nodes.map Node.indentation := by
  refine map_indentation_sort fun run hrun hall => ?_
  refine List.pairwise_of_forall_mem_list fun a ha b hb => Or.inl ?_
  exact h a (hrun.subset ha) b (hrun.subset hb) (hall a ha) (hall b hb)

theorem aligned_of_map_indentation_sort {nodes : List Node} (hn : nestedAll dent nodes = true)
    (h : (sort nodes).map Node.indentation = nodes.map Node.indentation) :
    ∀ run, run <:+: nodes → (∀ n ∈ run, n.isBlock = true) → Aligned run := by
  rw [map_indentation_sort_eq] at h
  induction nodes using runs_induction (p := Node.isBlock) with
  | nil =>
    intro run hrun _
    rw [List.infix_nil.1 hrun]
    exact .nil
  | other node nodes hnode ih =>
    intro run hrun hall
    rw [sortRuns_cons_of_not_isBlock hnode, List.map_cons, List.map_cons, List.cons.injEq] at h
    exact ih (nestedAll_cons_iff.1 hn).2.2 h.2 run (infix_of_infix_cons hnode hall hrun) hall
  | run run rest hne hrun hrest ih =>
    intro stretch hstretch hall
    rw [sortRuns_append hne hrun hrest, List.map_append, List.map_append] at h
    have hlength : ((inOrder run).map Node.indentation).length = (run.map Node.indentation).length :=
      by rw [List.length_map, List.length_map, (inOrder_perm run).length_eq]
    obtain ⟨hfirst, hsecond⟩ := List.append_inj h hlength
    rcases infix_of_infix_append hrest hall hstretch with hin | hin
    · have hlevel := pairwise_atMost_of_nestedAll hn hrun
      exact (aligned_of_map_indentation hlevel hfirst).sublist hin.sublist
    · exact ih (nestedAll_of_append hn) hsecond stretch hin hall

/-- **A sort keeps the indentations of all lists of a file exactly if in no list it would move a
block past a neighbouring block of another indentation.**  The lists of the sorted file are the
sorted lists. -/
theorem map_indentation_sort_iff {lines : List String} {nodes : List Node}
    (h : parse lines = .ok nodes) :
    (Node.lists (sort nodes)).Perm ((Node.lists nodes).map sort) ∧
      ((∀ l ∈ Node.lists nodes, (sort l).map Node.indentation = l.map Node.indentation) ↔
        ∀ l ∈ Node.lists nodes, ∀ run, run <:+: l → (∀ n ∈ run, n.isBlock = true) →
          run.Pairwise fun a b =>
            a.indentation = b.indentation ∨ (compareNodes a b).isLE = true) := by
  refine ⟨lists_sort_perm nodes, ?_⟩
  have hn := (nestedAll_of_reads (parse_eq_ok_iff.1 h)).1
  refine forall₂_congr fun l hl => ?_
  obtain ⟨dent, hdent⟩ := exists_nestedAll_of_mem_lists hn hl
  exact ⟨aligned_of_map_indentation_sort hdent, map_indentation_sort⟩

/-- The members of a class stand at one indentation. -/
theorem map_indentation_sort_members :
    ∃ nodes, parse ["class A:", "    def g(self):", "        pass", "    def f(self):",
        "        pass"] = .ok nodes ∧
      ∀ l ∈ Node.lists nodes, (sort l).map Node.indentation = l.map Node.indentation := by
  let f : Node := .block .function [] ["    def f(self):"] [.statement ["        pass"]]
  let g : Node := .block .function [] ["    def g(self):"] [.statement ["        pass"]]
  have hread : parse ["class A:", "    def g(self):", "        pass", "    def f(self):",
      "        pass"] = .ok [.block .namedClass [] ["class A:"] [g, f]] := by decide +kernel
  have hlevel : ∀ l ∈ Node.lists [.block .namedClass [] ["class A:"] [g, f]], ∀ a ∈ l, ∀ b ∈ l,
      a.isBlock = true → b.isBlock = true → a.indentation = b.indentation := by decide +kernel
  refine ⟨_, hread, (map_indentation_sort_iff hread).2.2 fun l hl run hrun hall => ?_⟩
  refine List.pairwise_of_forall_mem_list fun a ha b hb => Or.inl ?_
  exact hlevel l hl a (hrun.subset ha) b (hrun.subset hb) (hall a ha) (hall b hb)

/-- A function under an `if` changes places with a function below the `if`. -/
theorem map_indentation_sort_ne :
    ∃ nodes, parse ["if x:", "    def b():", "        pass", "def a():", "    pass"] = .ok nodes ∧
      ∃ l ∈ Node.lists nodes, (sort l).map Node.indentation ≠ l.map Node.indentation := by
  let a : Node := .block .function [] ["def a():"] [.statement ["    pass"]]
  let b : Node := .block .function [] ["    def b():"] [.statement ["        pass"]]
  have hread : parse ["if x:", "    def b():", "        pass", "def a():", "    pass"] =
      .ok [.statement ["if x:"], b, a] := by decide +kernel
  have hsorted : sort [.statement ["if x:"], b, a] = [.statement ["if x:"], a, b] := by
    have hrun := sort_append_of_perm [] (List.cons_ne_nil b [a]) (by decide +kernel)
      (List.Perm.swap b a []) (by decide +kernel) (fun _ hn => nomatch hn)
    rw [sort_cons_statement]
    simpa [Node.sortBody_block, sort_cons_statement, a, b] using hrun
  refine ⟨_, hread, _, self_mem_lists _, ?_⟩
  rw [hsorted]
  decide +kernel

end HouseStyle.Block
