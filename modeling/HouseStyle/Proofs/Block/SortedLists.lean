import HouseStyle.Proofs.Block.Sort

/-!
# Sorted lists

`ListSortsTo` says what a sort makes of a list of nodes and not how: the body of every block is sorted
first, then the statements stand where they stood and every run of blocks stands in the one stable
order by kind, name and signature.

* `compareBlocks`, `compareNodes_eq`: the order of blocks, and that a sort goes by it.
* `RunsSorted`, `runsSorted_iff`: one list with its runs of blocks sorted.
* `Node.SortsTo`, `Node.sortsTo_iff`: a node with all lists inside it sorted.
* `sort_eq_iff_listSortsTo`: **a sort meets its specification**, and a sorted list is sorted.
-/

namespace HouseStyle.Block

open Text

/-! ## The order of blocks -/

/-- A class comes before a function. -/
def Kind.compare : Kind → Kind → Ordering
  | .namedClass, .function => .lt
  | .function, .namedClass => .gt
  | .namedClass, .namedClass | .function, .function => .eq

/-- The name that the signature of a block shows, the empty text if it shows none. -/
def Kind.nameIn (kind : Kind) (signature : List String) : String :=
  (kind.name? (firstOf signature)).getD ""

/-- Two blocks: classes before functions, then by name with its numbers read as numbers, then by the
lines of the signature.  Statements are in no run, and stand here in front of blocks. -/
def compareBlocks : Node → Node → Ordering
  | .block kind _ signature _, .block kind' _ signature' _ =>
    (kind.compare kind').then
      ((compareKeys (naturalKey (kind.nameIn signature)) (naturalKey (kind'.nameIn signature'))).then
        (compareLines signature signature'))
  | .statement _, .block .. => .lt
  | .block .., .statement _ => .gt
  | .statement _, .statement _ => .eq

theorem compareNodes_eq : compareNodes = compareBlocks := by
  funext a b
  cases a with
  | statement lines => cases b <;> rfl
  | block kind header signature body =>
    cases b with
    | statement lines => rfl
    | block kind' header' signature' body' =>
      have hkinds : Ord.compare kind.rank kind'.rank = kind.compare kind' := by
        cases kind <;> cases kind' <;> rfl
      simp only [compareNodes, Node.sortKey?, compareSortKeys, compareBlocks, Kind.nameIn, hkinds]

/-! ## One list -/

/-- Whether the second list is the first one with every run of blocks sorted. -/
structure RunsSorted (nodes nodes' : List Node) : Prop where
  perm : nodes'.Perm nodes
  statement : ∀ (i : Nat) (lines : List String), nodes[i]? = some (.statement lines) →
    nodes'[i]? = some (.statement lines)
  run : ∀ before run after, nodes = before ++ run ++ after → IsRun Node.isBlock before run after →
    IsStableSort compareBlocks run ((nodes'.drop before.length).take run.length)

theorem isStableSort_iff_eq_inOrder {run run' : List Node} :
    IsStableSort compareBlocks run run' ↔ run' = inOrder run := by
  rw [← compareNodes_eq]
  exact isStableSort_iff

/-- A list has one list with its runs sorted. -/
theorem runsSorted_iff {nodes nodes' : List Node} :
    RunsSorted nodes nodes' ↔ nodes' = sortRuns nodes := by
  have hplaces : nodes' = sortRuns nodes ↔ _ :=
    eq_mapRuns_iff fun run => (inOrder_perm run).length_eq
  constructor
  · rintro ⟨hperm, hstatement, hrun⟩
    refine hplaces.2 ⟨hperm.length_eq, fun i n hn hb => ?_, fun before run after hnodes hr => ?_⟩
    · obtain ⟨lines, rfl⟩ := exists_statement_of_isBlock hb
      exact hstatement i lines hn
    · exact isStableSort_iff_eq_inOrder.1 (hrun before run after hnodes hr)
  · intro h
    obtain ⟨-, hother, hrun⟩ := hplaces.1 h
    refine ⟨h ▸ sortRuns_perm nodes, fun i lines hn => hother i _ hn rfl, ?_⟩
    intro before run after hnodes hr
    exact isStableSort_iff_eq_inOrder.2 (hrun before run after hnodes hr)

theorem runsSorted_nil : RunsSorted [] [] :=
  runsSorted_iff.2 (by rw [sortRuns, mapRuns])

theorem RunsSorted.cons_statement {nodes nodes' : List Node} (h : RunsSorted nodes nodes')
    (lines : List String) : RunsSorted (.statement lines :: nodes) (.statement lines :: nodes') := by
  rw [runsSorted_iff] at h ⊢
  rw [sortRuns_cons_of_not_isBlock rfl, h]

/-- Blocks in strictly increasing order are the sorted run in front of what is sorted behind it. -/
theorem RunsSorted.append {run ordered rest rest' : List Node} (h : RunsSorted rest rest')
    (hrun : IsRun Node.isBlock [] run rest) (hp : ordered.Perm run)
    (hlt : ordered.Pairwise fun a b => compareBlocks a b = .lt) :
    RunsSorted (run ++ rest) (ordered ++ rest') := by
  rw [← compareNodes_eq] at hlt
  have horder : inOrder run = ordered := mergeSort_eq_of_perm hp hlt
  rw [runsSorted_iff] at h ⊢
  rw [sortRuns_append hrun.ne_nil hrun.all hrun.stop, horder, h]

/-! ## All lists -/

/-- Whether the second node is the first one with all lists inside it sorted. -/
inductive Node.SortsTo : Node → Node → Prop
  | statement (lines : List String) : SortsTo (.statement lines) (.statement lines)
  | block {kind : Kind} {header signature : List String} {body sorted body' : List Node}
      (hb : List.Forall₂ SortsTo body sorted) (hr : RunsSorted sorted body') :
      SortsTo (.block kind header signature body) (.block kind header signature body')

/-- Whether the second list is the first one with its runs and all lists inside its nodes sorted. -/
def ListSortsTo (nodes nodes' : List Node) : Prop :=
  ∃ sorted, List.Forall₂ Node.SortsTo nodes sorted ∧ RunsSorted sorted nodes'

theorem listSortsTo_iff_of_forall {nodes nodes' : List Node}
    (h : ∀ n ∈ nodes, ∀ n', n.SortsTo n' ↔ n' = n.sortBody) :
    ListSortsTo nodes nodes' ↔ nodes' = sort nodes := by
  rw [sort_eq]
  constructor
  · rintro ⟨sorted, hsorted, hruns⟩
    rw [runsSorted_iff.1 hruns, (forall₂_iff_eq_map h).1 hsorted]
  · intro hn
    exact ⟨_, (forall₂_iff_eq_map h).2 rfl, runsSorted_iff.2 hn⟩

theorem Node.sortsTo_iff {node node' : Node} : node.SortsTo node' ↔ node' = node.sortBody := by
  induction node using node_induction generalizing node' with
  | statement lines =>
    rw [sortBody_statement]
    constructor
    · rintro ⟨⟩
      rfl
    · rintro rfl
      exact .statement lines
  | block kind header signature body ih =>
    have hbody : ∀ {body'}, ListSortsTo body body' ↔ body' = sort body :=
      listSortsTo_iff_of_forall fun n hn n' => ih n hn
    rw [sortBody_block]
    constructor
    · intro h
      cases h with
      | block hb hr => rw [hbody.1 ⟨_, hb, hr⟩]
    · rintro rfl
      obtain ⟨sorted, hb, hr⟩ := hbody.2 rfl
      exact .block hb hr

/-- **A sort makes the list in which, at every depth, statements stand in their places and runs of
blocks in the stable order by kind, name and signature.**  A second sort leaves it as it is. -/
theorem sort_eq_iff_listSortsTo (nodes nodes' : List Node) :
    (sort nodes = nodes' ↔ ListSortsTo nodes nodes') ∧ sort (sort nodes) = sort nodes := by
  refine ⟨?_, sort_sort nodes⟩
  rw [listSortsTo_iff_of_forall fun n _ n' => Node.sortsTo_iff, eq_comm]

/-- In front of a statement a class comes before two functions and its methods change places, and the
functions stand by the numbers in their names; the class behind the statement stays there. -/
theorem sort_eq_iff_listSortsTo_fence :
    let item10 : Node := .block .function [] ["def item10():"] [.statement ["    pass"]]
    let item2 : Node := .block .function ["@cache"] ["def item2():"] [.statement ["    pass"]]
    let b : Node := .block .function [] ["    def b(self):"] [.statement ["        pass"]]
    let a : Node := .block .function [] ["    def a(self):"] [.statement ["        pass"]]
    let ark : Node := .block .namedClass [] ["class Ark:"] [.statement ["    pass"]]
    sort [item10, item2, .block .namedClass [] ["class Zoo:"] [b, a], .statement ["x = 1"], ark] =
        [.block .namedClass [] ["class Zoo:"] [a, b], item2, item10, .statement ["x = 1"], ark] ∧
      sort [.block .namedClass [] ["class Zoo:"] [a, b], item2, item10, .statement ["x = 1"], ark] =
        [.block .namedClass [] ["class Zoo:"] [a, b], item2, item10, .statement ["x = 1"], ark] := by
  intro item10 item2 b a ark
  have hleaf : ∀ kind header signature lines, Node.SortsTo
      (.block kind header signature [.statement lines])
      (.block kind header signature [.statement lines]) := fun _ _ _ lines =>
    .block (.cons (.statement lines) .nil) (runsSorted_nil.cons_statement lines)
  have hmethods : RunsSorted ([b, a] ++ []) ([a, b] ++ []) :=
    runsSorted_nil.append ⟨List.cons_ne_nil _ _, by decide, nofun, nofun⟩ (.swap _ _ _)
      (by decide +kernel)
  have hark : RunsSorted ([ark] ++ []) ([ark] ++ []) :=
    runsSorted_nil.append ⟨List.cons_ne_nil _ _, by decide, nofun, nofun⟩ (.refl _)
      (List.pairwise_singleton _ _)
  have hruns : RunsSorted
      ([item10, item2, .block .namedClass [] ["class Zoo:"] [a, b]] ++ .statement ["x = 1"] :: [ark])
      ([.block .namedClass [] ["class Zoo:"] [a, b], item2, item10] ++ .statement ["x = 1"] :: [ark]) :=
    (hark.cons_statement ["x = 1"]).append ⟨List.cons_ne_nil _ _, by decide, nofun, by decide⟩
      (List.reverse_perm _).symm (by decide +kernel)
  have hbodies : List.Forall₂ Node.SortsTo
      [item10, item2, .block .namedClass [] ["class Zoo:"] [b, a], .statement ["x = 1"], ark]
      [item10, item2, .block .namedClass [] ["class Zoo:"] [a, b], .statement ["x = 1"], ark] :=
    .cons (hleaf ..) (.cons (hleaf ..) (.cons
      (.block (.cons (hleaf ..) (.cons (hleaf ..) .nil)) hmethods)
      (.cons (.statement _) (.cons (hleaf ..) .nil))))
  obtain ⟨hspec, hagain⟩ := sort_eq_iff_listSortsTo
    [item10, item2, .block .namedClass [] ["class Zoo:"] [b, a], .statement ["x = 1"], ark]
    [.block .namedClass [] ["class Zoo:"] [a, b], item2, item10, .statement ["x = 1"], ark]
  have hsort := hspec.2 ⟨_, hbodies, hruns⟩
  rw [hsort] at hagain
  exact ⟨hsort, hagain⟩

end HouseStyle.Block
