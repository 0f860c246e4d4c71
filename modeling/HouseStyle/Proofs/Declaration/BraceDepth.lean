import HouseStyle.Proofs.Declaration.CaseGroups
import HouseStyle.Proofs.Text.Order

/-!
# Case groups and braces

Groups are cut out of a method body by indentation, but what may trade places in a program is decided
by its braces.  A group whose braces balance can move without changing the depth of any line.  One
that leaves a brace open, because its closing line is not a brace alone, or that takes the brace of
the switch around it, cannot.

* `depths`: the lines of a text with the number of braces open in front of each.
* `isSteady`: runs of groups that keep every line at its depth.
* `depths_sortCaseGroups_perm`: **lines of steady runs stay at their depth.**
-/

namespace HouseStyle

open Text

/-- The braces a line opens less those it closes, outside its literals. -/
def lineBalance (line : String) : Int :=
  (codeCount '\x7b' line.toList : Int) - codeCount '\x7d' line.toList

/-- The braces some lines open less those they close. -/
def balance : List String → Int
  | [] => 0
  | line :: lines => lineBalance line + balance lines

/-- The lines with the number of braces open in front of each, `start` in front of the first. -/
def depthsFrom (start : Int) : List String → List (String × Int)
  | [] => []
  | line :: lines => (line, start) :: depthsFrom (start + lineBalance line) lines

/-- The lines of a text with the number of braces open in front of each. -/
def depths (lines : List String) : List (String × Int) := depthsFrom 0 lines

/-- Whether a run of groups is in order by its case lines already, or consists of groups whose
braces balance. -/
def isSteady (groups : List (List String)) : Bool :=
  decide ((groups.filterMap List.head?).Pairwise fun a b => compareTexts a b = .lt) ||
    groups.all fun group => balance group == 0

/-! ## Depths -/

@[simp] theorem balance_nil : balance [] = 0 := rfl

@[simp] theorem balance_cons (line : String) (lines : List String) :
    balance (line :: lines) = lineBalance line + balance lines := rfl

@[simp] theorem balance_append (a b : List String) : balance (a ++ b) = balance a + balance b := by
  induction a with
  | nil => simp
  | cons line a ih =>
    rw [List.cons_append, balance_cons, balance_cons, ih]
    omega

theorem balance_eq_of_perm {a b : List String} (h : a.Perm b) : balance a = balance b := by
  induction h with
  | nil => rfl
  | cons line _ ih => rw [balance_cons, balance_cons, ih]
  | swap line line' lines =>
    simp only [balance_cons]
    omega
  | trans _ _ ih ih' => exact ih.trans ih'

theorem depthsFrom_append (start : Int) (a b : List String) :
    depthsFrom start (a ++ b) = depthsFrom start a ++ depthsFrom (start + balance a) b := by
  induction a generalizing start with
  | nil => simp [depthsFrom]
  | cons line a ih => simp [depthsFrom, ih, Int.add_assoc]

theorem depthsFrom_flatten (start : Int) {groups : List (List String)}
    (h : ∀ g ∈ groups, balance g = 0) :
    depthsFrom start groups.flatten = groups.flatMap (depthsFrom start) := by
  induction groups with
  | nil => rfl
  | cons g gs ih =>
    obtain ⟨hg, hgs⟩ := List.forall_mem_cons.1 h
    rw [List.flatten_cons, depthsFrom_append, hg, Int.add_zero, ih hgs, List.flatMap_cons]

/-! ## Steady runs -/

theorem sortGroups_eq_self {groups : List (List String)} (hne : ∀ g ∈ groups, g ≠ [])
    (h : (groups.filterMap List.head?).Pairwise fun a b => compareTexts a b = .lt) :
    sortGroups groups = groups := by
  refine List.mergeSort_of_pairwise ?_
  refine (List.pairwise_filterMap.1 h).imp_of_mem ?_
  intro a b ha hb hab
  obtain ⟨x, xs, rfl⟩ := List.exists_cons_of_ne_nil (hne a ha)
  obtain ⟨y, ys, rfl⟩ := List.exists_cons_of_ne_nil (hne b hb)
  have hxy : compareTexts x y = .lt := hab x rfl y rfl
  simp [compareLines, List.compareLex_cons_cons, hxy]

/-- The lines of a steady run stay at their depth when it is sorted. -/
theorem depthsFrom_sortGroups_perm (start : Int) {groups : List (List String)}
    (hne : ∀ g ∈ groups, g ≠ []) (h : isSteady groups = true) :
    (depthsFrom start (sortGroups groups).flatten).Perm (depthsFrom start groups.flatten) := by
  rw [isSteady, Bool.or_eq_true, decide_eq_true_eq, List.all_eq_true] at h
  rcases h with hsorted | hbalanced
  · rw [sortGroups_eq_self hne hsorted]
  · have hzero : ∀ g ∈ groups, balance g = 0 := fun g hg => eq_of_beq (hbalanced g hg)
    have hperm := sortGroups_perm groups
    rw [depthsFrom_flatten start hzero,
      depthsFrom_flatten start fun g hg => hzero g (hperm.mem_iff.1 hg)]
    exact hperm.flatMap_right _

theorem isSteady_of_alike {groups groups' : List (List String)}
    (h : List.Forall₂ GroupAlike groups groups') : isSteady groups = isSteady groups' := by
  have hboth : groups.filterMap List.head? = groups'.filterMap List.head? ∧
      (groups.all fun g => balance g == 0) = groups'.all fun g => balance g == 0 := by
    induction h with
    | nil => exact ⟨rfl, rfl⟩
    | cons hg _ ih =>
      rw [List.filterMap_cons, List.filterMap_cons, hg.1, ih.1, List.all_cons, List.all_cons,
        balance_eq_of_perm hg.2, ih.2]
      exact ⟨rfl, rfl⟩
  rw [isSteady, isSteady, hboth.1, hboth.2]

theorem isSteady_groupRuns_sortGroupsAt {d dent : Nat} (hd : d < dent) {lines : List String}
    (h : ∀ run ∈ groupRuns d lines, isSteady run = true) :
    ∀ run ∈ groupRuns d (sortGroupsAt dent lines), isSteady run = true := by
  have hruns := (likeAbove_sortGroupsAt hd lines).forall₂_groupRuns
  intro run hrun
  obtain ⟨run', hmem, halike⟩ := exists_of_mem_of_forall₂ hruns hrun
  rw [← isSteady_of_alike halike]
  exact h run' hmem

/-! ## Bodies -/

theorem ne_nil_of_mem_leadingGroups {dent : Nat} {ls : List String} :
    ∀ g ∈ (leadingGroups dent ls).1, g ≠ [] := by
  fun_induction leadingGroups dent ls with
  | case1 => exact fun _ hg => absurd hg List.not_mem_nil
  | case2 line below _ group more ih =>
    exact List.forall_mem_cons.2 ⟨List.cons_ne_nil _ _, ih⟩
  | case3 => exact fun _ hg => absurd hg List.not_mem_nil

/-- Sorting one level keeps every line at its depth if the runs there are steady. -/
theorem depthsFrom_sortGroupsAt_perm {dent : Nat} {lines : List String}
    (h : ∀ run ∈ groupRuns dent lines, isSteady run = true) (start : Int) :
    (depthsFrom start (sortGroupsAt dent lines)).Perm (depthsFrom start lines) := by
  fun_induction sortGroupsAt dent lines generalizing start with
  | case1 => exact .refl _
  | case2 line below hcase group more ih =>
    rw [groupRuns_of_isCaseAt hcase] at h
    obtain ⟨hrun, hrest⟩ := List.forall_mem_cons.1 h
    have hne : ∀ g ∈ (line :: group.1) :: more.1, g ≠ [] :=
      List.forall_mem_cons.2 ⟨List.cons_ne_nil _ _, ne_nil_of_mem_leadingGroups⟩
    have hperm := sortGroups_perm ((line :: group.1) :: more.1)
    rw [← run_append dent line below, depthsFrom_append, depthsFrom_append,
      balance_eq_of_perm hperm.flatten]
    exact (depthsFrom_sortGroups_perm start hne hrun).append (ih hrest _)
  | case3 line below hcase ih =>
    rw [groupRuns_of_not_isCaseAt (Bool.eq_false_iff.2 hcase)] at h
    exact (ih h _).cons _

/-- **Lines of steady runs stay at their depth** when the case groups of a body are sorted. -/
theorem depths_sortCaseGroups_perm {lines : List String}
    (h : ∀ line ∈ lines, isCaseLine line = true →
      ∀ run ∈ groupRuns (leadingSpaces line) lines, isSteady run = true) :
    (depths (sortCaseGroups lines)).Perm (depths lines) := by
  have hsteady : ∀ dent ∈ caseIndentations lines, ∀ run ∈ groupRuns dent lines,
      isSteady run = true := by
    intro dent hdent
    obtain ⟨line, hline, hcase, rfl⟩ := mem_caseIndentations_iff.1 hdent
    exact h line hline hcase
  have hlevels := caseIndentations_pairwise lines
  clear h
  unfold sortCaseGroups
  generalize caseIndentations lines = dents at hsteady hlevels
  -- the runs of the levels still to come stay steady while a deeper one is sorted
  induction dents generalizing lines with
  | nil => exact .refl _
  | cons dent dents ih =>
    obtain ⟨hdent, hdents⟩ := List.forall_mem_cons.1 hsteady
    obtain ⟨hlt, hlevels⟩ := List.pairwise_cons.1 hlevels
    rw [List.foldl_cons]
    refine (ih ?_ hlevels).trans (depthsFrom_sortGroupsAt_perm hdent 0)
    intro d hd
    exact isSteady_groupRuns_sortGroupsAt (hlt d hd) (hdents d hd)

/-- A switch inside a case of another one, both out of order. -/
theorem depths_sortCaseGroups_perm_nested :
    (depths (sortCaseGroups ["switch (k) \x7b", "  case B -> \x7b", "    switch (l) \x7b",
        "      case D -> d();", "      case C -> c();", "    \x7d", "  \x7d", "  case A -> a();",
        "\x7d"])).Perm
      [("switch (k) \x7b", 0), ("  case B -> \x7b", 1), ("    switch (l) \x7b", 2),
        ("      case D -> d();", 3), ("      case C -> c();", 3), ("    \x7d", 3), ("  \x7d", 2),
        ("  case A -> a();", 1), ("\x7d", 1)] :=
  depths_sortCaseGroups_perm (by decide +kernel)

/-- A group whose closing line is not a brace alone: it moves without that line, and the case that
stood in front of it ends up inside. -/
theorem depths_sortCaseGroups_not_perm :
    let body := ["switch (k) \x7b", "  case C -> c();", "  case B -> run(() -> \x7b", "    b();",
      "  \x7d);", "\x7d"]
    balance body = 0 ∧ (∀ p ∈ depths body, 0 ≤ p.2) ∧
      ¬ (depths (sortCaseGroups body)).Perm (depths body) := by
  intro body
  have hlevels : caseIndentations body = [2] := by
    have hlines : (body.filter isCaseLine).map leadingSpaces = [2, 2] := by decide +kernel
    rw [caseIndentations, hlines, List.mergeSort_of_pairwise (by decide)]
    rfl
  have hrun : sortGroups [["  case C -> c();"], ["  case B -> run(() -> \x7b", "    b();"]] =
      [["  case B -> run(() -> \x7b", "    b();"], ["  case C -> c();"]] :=
    mergeSort_eq_of_perm (by decide) (by decide +kernel)
  have hgroup : splitGroup 2 (body.drop 2) = ([], body.drop 2) := by decide +kernel
  have hmore : leadingGroups 2 (body.drop 2) =
      ([["  case B -> run(() -> \x7b", "    b();"]], ["  \x7d);", "\x7d"]) := by decide +kernel
  have hsorted : sortCaseGroups body = ["switch (k) \x7b", "  case B -> run(() -> \x7b", "    b();",
      "  case C -> c();", "  \x7d);", "\x7d"] := by
    rw [sortCaseGroups, hlevels, List.foldl_cons, List.foldl_nil, sortGroupsAt,
      if_neg (by decide +kernel), sortGroupsAt, if_pos (by decide +kernel)]
    dsimp only
    rw [show ["  case B -> run(() -> \x7b", "    b();", "  \x7d);", "\x7d"] = body.drop 2 from rfl,
      hgroup]
    dsimp only
    rw [hmore]
    dsimp only
    rw [hrun, sortGroupsAt, if_neg (by decide +kernel), sortGroupsAt, if_neg (by decide +kernel),
      sortGroupsAt]
    rfl
  rw [hsorted]
  decide +kernel

end HouseStyle
