import HouseStyle.Proofs.Declaration.CaseRuns

/-!
# Where case groups lie

The levels of a body are sorted from the deepest to the shallowest, each in the text that the deeper
ones left.  That text has the case groups of the level where the body had them, since deeper levels
only move deeper lines.  So each level puts groups in order in places that can be read off the body,
and a line in none of these places stays where it is.

* `groupPlaces`: where the groups of an indentation lie, run by run.
* `GroupsSorted`, `groupsSorted_sortGroupsAt`: one level, with the groups of each run in order in place.
* `groupPlaces_sortLevels`: deeper levels leave the groups of a level where they are.
* `sortCaseGroups_in_place`: **case groups move as wholes**, and nothing else moves.
-/

namespace HouseStyle

open Text

variable {dent : Nat} {lines rest : List String} {groups : List (List String)}

/-- The lines of a stretch. -/
def linesAt (lines : List String) (r : Run) : List String :=
  (lines.drop r.start).take (r.stop - r.start)

/-- From the start of the first of some stretches to the end of the last one. -/
def hull (run : List Run) : Run :=
  ⟨(run.head?.map Run.start).getD 0, (run.getLast?.map Run.stop).getD 0⟩

/-- The stretches of some groups that stand one behind the other from an index on. -/
def stretches (index : Nat) : List (List String) → List Run
  | [] => []
  | g :: gs => ⟨index, index + g.length⟩ :: stretches (index + g.length) gs

/-- Where the groups of each run of an indentation lie. -/
def groupPlaces (dent : Nat) (lines : List String) : List (List Run) :=
  (caseRuns dent lines).map fun run =>
    stretches (lines.length - (run.1.flatten ++ run.2).length) run.1

/-- Whether the second text is the first one with the groups of each run, which lie in the given places,
in increasing order in these places, and with every other line where it was. -/
structure GroupsSorted (runs : List (List Run)) (lines lines' : List String) : Prop where
  length_eq : lines'.length = lines.length
  elsewhere : ∀ i, (∀ run ∈ runs, ∀ g ∈ run, ¬ g.Has i) → lines'[i]? = lines[i]?
  inPlace : ∀ run ∈ runs, ∃ groups : List (List String),
    groups.Perm (run.map (linesAt lines)) ∧
    (groups.Pairwise fun a b => (compareLines a b).isLE = true) ∧
    linesAt lines' (hull run) = groups.flatten

/-! ## Stretches -/

theorem linesAt_append (before mid after : List String) :
    linesAt (before ++ (mid ++ after)) ⟨before.length, before.length + mid.length⟩ = mid := by
  rw [linesAt, List.drop_left' rfl, Nat.add_sub_cancel_left, List.take_left' rfl]

theorem map_linesAt_stretches (before : List String) (groups : List (List String))
    (rest : List String) : (stretches before.length groups).map
      (linesAt (before ++ (groups.flatten ++ rest))) = groups := by
  induction groups generalizing before with
  | nil => rfl
  | cons g gs ih =>
    have hmore := ih (before ++ g)
    rw [List.length_append, List.append_assoc] at hmore
    rw [stretches, List.map_cons, List.flatten_cons, List.append_assoc, hmore, linesAt_append]

theorem hull_stretches (index : Nat) (h : groups ≠ []) :
    hull (stretches index groups) = ⟨index, index + groups.flatten.length⟩ := by
  have hlast : ∀ (gs : List (List String)) (i : Nat), gs ≠ [] →
      (stretches i gs).getLast?.map Run.stop = some (i + gs.flatten.length) := by
    intro gs
    induction gs with
    | nil => exact fun i hne => absurd rfl hne
    | cons g gs ih =>
      intro i _
      cases gs with
      | nil => simp [stretches]
      | cons g' gs =>
        have hmore := ih (i + g.length) (List.cons_ne_nil _ _)
        rw [stretches] at hmore
        rw [stretches, stretches, List.getLast?_cons_cons, hmore]
        simp [Nat.add_assoc]
  obtain ⟨g, gs, rfl⟩ := List.exists_cons_of_ne_nil h
  rw [hull, hlast _ _ h]
  rfl

theorem exists_has_of_mem {index i : Nat} (hi : index ≤ i)
    (hlt : i < index + groups.flatten.length) : ∃ r ∈ stretches index groups, r.Has i := by
  induction groups generalizing index with
  | nil => simp at hlt; omega
  | cons g gs ih =>
    rw [List.flatten_cons, List.length_append] at hlt
    by_cases hg : i < index + g.length
    · exact ⟨_, List.mem_cons_self, hi, hg⟩
    · obtain ⟨r, hr, hc⟩ := ih (Nat.le_of_not_lt hg) (by omega)
      exact ⟨r, List.mem_cons_of_mem _ hr, hc⟩

theorem stretches_congr (index : Nat) {groups' : List (List String)}
    (h : List.Forall₂ GroupAlike groups groups') :
    stretches index groups = stretches index groups' := by
  induction h generalizing index with
  | nil => rfl
  | cons hg _ ih => rw [stretches, stretches, hg.2.length_eq, ih]

/-! ## One level -/

/-- A run that is found, in the text and in the sorted text. -/
theorem exists_of_mem_caseRuns {run : List (List String) × List String}
    (h : run ∈ caseRuns dent lines) : ∃ before before' : List String,
      IsCaseRun dent run.1 run.2 ∧ lines = before ++ (run.1.flatten ++ run.2) ∧
      sortGroupsAt dent lines =
        before' ++ ((sortGroups run.1).flatten ++ sortGroupsAt dent run.2) ∧
      before'.length = before.length := by
  induction lines using caseRuns_induction dent with
  | nil =>
    rw [caseRuns] at h
    cases h
  | other line below hline ih =>
    rw [caseRuns_of_not_isCaseAt hline] at h
    obtain ⟨before, before', hrun, hlines, hsorted, hlen⟩ := ih h
    refine ⟨line :: before, line :: before', hrun, by rw [hlines, List.cons_append], ?_, ?_⟩
    · rw [sortGroupsAt_of_not_isCaseAt hline, hsorted, List.cons_append]
    · rw [List.length_cons, hlen, List.length_cons]
  | run groups rest hrun ih =>
    rw [hrun.caseRuns_eq] at h
    rw [hrun.sortGroupsAt_eq]
    rcases List.mem_cons.1 h with rfl | h
    · exact ⟨[], [], hrun, rfl, rfl, rfl⟩
    · obtain ⟨before, before', hrun', hlines, hsorted, hlen⟩ := ih h
      have hperm := sortGroups_perm groups
      refine ⟨groups.flatten ++ before, (sortGroups groups).flatten ++ before', hrun', ?_, ?_, ?_⟩
      · rw [List.append_assoc, ← hlines]
      · rw [List.append_assoc, ← hsorted]
      · rw [List.length_append, List.length_append, hlen, hperm.flatten.length_eq]

theorem getElem?_sortGroupsAt {i : Nat} (h : ∀ run ∈ caseRuns dent lines,
    i + (run.1.flatten ++ run.2).length < lines.length ∨ lines.length ≤ i + run.2.length) :
    (sortGroupsAt dent lines)[i]? = lines[i]? := by
  induction lines using caseRuns_induction dent generalizing i with
  | nil => rw [sortGroupsAt]
  | other line below hline ih =>
    rw [caseRuns_of_not_isCaseAt hline] at h
    rw [sortGroupsAt_of_not_isCaseAt hline]
    cases i with
    | zero => rfl
    | succ i =>
      rw [List.getElem?_cons_succ, List.getElem?_cons_succ]
      refine ih fun run hrun => ?_
      have hi := h run hrun
      rw [List.length_cons] at hi
      omega
  | run groups rest hrun ih =>
    rw [hrun.caseRuns_eq] at h
    obtain ⟨hi, hmore⟩ := List.forall_mem_cons.1 h
    have hlen := (sortGroups_perm groups).flatten.length_eq
    have hbehind : groups.flatten.length ≤ i := by
      simp only [List.length_append] at hi
      omega
    rw [hrun.sortGroupsAt_eq, List.getElem?_append_right (by omega),
      List.getElem?_append_right hbehind, hlen]
    refine ih fun run' hrun' => ?_
    have hi' := hmore run' hrun'
    simp only [List.length_append] at hi' ⊢
    omega

/-- **One level puts the groups of each run in order, in place.** -/
theorem groupsSorted_sortGroupsAt (dent : Nat) (lines : List String) :
    GroupsSorted (groupPlaces dent lines) lines (sortGroupsAt dent lines) := by
  refine ⟨(sortGroupsAt_perm dent lines).length_eq, fun i hi => ?_, fun places hplaces => ?_⟩
  · refine getElem?_sortGroupsAt fun run hrun => ?_
    obtain ⟨before, -, -, hlines, -⟩ := exists_of_mem_caseRuns hrun
    have hlen := congrArg List.length hlines
    by_contra hnot
    simp only [List.length_append, not_or, not_lt, not_le] at hlen hnot
    obtain ⟨r, hr, hc⟩ : ∃ r ∈ stretches (lines.length - (run.1.flatten ++ run.2).length) run.1,
        r.Has i := exists_has_of_mem (by rw [List.length_append]; omega)
      (by rw [List.length_append]; omega)
    exact hi _ (List.mem_map_of_mem hrun) r hr hc
  · obtain ⟨run, hrun, rfl⟩ := List.mem_map.1 hplaces
    obtain ⟨before, before', hcase, hlines, hsorted, hlen⟩ := exists_of_mem_caseRuns hrun
    have hstart : lines.length - (run.1.flatten ++ run.2).length = before.length := by
      rw [hlines, List.length_append, Nat.add_sub_cancel]
    have hperm := sortGroups_perm run.1
    refine ⟨sortGroups run.1, ?_, sortGroups_pairwise run.1, ?_⟩
    · rw [hstart, hlines, map_linesAt_stretches]
      exact hperm
    · rw [hstart, hull_stretches _ hcase.ne_nil, hsorted, ← hlen, ← hperm.flatten.length_eq,
        linesAt_append]

/-! ## All levels -/

theorem LikeAbove.perm {a b : List String} (h : LikeAbove dent a b) : a.Perm b := by
  induction h with
  | inner _ hp => exact hp
  | outer _ hp _ _ ih => exact hp.append (ih.cons _)

/-- Texts that differ in the order of deeper lines have their groups in the same places. -/
theorem LikeAbove.groupPlaces_eq {a b : List String} (h : LikeAbove dent a b) :
    groupPlaces dent a = groupPlaces dent b := by
  rw [groupPlaces, groupPlaces, h.perm.length_eq]
  have hruns := h.forall₂_caseRuns
  generalize caseRuns dent a = runs at hruns ⊢
  generalize caseRuns dent b = runs' at hruns ⊢
  induction hruns with
  | nil => rfl
  | @cons run run' _ _ hrun _ ih =>
    have hlen : (run.1.flatten ++ run.2).length = (run'.1.flatten ++ run'.2).length := by
      have hgroups : run.1.flatten.length = run'.1.flatten.length := by
        rw [List.length_flatten, List.length_flatten]
        congr 1
        exact List.forall₂_eq_eq_eq ▸ List.forall₂_map_left_iff.2 (List.forall₂_map_right_iff.2
          (hrun.1.imp fun _ _ hg => hg.2.length_eq))
      rw [List.length_append, List.length_append, hgroups, hrun.2.perm.length_eq]
    rw [List.map_cons, List.map_cons, ih, hlen, stretches_congr _ hrun.1]

/-- The body with some levels sorted, one after the other. -/
def sortLevels (dents : List Nat) (lines : List String) : List String :=
  dents.foldl (fun lines dent => sortGroupsAt dent lines) lines

/-- Deeper levels leave the groups of a level where they are. -/
theorem groupPlaces_sortLevels {dents : List Nat} (h : ∀ d ∈ dents, dent < d) (lines : List String) :
    groupPlaces dent (sortLevels dents lines) = groupPlaces dent lines := by
  induction dents generalizing lines with
  | nil => rfl
  | cons d dents ih =>
    obtain ⟨hd, hdents⟩ := List.forall_mem_cons.1 h
    exact (ih hdents _).trans (likeAbove_sortGroupsAt hd lines).groupPlaces_eq.symm

theorem getElem?_sortLevels {dents : List Nat} (hlevels : dents.Pairwise fun a b => b < a) {i : Nat}
    (h : ∀ d ∈ dents, ∀ run ∈ groupPlaces d lines, ∀ g ∈ run, ¬ g.Has i) :
    (sortLevels dents lines)[i]? = lines[i]? := by
  induction dents generalizing lines with
  | nil => rfl
  | cons d dents ih =>
    obtain ⟨hd, hdents⟩ := List.forall_mem_cons.1 h
    obtain ⟨hlt, hlevels⟩ := List.pairwise_cons.1 hlevels
    refine (ih hlevels fun d' hd' => ?_).trans
      ((groupsSorted_sortGroupsAt d lines).elsewhere i hd)
    rw [← (likeAbove_sortGroupsAt (hlt d' hd') lines).groupPlaces_eq]
    exact hdents d' hd'

/-- The file without the bodies of its methods. -/
def SourceFile.withoutBodies (file : SourceFile) : SourceFile :=
  file.mapText id id fun
    | .method, _ => []
    | _, lines => lines

theorem SourceFile.withoutBodies_sortCases (file : SourceFile) :
    file.sortCases.withoutBodies = file.withoutBodies := by
  rw [sortCases, withoutBodies, withoutBodies, mapText, mapText, mapText, Declaration.mapText_comp]
  congr 2
  funext kind lines
  cases kind <;> rfl

/-- **Case groups move as wholes, and nothing else moves.**  A sort of the cases of a body rearranges
its lines and leaves those that lie in no case group where they are.  It sorts the levels from the
deepest to the shallowest; when a level is sorted its groups lie where they lay in the body, and the
groups of each run are put in order in place.  In a file it changes bodies of methods only. -/
theorem sortCaseGroups_in_place (lines : List String) (file : SourceFile) :
    (sortCaseGroups lines).Perm lines ∧
    (∀ i, (∀ line ∈ lines, isCaseLine line = true →
        ∀ run ∈ groupPlaces (leadingSpaces line) lines, ∀ g ∈ run, ¬ g.Has i) →
      (sortCaseGroups lines)[i]? = lines[i]?) ∧
    (∀ line ∈ lines, isCaseLine line = true → ∃ deeper shallower,
      caseIndentations lines = deeper ++ leadingSpaces line :: shallower ∧
      (∀ d ∈ deeper, leadingSpaces line < d) ∧ (∀ d ∈ shallower, d < leadingSpaces line) ∧
      let before := sortLevels deeper lines
      let after := sortGroupsAt (leadingSpaces line) before
      sortCaseGroups lines = sortLevels shallower after ∧
      groupPlaces (leadingSpaces line) before = groupPlaces (leadingSpaces line) lines ∧
      GroupsSorted (groupPlaces (leadingSpaces line) lines) before after) ∧
    file.sortCases.withoutBodies = file.withoutBodies := by
  have hlevels := caseIndentations_pairwise lines
  refine ⟨sortCaseGroups_perm lines, fun i hi => ?_, fun line hline hcase => ?_,
    file.withoutBodies_sortCases⟩
  · refine getElem?_sortLevels hlevels fun d hd => ?_
    obtain ⟨line, hline, hcase, rfl⟩ := mem_caseIndentations_iff.1 hd
    exact hi line hline hcase
  · obtain ⟨deeper, shallower, hsplit⟩ :=
      List.append_of_mem (mem_caseIndentations_iff.2 ⟨line, hline, hcase, rfl⟩)
    rw [hsplit, List.pairwise_append, List.pairwise_cons] at hlevels
    obtain ⟨-, ⟨hshallower, -⟩, hdeeper⟩ := hlevels
    have hdeeper : ∀ d ∈ deeper, leadingSpaces line < d := fun d hd =>
      hdeeper d hd _ List.mem_cons_self
    have hplaces := groupPlaces_sortLevels hdeeper lines
    refine ⟨deeper, shallower, hsplit, hdeeper, hshallower, ?_, hplaces, ?_⟩
    · rw [sortCaseGroups, hsplit, List.foldl_append, List.foldl_cons]
      rfl
    · rw [← hplaces]
      exact groupsSorted_sortGroupsAt _ _

/-- A switch inside a case of another one: where the groups of both lie, and the lines around them. -/
theorem sortCaseGroups_in_place_nested :
    let body := ["switch (k) \x7b", "  case B -> \x7b", "    switch (l) \x7b", "      case D -> d();",
      "      case C -> c();", "    \x7d", "  \x7d", "  case A -> a();", "\x7d"]
    groupPlaces 2 body = [[⟨1, 7⟩, ⟨7, 8⟩]] ∧ groupPlaces 6 body = [[⟨3, 4⟩, ⟨4, 5⟩]] ∧
      (sortCaseGroups body)[0]? = some "switch (k) \x7b" ∧ (sortCaseGroups body)[8]? = some "\x7d" := by
  intro body
  have hplaces := (sortCaseGroups_in_place body ⟨[], .leaf .method ⟨[], "void f() \x7b"⟩ body⟩).2.1
  refine ⟨by decide +kernel, by decide +kernel, ?_, ?_⟩
  · exact hplaces 0 (by decide +kernel)
  · exact hplaces 8 (by decide +kernel)

end HouseStyle
