import HouseStyle.Proofs.Declaration.CaseLabels
import HouseStyle.Proofs.Declaration.CasePlaces
import Mathlib.Data.List.Induction

/-!
# Cases sorted twice

A sorted run may end with another group than before.  If the old last group had its closing line and
the new one has none, the new one takes in the lines behind the run, which were outside, and with them
gone the next run may go on where this one ends.  Then a second sort has a longer run to put in order.

* `isSettled`: a run whose sort leaves it a run of its own.
* `InOrder`: a text in which the runs of an indentation are in order.
* `inOrder_sortGroupsAt`, `InOrder.sortGroupsAt`: settled runs are in order after their level is sorted,
  and stay so while shallower levels are.
* `normalizeCases_normalizeCases`: **settled cases are in order once they are sorted**, and are sorted once.
* `normalizeCases_ne_of_comment`: cases that a second sort moves again.
-/

namespace HouseStyle

open Text

variable {dent d : Nat} {lines rest xs : List String} {groups : List (List String)}

/-- The case line of a group. -/
def caseOf (group : List String) : String := group.head?.getD ""

/-- Whether a run, given with the lines behind it, is settled: each of its groups has its closing line
or comes before one with a greater case line; or else the deeper lines and the closing line directly
behind the run hold no case line, and no case line of the indentation follows them. -/
def isSettled (dent : Nat) (run : List (List String) × List String) : Bool :=
  (run.1.all fun g => isClosed dent g ||
    run.1.any fun g' => compareTexts (caseOf g) (caseOf g') == .lt) ||
  ((splitGroup dent run.2).1.all fun line => !isCaseLine line) &&
    (splitGroup dent run.2).2.head?.all fun line => !isCaseAt dent line

/-- Whether the runs of an indentation are in order. -/
def InOrder (dent : Nat) (lines : List String) : Prop :=
  ∀ run ∈ groupRuns dent lines, run.Pairwise fun a b => (compareLines a b).isLE = true

/-! ## Texts cut between runs -/

theorem isCaseAt_of_isInside_eq_false (hd : d < dent) {line : String}
    (h : isInside d line = false) : isInside dent line = false ∧
      closes line dent "\x7d" = false ∧ isCaseAt dent line = false := by
  refine ⟨Bool.eq_false_iff.2 fun hi => ?_, Bool.eq_false_iff.2 fun hc => ?_,
    Bool.eq_false_iff.2 fun hc => ?_⟩
  · rw [isInside_of_lt hd hi] at h
    cases h
  · rw [isInside_of_closes hd hc] at h
    cases h
  · rw [isInside_of_isCaseAt hc, decide_eq_false_iff_not] at h
    exact h hd

theorem groupRuns_of_no_case (hx : ∀ l ∈ xs, isCaseAt dent l = false) (rest : List String) :
    groupRuns dent (xs ++ rest) = groupRuns dent rest := by
  induction xs with
  | nil => rfl
  | cons x xs ih =>
    obtain ⟨hx, hxs⟩ := List.forall_mem_cons.1 hx
    rw [List.cons_append, groupRuns_of_not_isCaseAt hx, ih hxs]

theorem sortGroupsAt_of_no_case (hx : ∀ l ∈ xs, isCaseAt dent l = false) (rest : List String) :
    sortGroupsAt dent (xs ++ rest) = xs ++ sortGroupsAt dent rest := by
  induction xs with
  | nil => rfl
  | cons x xs ih =>
    obtain ⟨hx, hxs⟩ := List.forall_mem_cons.1 hx
    rw [List.cons_append, sortGroupsAt_of_not_isCaseAt hx, ih hxs, List.cons_append]

theorem sortGroupsAt_of_leadingGroups {front : List String} {sorted : List (List String)}
    (hfront : ∀ l ∈ front, isCaseAt dent l = false)
    (hlead : leadingGroups dent lines = (groups, rest)) (hne : groups ≠ [])
    (hperm : sorted.Perm groups) (hsorted : sorted.Pairwise fun a b => compareLines a b = .lt) :
    sortGroupsAt dent (front ++ lines) = front ++ (sorted.flatten ++ sortGroupsAt dent rest) := by
  have hrun : IsCaseRun dent groups rest := by
    obtain ⟨hg, he, hs⟩ := leadingGroups_spec dent lines
    rw [hlead] at hg he hs
    exact ⟨hne, hg, he, hs⟩
  have hlines := leadingGroups_append dent lines
  have hgroups : sortGroups groups = sorted := mergeSort_eq_of_perm hperm hsorted
  rw [hlead] at hlines
  rw [sortGroupsAt_of_no_case hfront, ← hlines, hrun.sortGroupsAt_eq, hgroups]

theorem head?_sortGroupsAt (h : ∀ l ∈ rest.head?, isCaseAt dent l = false) :
    (sortGroupsAt dent rest).head? = rest.head? := by
  cases rest with
  | nil => rw [sortGroupsAt]
  | cons l rest => rw [sortGroupsAt_of_not_isCaseAt (h l rfl), List.head?_cons, List.head?_cons]

/-- Runs do not reach over a line of a shallower indentation. -/
theorem groupRuns_append_of_head (hd : d < dent) (hr : ∀ l ∈ rest.head?, isInside d l = false)
    (xs : List String) : groupRuns dent (xs ++ rest) = groupRuns dent xs ++ groupRuns dent rest := by
  induction xs using caseRuns_induction dent with
  | nil => rw [groupRuns_nil, List.nil_append, List.nil_append]
  | other line below hline ih =>
    rw [List.cons_append, groupRuns_of_not_isCaseAt hline, groupRuns_of_not_isCaseAt hline, ih]
  | run groups behind hrun ih =>
    have hrun' : IsCaseRun dent groups (behind ++ rest) := by
      cases behind with
      | nil =>
        refine ⟨hrun.ne_nil, hrun.isGroup, fun g _ => Or.inr fun l hl => ?_, fun l hl => ?_⟩
        · have hl := isCaseAt_of_isInside_eq_false hd (hr l hl)
          exact ⟨hl.1, hl.2.1⟩
        · exact (isCaseAt_of_isInside_eq_false hd (hr l hl)).2.2
      | cons l behind => exact hrun.congr_head rfl
    rw [List.append_assoc, hrun'.groupRuns_eq, hrun.groupRuns_eq, ih, List.cons_append]

theorem groupRuns_append_of_getLast (hd : d < dent) (hx : ∀ l ∈ xs.getLast?, isInside d l = false)
    (rest : List String) :
    groupRuns dent (xs ++ rest) = groupRuns dent xs ++ groupRuns dent rest := by
  induction xs using List.reverseRecOn with
  | nil => rw [groupRuns_nil, List.nil_append, List.nil_append]
  | append_singleton xs l _ =>
    have hl : isInside d l = false := hx l (by simp)
    have hcase : ∀ l' ∈ [l], isCaseAt dent l' = false := by
      simpa using (isCaseAt_of_isInside_eq_false hd hl).2.2
    have hone := groupRuns_of_no_case hcase []
    rw [List.append_nil] at hone
    rw [List.append_assoc, groupRuns_append_of_head hd (by simpa using hl), groupRuns_of_no_case hcase,
      groupRuns_append_of_head hd (by simpa using hl), hone, groupRuns_nil, List.append_nil]

/-- Runs of a deeper level do not reach out of a run. -/
theorem IsCaseRun.groupRuns_append (h : IsCaseRun d groups rest) (hd : d < dent) :
    groupRuns dent (groups.flatten ++ rest) = groupRuns dent groups.flatten ++ groupRuns dent rest := by
  obtain ⟨gs, g, rfl⟩ := h.exists_concat
  have hends := h.ends g (by simp)
  obtain ⟨line, body, closer, rfl, hline, hbody, hcloser⟩ := h.isGroup g (by simp)
  rw [Ends, isClosed_eq_isSome hline hbody hcloser] at hends
  rcases hends with hclosed | hhead
  · obtain ⟨l, rfl⟩ := Option.isSome_iff_exists.1 hclosed
    refine groupRuns_append_of_getLast hd (fun l' hl' => ?_) rest
    have hlast : (gs ++ [line :: (body ++ (some l).toList)]).flatten =
        (gs.flatten ++ line :: body) ++ [l] := by simp
    rw [hlast, List.getLast?_concat] at hl'
    rw [← Option.some.inj hl']
    exact isInside_of_closes_eq (hcloser l rfl)
  · exact groupRuns_append_of_head hd (fun l hl => (hhead l hl).1) _

theorem isInside_of_head?_flatten (hg : ∀ g ∈ groups, IsGroup d g)
    (hr : ∀ l ∈ rest.head?, isInside d l = false) :
    ∀ l ∈ (groups.flatten ++ rest).head?, isInside d l = false := by
  intro l hl
  rcases head?_flatten_append hg rest with ⟨-, hhead⟩ | ⟨line, hhead, hline⟩
  · exact hr l (hhead ▸ hl)
  · rw [hhead] at hl
    rw [← Option.some.inj hl]
    exact (isInside_of_isCaseAt_self hline).1

theorem groupRuns_flatten (hg : ∀ g ∈ groups, IsGroup d g) (hd : d < dent) :
    groupRuns dent groups.flatten = groups.flatMap (groupRuns dent) := by
  induction groups with
  | nil => rw [List.flatten_nil, groupRuns_nil, List.flatMap_nil]
  | cons g gs ih =>
    obtain ⟨-, hgs⟩ := List.forall_mem_cons.1 hg
    have hhead : ∀ l ∈ (gs.flatten ++ []).head?, isInside d l = false :=
      isInside_of_head?_flatten hgs (by simp)
    rw [List.append_nil] at hhead
    rw [List.flatten_cons, groupRuns_append_of_head hd hhead, ih hgs, List.flatMap_cons]

/-! ## Runs in order -/

theorem inOrder_append_iff {a b : List String}
    (h : groupRuns dent (a ++ b) = groupRuns dent a ++ groupRuns dent b) :
    InOrder dent (a ++ b) ↔ InOrder dent a ∧ InOrder dent b := by
  rw [InOrder, h, List.forall_mem_append]
  rfl

theorem inOrder_flatten_iff (hg : ∀ g ∈ groups, IsGroup d g) (hd : d < dent) :
    InOrder dent groups.flatten ↔ ∀ g ∈ groups, InOrder dent g := by
  rw [InOrder, groupRuns_flatten hg hd]
  simp only [List.mem_flatMap]
  exact ⟨fun h g hg run hrun => h run ⟨g, hg, hrun⟩, fun h run ⟨g, hg, hrun⟩ => h g hg run hrun⟩

theorem pairwise_extend {g more : List String}
    (h : (groups ++ [g]).Pairwise fun a b => (compareLines a b).isLE = true) :
    (groups ++ [g ++ more]).Pairwise fun a b => (compareLines a b).isLE = true := by
  rw [List.pairwise_append] at h ⊢
  refine ⟨h.1, List.pairwise_singleton _ _, fun a ha b hb => ?_⟩
  rw [List.mem_singleton.1 hb]
  exact isLE_compareLex_append (h.2.2 a ha g (List.mem_singleton_self g)) more

/-- Lines without a case line may follow runs in order. -/
theorem InOrder.append (h : InOrder dent lines) (hx : ∀ l ∈ xs, isCaseAt dent l = false) :
    InOrder dent (lines ++ xs) := by
  have hnone : ∀ {ys : List String}, ys ⊆ xs → groupRuns dent ys = [] := by
    intro ys hys
    rw [← List.append_nil ys, groupRuns_of_no_case fun l hl => hx l (hys hl), groupRuns_nil]
  induction lines using caseRuns_induction dent with
  | nil =>
    rw [InOrder, List.nil_append, hnone (List.Subset.refl _)]
    intro run hrun
    cases hrun
  | other line below hline ih =>
    rw [InOrder, groupRuns_of_not_isCaseAt hline] at h
    rw [InOrder, List.cons_append, groupRuns_of_not_isCaseAt hline]
    exact ih h
  | run groups rest hrun ih =>
    rw [InOrder, hrun.groupRuns_eq] at h
    obtain ⟨hgroups, hrest⟩ := List.forall_mem_cons.1 h
    rw [List.append_assoc]
    cases rest with
    | cons l rest =>
      have hrun' : IsCaseRun dent groups (l :: rest ++ xs) := hrun.congr_head rfl
      rw [InOrder, hrun'.groupRuns_eq]
      exact List.forall_mem_cons.2 ⟨hgroups, ih hrest⟩
    | nil =>
      obtain ⟨gs, g, rfl⟩ := hrun.exists_concat
      rw [List.nil_append]
      cases hclosed : isClosed dent g with
      | true =>
        have hrun' := isCaseRun_of_isClosed hrun.isGroup hclosed fun l hl =>
          hx l (List.mem_of_mem_head? hl)
        rw [InOrder, hrun'.groupRuns_eq, hnone (List.Subset.refl _)]
        exact List.forall_mem_singleton.2 hgroups
      | false =>
        have hsub : (splitGroup dent xs).2 ⊆ xs := fun l hl => by
          rw [← splitGroup_append dent xs]
          exact List.mem_append_right _ hl
        have hrun' := isCaseRun_extend hrun.isGroup hclosed fun l hl =>
          hx l (hsub (List.mem_of_mem_head? hl))
        rw [InOrder, ← flatten_extend dent, hrun'.groupRuns_eq, hnone hsub]
        exact List.forall_mem_singleton.2 (pairwise_extend hgroups)

/-! ## Settled runs -/

/-- The last group of a settled run that is sorted has its closing line, unless the lines behind the
run that it takes in do not matter. -/
theorem isClosed_or_of_isSettled {gs : List (List String)} {g : List String}
    (h : isSettled dent (groups, rest) = true) (hg : ∀ g ∈ groups, IsGroup dent g)
    (hsorted : sortGroups groups = gs ++ [g]) : isClosed dent g = true ∨
      (∀ l ∈ (splitGroup dent rest).1, isCaseLine l = false) ∧
        ∀ l ∈ (splitGroup dent rest).2.head?, isCaseAt dent l = false := by
  have hperm := sortGroups_perm groups
  have hmem : g ∈ groups := hperm.mem_iff.1 (by simp [hsorted])
  have horder := sortGroups_pairwise groups
  rw [isSettled, Bool.or_eq_true, List.all_eq_true] at h
  rcases h with h | h
  · left
    have hclosed := h g hmem
    rw [Bool.or_eq_true, List.any_eq_true] at hclosed
    refine hclosed.resolve_right ?_
    rintro ⟨g', hmem', hlt⟩
    -- no group comes behind the last one
    have hle : (compareLines g' g).isLE = true := by
      have hbefore := hperm.mem_iff.2 hmem'
      rw [hsorted] at hbefore horder
      rcases List.mem_append.1 hbefore with hbefore | hbefore
      · exact (List.pairwise_append.1 horder).2.2 g' hbefore g (by simp)
      · rw [List.mem_singleton.1 hbefore]
        exact Std.ReflCmp.isLE_rfl
    obtain ⟨line, body, closer, rfl, -⟩ := hg g hmem
    obtain ⟨line', body', closer', rfl, -⟩ : IsGroup dent g' := hg g' hmem'
    have hline : compareTexts line line' = .lt := eq_of_beq hlt
    rw [compareLines, List.compareLex_cons_cons, Std.OrientedCmp.gt_of_lt hline] at hle
    cases hle
  · rw [Bool.and_eq_true, List.all_eq_true] at h
    refine Or.inr ⟨fun l hl => by simpa using h.1 l hl, fun l hl => ?_⟩
    have hhead := h.2
    rw [Option.mem_def.1 hl] at hhead
    simpa using hhead

theorem isCaseAt_of_isCaseLine {line : String} (h : isCaseLine line = false) :
    isCaseAt dent line = false := by
  rw [isCaseAt, h, Bool.false_and]

/-- A settled run is a run after its level is sorted: its groups are in order, the last one perhaps
with lines that it took in. -/
theorem IsCaseRun.exists_sorted (h : IsCaseRun dent groups rest)
    (hs : isSettled dent (groups, rest) = true) :
    ∃ gs g xs behind, sortGroups groups = gs ++ [g] ∧ rest = xs ++ behind ∧
      (∀ l ∈ xs, isCaseLine l = false) ∧
      IsCaseRun dent (gs ++ [g ++ xs]) (sortGroupsAt dent behind) ∧
      sortGroupsAt dent (groups.flatten ++ rest) =
        (gs ++ [g ++ xs]).flatten ++ sortGroupsAt dent behind ∧
      sortGroupsAt dent rest = xs ++ sortGroupsAt dent behind := by
  have hperm := sortGroups_perm groups
  have hne : sortGroups groups ≠ [] := fun hnil => h.ne_nil (by
    rw [hnil, List.nil_perm] at hperm
    exact hperm)
  obtain ⟨gs, g, hsorted⟩ : ∃ gs g, sortGroups groups = gs ++ [g] :=
    ⟨_, _, (List.dropLast_append_getLast hne).symm⟩
  have hgroup : ∀ g' ∈ gs ++ [g], IsGroup dent g' := fun g' hg' =>
    h.isGroup g' (hperm.mem_iff.1 (hsorted ▸ hg'))
  rw [h.sortGroupsAt_eq, hsorted]
  cases hclosed : isClosed dent g with
  | true =>
    refine ⟨gs, g, [], rest, rfl, rfl, by simp, ?_, by simp, rfl⟩
    rw [List.append_nil]
    refine isCaseRun_of_isClosed hgroup hclosed ?_
    rw [head?_sortGroupsAt h.stop]
    exact h.stop
  | false =>
    obtain ⟨hxs, hstop⟩ := (isClosed_or_of_isSettled hs h.isGroup hsorted).resolve_left
      (by simp [hclosed])
    have hnone : ∀ l ∈ (splitGroup dent rest).1, isCaseAt dent l = false := fun l hl =>
      isCaseAt_of_isCaseLine (hxs l hl)
    have hrest := sortGroupsAt_of_no_case hnone (splitGroup dent rest).2
    rw [splitGroup_append] at hrest
    refine ⟨gs, g, (splitGroup dent rest).1, (splitGroup dent rest).2, rfl,
      (splitGroup_append dent rest).symm, hxs, ?_, by simp [hrest], hrest⟩
    exact (isCaseRun_extend hgroup hclosed hstop).congr_head (head?_sortGroupsAt hstop)

/-- **Settled runs are in order** after their level is sorted. -/
theorem inOrder_sortGroupsAt (h : ∀ run ∈ caseRuns dent lines, isSettled dent run = true) :
    InOrder dent (sortGroupsAt dent lines) := by
  induction lines using caseRuns_induction dent with
  | nil =>
    rw [InOrder, sortGroupsAt, groupRuns_nil]
    intro run hrun
    cases hrun
  | other line below hline ih =>
    rw [caseRuns_of_not_isCaseAt hline] at h
    rw [InOrder, sortGroupsAt_of_not_isCaseAt hline, groupRuns_of_not_isCaseAt hline]
    exact ih h
  | run groups rest hrun ih =>
    rw [hrun.caseRuns_eq] at h
    obtain ⟨hsettled, hrest⟩ := List.forall_mem_cons.1 h
    obtain ⟨gs, g, xs, behind, hsorted, -, hxs, hrun', htext, hbehind⟩ := hrun.exists_sorted hsettled
    have horder := ih hrest
    rw [InOrder, hbehind, groupRuns_of_no_case fun l hl => isCaseAt_of_isCaseLine (hxs l hl)] at horder
    rw [InOrder, htext, hrun'.groupRuns_eq]
    refine List.forall_mem_cons.2 ⟨pairwise_extend ?_, horder⟩
    rw [← hsorted]
    exact sortGroups_pairwise groups

/-- **Runs in order stay in order** while a shallower level with settled runs is sorted. -/
theorem InOrder.sortGroupsAt (h : InOrder dent lines) (hd : d < dent)
    (hs : ∀ run ∈ caseRuns d lines, isSettled d run = true) :
    InOrder dent (sortGroupsAt d lines) := by
  -- with any lines in front, since a run of the deeper level may begin in them
  suffices hfront : ∀ front, InOrder dent (front ++ lines) →
      InOrder dent (front ++ HouseStyle.sortGroupsAt d lines) from hfront [] h
  clear h
  induction lines using caseRuns_induction d with
  | nil =>
    intro front h
    rwa [HouseStyle.sortGroupsAt]
  | other line below hline ih =>
    intro front h
    rw [caseRuns_of_not_isCaseAt hline] at hs
    rw [sortGroupsAt_of_not_isCaseAt hline, List.append_cons]
    rw [List.append_cons] at h
    exact ih hs _ h
  | run groups rest hrun ih =>
    intro front h
    rw [hrun.caseRuns_eq] at hs
    obtain ⟨hsettled, hrest⟩ := List.forall_mem_cons.1 hs
    obtain ⟨gs, g, xs, behind, hsorted, -, hxs, hrun', htext, hbehind⟩ := hrun.exists_sorted hsettled
    have hperm := sortGroups_perm groups
    -- a run is cut off in front of its first case line and behind its last group
    obtain ⟨line, below, hline, hcase⟩ := hrun.exists_cons
    obtain ⟨line', below', hline', hcase'⟩ := hrun'.exists_cons
    have hcut : ∀ {line : String} {below : List String}, isCaseAt d line = true →
        ∀ l ∈ (line :: below).head?, isInside d l = false := by
      intro line below hc l hl
      rw [← Option.some.inj hl]
      exact (isInside_of_isCaseAt_self hc).1
    rw [inOrder_append_iff (groupRuns_append_of_head hd (hline ▸ hcut hcase) _),
      inOrder_append_iff (hrun.groupRuns_append hd), inOrder_flatten_iff hrun.isGroup hd] at h
    obtain ⟨hfront, hgroups, hbelow⟩ := h
    have hsortedRest := ih hrest [] hbelow
    rw [List.nil_append, hbehind, InOrder, groupRuns_of_no_case fun l hl =>
      isCaseAt_of_isCaseLine (hxs l hl)] at hsortedRest
    rw [htext, inOrder_append_iff (groupRuns_append_of_head hd (hline' ▸ hcut hcase') _),
      inOrder_append_iff (hrun'.groupRuns_append hd), inOrder_flatten_iff hrun'.isGroup hd]
    refine ⟨hfront, List.forall_mem_append.2 ⟨fun g' hg' => ?_, List.forall_mem_singleton.2 ?_⟩,
      hsortedRest⟩
    · exact hgroups g' (hperm.mem_iff.1 (by simp [hsorted, hg']))
    · refine (hgroups g (hperm.mem_iff.1 (by simp [hsorted]))).append fun l hl => ?_
      exact isCaseAt_of_isCaseLine (hxs l hl)

/-! ## All levels -/

theorem LikeAbove.head?_eq {a b : List String} (h : LikeAbove dent a b) :
    (a.head?.all fun line => !isCaseAt dent line) = b.head?.all fun line => !isCaseAt dent line := by
  obtain ⟨rfl, rfl⟩ | ⟨x, xs, y, ys, rfl, rfl, hx, hy⟩ | ⟨line, a', b', -, -, rfl, rfl⟩ := h.cases_head
  · rfl
  · simp [not_isCaseAt_of_isInside hx, not_isCaseAt_of_isInside hy]
  · rfl

/-- Whether a run is settled does not depend on the order of deeper lines. -/
theorem RunAlike.isSettled_eq {run run' : List (List String) × List String}
    (h : RunAlike dent run run') : isSettled dent run = isSettled dent run' := by
  obtain ⟨hgroups, hrest⟩ := h
  obtain ⟨hperm, hbehind⟩ := hrest.perm_splitGroup
  let parts : List String → String × Bool := fun g => (caseOf g, isClosed dent g)
  have hparts : run.1.map parts = run'.1.map parts := by
    refine List.forall₂_eq_eq_eq ▸ List.forall₂_map_left_iff.2 (List.forall₂_map_right_iff.2
      (hgroups.imp fun g g' hg => ?_))
    show (caseOf g, isClosed dent g) = (caseOf g', isClosed dent g')
    rw [caseOf, hg.1, isClosed, hg.2.any_eq, ← caseOf, ← isClosed]
  have hall : ∀ groups : List (List String), (groups.all fun g => isClosed dent g ||
      groups.any fun g' => compareTexts (caseOf g) (caseOf g') == .lt) =
      (groups.map parts).all fun p => p.2 ||
        (groups.map parts).any fun p' => compareTexts p.1 p'.1 == .lt := by
    intro groups
    simp [parts, List.all_map, List.any_map, Function.comp_def]
  rw [isSettled, isSettled, hall, hall, hparts, hperm.all_eq, hbehind.head?_eq]

/-- Settled runs stay settled while a deeper level is sorted. -/
theorem isSettled_sortGroupsAt (hd : d < dent)
    (h : ∀ run ∈ caseRuns d lines, isSettled d run = true) :
    ∀ run ∈ caseRuns d (sortGroupsAt dent lines), isSettled d run = true := by
  intro run' hrun'
  obtain ⟨run, hrun, halike⟩ :=
    exists_of_mem_of_forall₂ (likeAbove_sortGroupsAt hd lines).forall₂_caseRuns hrun'
  rw [← halike.isSettled_eq]
  exact h run hrun

theorem InOrder.sortLevels {dents : List Nat} (h : InOrder dent lines)
    (hlevels : (dent :: dents).Pairwise fun a b => b < a)
    (hs : ∀ d ∈ dents, ∀ run ∈ caseRuns d lines, isSettled d run = true) :
    InOrder dent (sortLevels dents lines) := by
  induction dents generalizing lines with
  | nil => exact h
  | cons d dents ih =>
    obtain ⟨hdent, hlevels⟩ := List.pairwise_cons.1 hlevels
    obtain ⟨hd, hdents⟩ := List.forall_mem_cons.1 hdent
    obtain ⟨hlt, hlevels⟩ := List.pairwise_cons.1 hlevels
    obtain ⟨hsettled, hmore⟩ := List.forall_mem_cons.1 hs
    exact ih (h.sortGroupsAt hd hsettled) (List.pairwise_cons.2 ⟨hdents, hlevels⟩)
      fun d' hd' => isSettled_sortGroupsAt (hlt d' hd') (hmore d' hd')

/-- **All levels are in order** after they are sorted, the deepest first. -/
theorem inOrder_sortLevels {dents : List Nat} (hlevels : dents.Pairwise fun a b => b < a)
    (hs : ∀ d ∈ dents, ∀ run ∈ caseRuns d lines, isSettled d run = true) :
    ∀ d ∈ dents, InOrder d (sortLevels dents lines) := by
  induction dents generalizing lines with
  | nil => exact fun _ hd => nomatch hd
  | cons d dents ih =>
    obtain ⟨hlt, hmore⟩ := List.pairwise_cons.1 hlevels
    obtain ⟨hsettled, hs⟩ := List.forall_mem_cons.1 hs
    have hs' : ∀ d' ∈ dents, ∀ run ∈ caseRuns d' (sortGroupsAt d lines), isSettled d' run = true :=
      fun d' hd' => isSettled_sortGroupsAt (hlt d' hd') (hs d' hd')
    exact List.forall_mem_cons.2
      ⟨(inOrder_sortGroupsAt hsettled).sortLevels hlevels hs', ih hmore hs'⟩

theorem sortGroupsAt_of_inOrder (h : InOrder dent lines) : sortGroupsAt dent lines = lines := by
  induction lines using caseRuns_induction dent with
  | nil => rw [sortGroupsAt]
  | other line below hline ih =>
    rw [InOrder, groupRuns_of_not_isCaseAt hline] at h
    rw [sortGroupsAt_of_not_isCaseAt hline, ih h]
  | run groups rest hrun ih =>
    rw [InOrder, hrun.groupRuns_eq] at h
    obtain ⟨hgroups, hrest⟩ := List.forall_mem_cons.1 h
    have hsorted : sortGroups groups = groups := List.mergeSort_of_pairwise hgroups
    rw [hrun.sortGroupsAt_eq, hsorted, ih hrest]

theorem sortLevels_of_inOrder {dents : List Nat} (h : ∀ d ∈ dents, InOrder d lines) :
    sortLevels dents lines = lines := by
  induction dents with
  | nil => rfl
  | cons d dents ih =>
    obtain ⟨hd, hdents⟩ := List.forall_mem_cons.1 h
    show sortLevels dents (sortGroupsAt d lines) = lines
    rw [sortGroupsAt_of_inOrder hd, ih hdents]

/-- **Settled groups are in order** once they are sorted. -/
theorem inOrder_sortCaseGroups (h : ∀ line ∈ lines, isCaseLine line = true →
    ∀ run ∈ caseRuns (leadingSpaces line) lines, isSettled (leadingSpaces line) run = true) :
    ∀ line ∈ sortCaseGroups lines, isCaseLine line = true →
      InOrder (leadingSpaces line) (sortCaseGroups lines) := by
  intro line hline hcase
  have hlevel : leadingSpaces line ∈ caseIndentations lines :=
    mem_caseIndentations_iff.2 ⟨line, (sortCaseGroups_perm lines).mem_iff.1 hline, hcase, rfl⟩
  refine inOrder_sortLevels (caseIndentations_pairwise lines) (fun d hd => ?_) _ hlevel
  obtain ⟨line', hline', hcase', rfl⟩ := mem_caseIndentations_iff.1 hd
  exact h line' hline' hcase'

theorem sortCaseGroups_of_inOrder (h : ∀ line ∈ lines, isCaseLine line = true →
    InOrder (leadingSpaces line) lines) : sortCaseGroups lines = lines := by
  refine sortLevels_of_inOrder fun d hd => ?_
  obtain ⟨line, hline, hcase, rfl⟩ := mem_caseIndentations_iff.1 hd
  exact h line hline hcase

/-! ## Bodies -/

/-- The lines with the labels of every case in order. -/
def withSortedLabels (lines : List String) : List String :=
  lines.map fun line => (sortLabels line).getD line

theorem sortLabels_of_mem_normalizeCases {line : String} (h : line ∈ normalizeCases lines) :
    sortLabels line = none := by
  obtain ⟨line, -, rfl⟩ := List.mem_map.1 ((sortCaseGroups_perm _).mem_iff.1 h)
  cases hs : sortLabels line with
  | none => rw [Option.getD_none, hs]
  | some sorted => rw [Option.getD_some, sortLabels_of_eq_some hs]

theorem withSortedLabels_of_forall (h : ∀ line ∈ lines, sortLabels line = none) :
    withSortedLabels lines = lines := by
  refine (List.map_congr_left fun line hline => ?_).trans (List.map_id _)
  rw [h line hline, Option.getD_none, id]

/-- **Settled cases are in order once they are sorted**: labels and runs of groups, at every
indentation.  A second sort leaves them as they are. -/
theorem normalizeCases_normalizeCases
    (h : ∀ line ∈ withSortedLabels lines, isCaseLine line = true →
      ∀ run ∈ caseRuns (leadingSpaces line) (withSortedLabels lines),
        isSettled (leadingSpaces line) run = true) :
    (∀ line ∈ normalizeCases lines, sortLabels line = none ∧
      (isCaseLine line = true → InOrder (leadingSpaces line) (normalizeCases lines))) ∧
    normalizeCases (normalizeCases lines) = normalizeCases lines := by
  have horder := inOrder_sortCaseGroups h
  refine ⟨fun line hline => ⟨sortLabels_of_mem_normalizeCases hline, horder line hline⟩, ?_⟩
  show sortCaseGroups (withSortedLabels (normalizeCases lines)) = normalizeCases lines
  rw [withSortedLabels_of_forall fun line hline => sortLabels_of_mem_normalizeCases hline]
  exact sortCaseGroups_of_inOrder horder

/-- A switch inside a case of another one. -/
theorem normalizeCases_normalizeCases_nested :
    let body := ["switch (k) \x7b", "  case B -> \x7b", "    switch (l) \x7b", "      case D -> d();",
      "      case C -> c();", "    \x7d", "  \x7d", "  case A -> a();", "\x7d"]
    (∀ line ∈ normalizeCases body, sortLabels line = none ∧
      (isCaseLine line = true → InOrder (leadingSpaces line) (normalizeCases body))) ∧
    normalizeCases (normalizeCases body) = normalizeCases body :=
  normalizeCases_normalizeCases (by decide +kernel)

/-- A comment behind a group with a closing line: sorted, that group is not the last one, and the one
that is takes the comment in.  Then the case below the comment goes on with the run. -/
theorem normalizeCases_ne_of_comment :
    let body := ["switch (k) \x7b", "  case C -> c();", "  case B -> \x7b", "    b();", "  \x7d",
      "    // the rest", "  case A -> a();", "\x7d"]
    normalizeCases (normalizeCases body) ≠ normalizeCases body := by
  intro body
  have hpass : ∀ lines : List String, (lines.filter isCaseLine).map leadingSpaces = [2, 2, 2] →
      withSortedLabels lines = lines → normalizeCases lines = sortGroupsAt 2 lines := by
    intro lines hdents hlabels
    have hlevels : caseIndentations lines = [2] := by
      rw [caseIndentations, hdents, List.mergeSort_of_pairwise (by decide)]
      rfl
    show sortCaseGroups (withSortedLabels lines) = _
    rw [hlabels, sortCaseGroups, hlevels]
    rfl
  let once := ["switch (k) \x7b", "  case B -> \x7b", "    b();", "  \x7d", "  case C -> c();",
    "    // the rest", "  case A -> a();", "\x7d"]
  have hend : sortGroupsAt 2 ["\x7d"] = ["\x7d"] := by
    rw [sortGroupsAt, if_neg (by decide +kernel), sortGroupsAt]
  have honce : normalizeCases body = once := by
    have hfirst : leadingGroups 2 (body.drop 1) = ([["  case C -> c();"],
        ["  case B -> \x7b", "    b();", "  \x7d"]],
        ["    // the rest"] ++ ["  case A -> a();", "\x7d"]) := by decide +kernel
    have hlast : leadingGroups 2 ["  case A -> a();", "\x7d"] =
        ([["  case A -> a();"]], ["\x7d"]) := by decide +kernel
    have hsorted : [["  case B -> \x7b", "    b();", "  \x7d"], ["  case C -> c();"]].Pairwise
        fun a b => compareLines a b = .lt := by decide +kernel
    rw [hpass body (by decide +kernel) (by decide +kernel),
      show body = ["switch (k) \x7b"] ++ body.drop 1 from rfl,
      sortGroupsAt_of_leadingGroups (by decide +kernel) hfirst (by simp) (by decide) hsorted,
      sortGroupsAt_of_leadingGroups (by decide +kernel) hlast (by simp) (.refl _) (by simp), hend]
    rfl
  have htwice : normalizeCases once = ["switch (k) \x7b", "  case A -> a();", "  case B -> \x7b",
      "    b();", "  \x7d", "  case C -> c();", "    // the rest", "\x7d"] := by
    have hrun : leadingGroups 2 (once.drop 1) = ([["  case B -> \x7b", "    b();", "  \x7d"],
        ["  case C -> c();", "    // the rest"], ["  case A -> a();"]], ["\x7d"]) := by
      decide +kernel
    have hsorted : [["  case A -> a();"], ["  case B -> \x7b", "    b();", "  \x7d"],
        ["  case C -> c();", "    // the rest"]].Pairwise fun a b => compareLines a b = .lt := by
      decide +kernel
    rw [hpass once (by decide +kernel) (by decide +kernel),
      show once = ["switch (k) \x7b"] ++ once.drop 1 from rfl,
      sortGroupsAt_of_leadingGroups (by decide +kernel) hrun (by simp) (by decide) hsorted, hend]
    rfl
  rw [honce, htwice]
  decide

end HouseStyle
