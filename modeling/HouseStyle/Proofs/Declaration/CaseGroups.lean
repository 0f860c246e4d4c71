import HouseStyle.Proofs.Declaration.Cases
import Mathlib.Data.List.TakeWhile

/-!
# Case groups at one indentation

Sorting the groups of a deeper indentation only moves lines that are deeper than any shallower case
line.  So it neither ends nor begins a group of a shallower indentation: the groups found there are
the same as before, but for the order of the lines below their case lines.

* `caseRuns`, `groupRuns`: the runs of case groups of an indentation, with the lines behind each and
  without.
* `LikeAbove`: two texts that differ in the order of the lines deeper than an indentation.
* `likeAbove_sortGroupsAt`: sorting a deeper level gives such a text.
* `LikeAbove.forall₂_caseRuns`: the runs of such texts match, group by group.
* `caseIndentations_pairwise`: the levels are sorted from the deepest to the shallowest, each once.
-/

namespace HouseStyle

open Text

/-- The runs of case groups of an indentation, each with the lines behind it. -/
def caseRuns (dent : Nat) : List String → List (List (List String) × List String)
  | [] => []
  | line :: below =>
    if isCaseAt dent line then
      let group := splitGroup dent below
      let more := leadingGroups dent group.2
      ((line :: group.1) :: more.1, more.2) :: caseRuns dent more.2
    else caseRuns dent below
termination_by ls => ls.length
decreasing_by
  · exact Nat.lt_succ_of_le (Nat.le_trans (length_leadingGroups_le dent _)
      (length_splitGroup_le dent below))
  · exact Nat.lt_succ_self _

/-- The runs of case groups of an indentation. -/
def groupRuns (dent : Nat) (lines : List String) : List (List (List String)) :=
  (caseRuns dent lines).map Prod.fst

/-- Two texts with the same lines up to the order of neighbouring lines deeper than `dent`. -/
inductive LikeAbove (dent : Nat) : List String → List String → Prop
  | inner {xs ys : List String} (hx : ∀ l ∈ xs, isInside dent l = true) (hp : xs.Perm ys) :
      LikeAbove dent xs ys
  | outer {xs ys : List String} {line : String} {a b : List String}
      (hx : ∀ l ∈ xs, isInside dent l = true) (hp : xs.Perm ys) (hl : isInside dent line = false)
      (h : LikeAbove dent a b) : LikeAbove dent (xs ++ line :: a) (ys ++ line :: b)

/-- Two groups with the same case line, up to the order of the lines below it. -/
def GroupAlike (g g' : List String) : Prop := g.head? = g'.head? ∧ g.Perm g'

/-- Two runs whose groups are alike, with such lines behind them. -/
def RunAlike (dent : Nat) (run run' : List (List String) × List String) : Prop :=
  List.Forall₂ GroupAlike run.1 run'.1 ∧ LikeAbove dent run.2 run'.2

/-! ## Lines of one level -/

variable {dent : Nat} {line : String} {below lines : List String}

theorem indentation_of_isCaseAt (h : isCaseAt dent line = true) :
    indentation line = .spaces dent := by
  rw [isCaseAt, Bool.and_eq_true, beq_iff_eq] at h
  exact h.2

theorem isInside_of_isCaseAt {d : Nat} (h : isCaseAt dent line = true) :
    isInside d line = decide (d < dent) :=
  isInside_of_indentation (indentation_of_isCaseAt h)

theorem not_isCaseAt_of_isInside (h : isInside dent line = true) : isCaseAt dent line = false := by
  by_cases hc : isCaseAt dent line = true
  · rw [isInside_of_isCaseAt hc, decide_eq_true_eq] at h
    omega
  · exact Bool.eq_false_iff.2 hc

theorem isInside_of_lt {d : Nat} (hd : d < dent) (h : isInside dent line = true) :
    isInside d line = true := by
  unfold isInside at *
  cases hi : indentation line with
  | blank => rfl
  | spaces n =>
    rw [hi] at h
    simp only [Indentation.deeper, Indentation.atMost, Bool.not_eq_true',
      decide_eq_false_iff_not] at *
    omega

theorem isInside_of_closes {d : Nat} (hd : d < dent) (h : closes line dent "\x7d" = true) :
    isInside d line = true := by
  rw [closes_iff] at h
  subst h
  rw [isInside_iff (isBlank_closingLine rfl dent), leadingSpaces_closingLine rfl]
  exact hd

/-- A group below its case line is deeper than any shallower indentation. -/
theorem isInside_of_mem_splitGroup {d : Nat} (hd : d < dent) :
    ∀ l ∈ (splitGroup dent below).1, isInside d l = true := by
  have htake : ∀ l ∈ below.takeWhile (isInside dent), isInside d l = true := by
    intro l hl
    exact isInside_of_lt hd (List.all_eq_true.1 List.all_takeWhile l hl)
  unfold splitGroup
  split
  · next hnil =>
    intro l hl
    rw [← List.takeWhile_append_dropWhile (p := isInside dent) (l := below), hnil,
      List.append_nil] at hl
    exact htake l hl
  · next line' rest _ =>
    split
    · next hcloses =>
      intro l hl
      rcases List.mem_append.1 hl with hl | hl
      · exact htake l hl
      · rw [List.mem_singleton.1 hl]
        exact isInside_of_closes hd hcloses
    · exact htake

theorem isInside_of_mem_leadingGroups {d : Nat} (hd : d < dent) (ls : List String) :
    ∀ l ∈ (leadingGroups dent ls).1.flatten, isInside d l = true := by
  fun_induction leadingGroups dent ls with
  | case1 => exact fun _ hl => absurd hl List.not_mem_nil
  | case2 line below hcase group more ih =>
    intro l hl
    rw [List.flatten_cons] at hl
    rcases List.mem_append.1 hl with hl | hl
    · rcases List.mem_cons.1 hl with rfl | hl
      · rw [isInside_of_isCaseAt hcase]
        exact decide_eq_true hd
      · exact isInside_of_mem_splitGroup hd l hl
    · exact ih l hl
  | case3 => exact fun _ hl => absurd hl List.not_mem_nil

theorem caseRuns_of_not_isCaseAt (h : isCaseAt dent line = false) :
    caseRuns dent (line :: below) = caseRuns dent below := by
  rw [caseRuns, if_neg (by simp [h])]

theorem sortGroupsAt_of_not_isCaseAt (h : isCaseAt dent line = false) :
    sortGroupsAt dent (line :: below) = line :: sortGroupsAt dent below := by
  rw [sortGroupsAt, if_neg (by simp [h])]

theorem groupRuns_nil (dent : Nat) : groupRuns dent [] = [] := by
  rw [groupRuns, caseRuns, List.map_nil]

theorem groupRuns_of_isCaseAt (h : isCaseAt dent line = true) : groupRuns dent (line :: below) =
    ((line :: (splitGroup dent below).1) :: (leadingGroups dent (splitGroup dent below).2).1) ::
      groupRuns dent (leadingGroups dent (splitGroup dent below).2).2 := by
  rw [groupRuns, caseRuns, if_pos h, List.map_cons, groupRuns]

theorem groupRuns_of_not_isCaseAt (h : isCaseAt dent line = false) :
    groupRuns dent (line :: below) = groupRuns dent below := by
  rw [groupRuns, caseRuns_of_not_isCaseAt h, groupRuns]

/-! ## Moving deeper lines -/

namespace LikeAbove

variable {a b : List String}

theorem of_inner {xs ys : List String} (hx : ∀ l ∈ xs, isInside dent l = true) (hp : xs.Perm ys)
    (h : LikeAbove dent a b) : LikeAbove dent (xs ++ a) (ys ++ b) := by
  have hboth : ∀ {zs : List String}, (∀ l ∈ zs, isInside dent l = true) →
      ∀ l ∈ xs ++ zs, isInside dent l = true := by
    intro zs hz l hl
    exact (List.mem_append.1 hl).elim (hx l) (hz l)
  cases h with
  | inner hx' hp' => exact .inner (hboth hx') (hp.append hp')
  | outer hx' hp' hl h =>
    rw [← List.append_assoc, ← List.append_assoc]
    exact .outer (hboth hx') (hp.append hp') hl h

theorem cons (line : String) (h : LikeAbove dent a b) :
    LikeAbove dent (line :: a) (line :: b) := by
  by_cases hl : isInside dent line = true
  · show LikeAbove dent ([line] ++ a) ([line] ++ b)
    exact of_inner (by simpa using hl) (.refl _) h
  · show LikeAbove dent ([] ++ line :: a) ([] ++ line :: b)
    exact .outer (by simp) (.refl _) (Bool.eq_false_iff.2 hl) h

theorem refl (a : List String) : LikeAbove dent a a := by
  induction a with
  | nil => exact .inner (by simp) (.refl _)
  | cons line a ih => exact ih.cons line

/-- What is deeper at the start, and what begins with the first line that is not. -/
theorem takeWhile_dropWhile (h : LikeAbove dent a b) :
    (a.takeWhile (isInside dent)).Perm (b.takeWhile (isInside dent)) ∧
      (a.dropWhile (isInside dent) = [] ∧ b.dropWhile (isInside dent) = [] ∨
        ∃ line a' b', isInside dent line = false ∧ LikeAbove dent a' b' ∧
          a.dropWhile (isInside dent) = line :: a' ∧ b.dropWhile (isInside dent) = line :: b') := by
  cases h with
  | inner hx hp =>
    have hy := fun l hl => hx l (hp.mem_iff.2 hl)
    rw [List.takeWhile_eq_self_iff.2 hx, List.takeWhile_eq_self_iff.2 hy]
    exact ⟨hp, Or.inl ⟨List.dropWhile_eq_nil_iff.2 hx, List.dropWhile_eq_nil_iff.2 hy⟩⟩
  | @outer xs ys line a b hx hp hl h =>
    have hy := fun l hl => hx l (hp.mem_iff.2 hl)
    have hline : ¬ isInside dent line = true := Bool.eq_false_iff.1 hl
    rw [List.takeWhile_append_of_pos hx, List.takeWhile_append_of_pos hy,
      List.dropWhile_append_of_pos hx, List.dropWhile_append_of_pos hy,
      List.takeWhile_cons_of_neg hline, List.takeWhile_cons_of_neg hline,
      List.dropWhile_cons_of_neg hline, List.dropWhile_cons_of_neg hline, List.append_nil,
      List.append_nil]
    exact ⟨hp, Or.inr ⟨line, a, b, hl, h, rfl, rfl⟩⟩

theorem perm_splitGroup (h : LikeAbove dent a b) :
    (splitGroup dent a).1.Perm (splitGroup dent b).1 ∧
      LikeAbove dent (splitGroup dent a).2 (splitGroup dent b).2 := by
  have happend : ∀ ls : List String,
      ls.takeWhile (isInside dent) ++ ls.dropWhile (isInside dent) = ls :=
    fun _ => List.takeWhile_append_dropWhile
  obtain ⟨htake, ⟨ha, hb⟩ | ⟨line, a', b', hl, h', ha, hb⟩⟩ := h.takeWhile_dropWhile
  · have hperm : a.Perm b := by
      rw [← happend a, ← happend b, ha, hb]
      exact htake.append (.refl _)
    unfold splitGroup
    rw [ha, hb]
    exact ⟨hperm, .refl _⟩
  · unfold splitGroup
    rw [ha, hb]
    dsimp only
    split
    · exact ⟨htake.append (.refl _), h'⟩
    · exact ⟨htake, h'.cons line⟩

theorem cases_head (h : LikeAbove dent a b) :
    a = [] ∧ b = [] ∨
      (∃ x xs y ys, a = x :: xs ∧ b = y :: ys ∧ isInside dent x = true ∧ isInside dent y = true) ∨
      ∃ line a' b', isInside dent line = false ∧ LikeAbove dent a' b' ∧ a = line :: a' ∧
        b = line :: b' := by
  have deeper : ∀ {x : String} {xs ys : List String}, (∀ l ∈ x :: xs, isInside dent l = true) →
      (x :: xs).Perm ys → ∃ y ys', ys = y :: ys' ∧ isInside dent x = true ∧
        isInside dent y = true := by
    intro x xs ys hx hp
    cases ys with
    | nil => exact absurd hp.eq_nil (by simp)
    | cons y ys' => exact ⟨y, ys', rfl, hx x (by simp), hx y (hp.mem_iff.2 (by simp))⟩
  cases h with
  | @inner xs ys hx hp =>
    cases a with
    | nil => exact Or.inl ⟨rfl, hp.nil_eq.symm⟩
    | cons x xs =>
      obtain ⟨y, ys', rfl, h1, h2⟩ := deeper hx hp
      exact Or.inr (Or.inl ⟨x, xs, y, ys', rfl, rfl, h1, h2⟩)
  | @outer xs ys line a b hx hp hl h =>
    cases xs with
    | nil =>
      rw [← hp.nil_eq]
      exact Or.inr (Or.inr ⟨line, a, b, hl, h, rfl, rfl⟩)
    | cons x xs =>
      obtain ⟨y, ys', rfl, h1, h2⟩ := deeper hx hp
      exact Or.inr (Or.inl ⟨x, _, y, _, rfl, rfl, h1, h2⟩)

theorem forall₂_leadingGroups (h : LikeAbove dent a b) :
    List.Forall₂ GroupAlike (leadingGroups dent a).1
        (leadingGroups dent b).1 ∧
      LikeAbove dent (leadingGroups dent a).2 (leadingGroups dent b).2 := by
  induction hn : a.length using Nat.strongRecOn generalizing a b with
  | ind n ih =>
    subst hn
    have hstop : ∀ {x : String} {xs : List String}, isInside dent x = true →
        leadingGroups dent (x :: xs) = ([], x :: xs) := by
      intro x xs hx
      rw [leadingGroups, if_neg (by simp [not_isCaseAt_of_isInside hx])]
    obtain ⟨rfl, rfl⟩ | ⟨x, xs, y, ys, rfl, rfl, hx, hy⟩ | ⟨line, a', b', hl, h', rfl, rfl⟩ :=
      h.cases_head
    · rw [leadingGroups]
      exact ⟨.nil, .refl _⟩
    · rw [hstop hx, hstop hy]
      exact ⟨.nil, h⟩
    · rw [leadingGroups, leadingGroups]
      split
      · obtain ⟨hgroup, hrest⟩ := h'.perm_splitGroup
        obtain ⟨hmore, hlast⟩ := ih _ (Nat.lt_succ_of_le (length_splitGroup_le dent a')) hrest rfl
        exact ⟨.cons ⟨rfl, hgroup.cons line⟩ hmore, hlast⟩
      · exact ⟨.nil, h'.cons line⟩

theorem caseRuns_inner {xs : List String} (hx : ∀ l ∈ xs, isInside dent l = true)
    (rest : List String) :
    caseRuns dent (xs ++ rest) = caseRuns dent rest := by
  induction xs with
  | nil => rfl
  | cons x xs ih =>
    obtain ⟨hx, hxs⟩ := List.forall_mem_cons.1 hx
    rw [List.cons_append, caseRuns_of_not_isCaseAt (not_isCaseAt_of_isInside hx), ih hxs]

/-- **The runs match**, group by group, and so do the lines behind them. -/
theorem forall₂_caseRuns (h : LikeAbove dent a b) :
    List.Forall₂ (RunAlike dent) (caseRuns dent a) (caseRuns dent b) := by
  induction hn : a.length using Nat.strongRecOn generalizing a b with
  | ind n ih =>
    subst hn
    cases h with
    | inner hx hp =>
      have hy := fun l hl => hx l (hp.mem_iff.2 hl)
      rw [← List.append_nil a, ← List.append_nil b, caseRuns_inner hx, caseRuns_inner hy,
        caseRuns]
      exact .nil
    | @outer xs ys line a b hx hp hl h =>
      have hy := fun l hl => hx l (hp.mem_iff.2 hl)
      have hlength : a.length < (xs ++ line :: a).length := by
        simp only [List.length_append, List.length_cons]
        omega
      rw [caseRuns_inner hx, caseRuns_inner hy, caseRuns, caseRuns]
      split
      · obtain ⟨hgroup, hrest⟩ := h.perm_splitGroup
        obtain ⟨hmore, hlast⟩ := hrest.forall₂_leadingGroups
        have hle := Nat.le_trans (length_leadingGroups_le dent _) (length_splitGroup_le dent a)
        exact .cons ⟨.cons ⟨rfl, hgroup.cons line⟩ hmore, hlast⟩ (ih _ (by omega) hlast rfl)
      · exact ih _ hlength h rfl

theorem forall₂_groupRuns (h : LikeAbove dent a b) :
    List.Forall₂ (List.Forall₂ GroupAlike) (groupRuns dent a)
      (groupRuns dent b) := by
  rw [groupRuns, groupRuns, List.forall₂_map_left_iff, List.forall₂_map_right_iff]
  exact h.forall₂_caseRuns.imp fun _ _ hr => hr.1

end LikeAbove

/-- **Sorting the groups of a deeper indentation moves deeper lines only.** -/
theorem likeAbove_sortGroupsAt {d : Nat} (hd : d < dent) (lines : List String) :
    LikeAbove d lines (sortGroupsAt dent lines) := by
  fun_induction sortGroupsAt dent lines with
  | case1 => exact .refl _
  | case2 line below hcase group more ih =>
    have hinside : ∀ l ∈ ((line :: group.1) :: more.1).flatten, isInside d l = true := by
      have hleading := isInside_of_mem_leadingGroups hd (line :: below)
      rwa [leadingGroups, if_pos hcase] at hleading
    rw [← run_append dent line below]
    exact ih.of_inner hinside (List.mergeSort_perm _ _).flatten.symm
  | case3 line below _ ih => exact ih.cons line

/-! ## Levels -/

theorem pairwise_eraseDups {ns : List Nat} (h : ns.Pairwise fun a b => b ≤ a) :
    ns.eraseDups.Pairwise fun a b => b < a := by
  induction hn : ns.length using Nat.strongRecOn generalizing ns with
  | ind n ih =>
    subst hn
    cases ns with
    | nil => exact .nil
    | cons a as =>
      obtain ⟨ha, has⟩ := List.pairwise_cons.1 h
      have hlength := List.length_filter_le (fun b => !b == a) as
      rw [List.eraseDups_cons]
      refine List.pairwise_cons.2 ⟨?_, ih _ (Nat.lt_succ_of_le hlength) (has.filter _) rfl⟩
      intro b hb
      rw [List.mem_eraseDups, List.mem_filter] at hb
      have hle := ha b hb.1
      have hne : b ≠ a := by simpa using hb.2
      omega

theorem mem_caseIndentations_iff : dent ∈ caseIndentations lines ↔
    ∃ line ∈ lines, isCaseLine line = true ∧ leadingSpaces line = dent := by
  rw [caseIndentations, List.mem_eraseDups, (List.mergeSort_perm _ _).mem_iff, List.mem_map]
  simp only [List.mem_filter, and_assoc]

/-- The levels come from the deepest to the shallowest, each once. -/
theorem caseIndentations_pairwise (lines : List String) :
    (caseIndentations lines).Pairwise fun a b => b < a := by
  refine pairwise_eraseDups ?_
  have htrans : ∀ a b c : Nat, decide (b ≤ a) = true → decide (c ≤ b) = true →
      decide (c ≤ a) = true := by
    intro a b c hab hbc
    simp only [decide_eq_true_eq] at *
    omega
  have htotal : ∀ a b : Nat, (decide (b ≤ a) || decide (a ≤ b)) = true := by
    intro a b
    simp only [Bool.or_eq_true, decide_eq_true_eq]
    omega
  refine (List.pairwise_mergeSort htrans htotal _).imp ?_
  intro a b hab
  simpa using hab

end HouseStyle
