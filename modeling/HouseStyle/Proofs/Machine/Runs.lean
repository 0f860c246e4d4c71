import HouseStyle.Proofs.Machine.Operations
import HouseStyle.Proofs.Text.RunPlaces

/-!
# Runs in a machine

The runs of a list are found first, as ranges of indices; then the list is changed range by range.
Every change leaves the length as it is, so the ranges stay those of the list.

* `runs?_eq`: the runs of a list.
* `changeRuns?_eq`: **changing range by range is changing run by run.**
* `changes_changeHead?`, `changes_sortRange?`: the changes of one range.
-/

namespace HouseStyle.Machine

open Text

variable {α : Type} {p : α → Bool} {xs : List α}

/-! ## Finding runs -/

/-- The runs of a list from an index on. -/
def runs? (p : α → Bool) (xs : List α) (i : Nat) : Option (List Run) :=
  if _h : i < xs.length then do
    let start ← advance? (fun x => some (!p x)) xs i
    let stop ← advance? (fun x => some (p x)) xs start
    if _on : i < stop then
      let more ← runs? p xs stop
      return if start < stop then ⟨start, stop⟩ :: more else more
    else none
  else some []
termination_by xs.length - i

theorem runsFrom_append_of_neg {between rest : List α} (h : ∀ x ∈ between, p x = false) (i : Nat) :
    runsFrom p i (between ++ rest) = runsFrom p (i + between.length) rest := by
  induction between generalizing i with
  | nil => rfl
  | cons x between ih =>
    have hx : ¬ p x = true := by simp [h x List.mem_cons_self]
    rw [List.cons_append, runsFrom, if_neg hx, ih fun y hy => h y (List.mem_cons_of_mem x hy),
      List.length_cons, Nat.add_assoc, Nat.add_comm 1]

/-- A list that is not empty is its first run with what stands in front of it and behind it. -/
theorem exists_first_run (hne : xs ≠ []) : ∃ between run rest,
    xs.takeWhile (! p ·) = between ∧ xs = between ++ (run ++ rest) ∧
      (∀ x ∈ between, p x = false) ∧ (∀ x ∈ run, p x = true) ∧
      (∀ x ∈ rest.head?, p x = false) ∧ (run = [] → rest = [] ∧ between ≠ []) := by
  have hbetween := List.takeWhile_append_dropWhile (p := (! p ·)) (l := xs)
  have hrun := List.takeWhile_append_dropWhile (p := p) (l := xs.dropWhile (! p ·))
  refine ⟨_, (xs.dropWhile (! p ·)).takeWhile p, (xs.dropWhile (! p ·)).dropWhile p, rfl,
    by rw [hrun, hbetween], fun x hx => ?_, fun x hx => List.all_eq_true.1 List.all_takeWhile x hx, fun x hx => ?_,
    fun hempty => ?_⟩
  · have hall := List.all_eq_true.1 (List.all_takeWhile (p := (! p ·)) (l := xs)) x hx
    simpa using hall
  · have hhead := List.head?_dropWhile_not p (xs.dropWhile (! p ·))
    rw [hx] at hhead
    simpa using hhead
  · -- what follows the elements in between begins a run
    cases hd : xs.dropWhile (! p ·) with
    | nil =>
      rw [hd, List.append_nil] at hbetween
      rw [hbetween]
      exact ⟨rfl, hne⟩
    | cons x rest =>
      have hhead := List.head?_dropWhile_not (! p ·) xs
      rw [hd, List.head?_cons] at hhead
      rw [hd, List.takeWhile_cons_of_pos (by simpa using hhead)] at hempty
      cases hempty

/-- The ranges that are found are the runs. -/
theorem runs?_eq (hlen : xs.length < wordValues) {i : Nat} (hi : i ≤ xs.length) :
    runs? p xs i = some (runsFrom p i (xs.drop i)) := by
  induction hk : xs.length - i using Nat.strongRecOn generalizing i with
  | ind k ih =>
    rw [runs?]
    split
    · next hlt =>
      have hne : xs.drop i ≠ [] := by simpa using hlt
      obtain ⟨between, run, rest, hbetween, hsplit, hneg, hpos, hlast, hempty⟩ :=
        exists_first_run (p := p) hne
      have hafter := drop_add_of_drop hsplit
      have hstart := advance?_eq (i := i) (p := (! p ·)) hlen fun _ _ => rfl
      have hstop := advance?_eq (i := i + between.length) (p := p) hlen fun _ _ => rfl
      rw [hbetween] at hstart
      rw [hafter, takeWhile_append_of_boundary hpos hlast] at hstop
      have hrest := drop_add_of_drop hafter
      have hcount := congrArg List.length hsplit
      rw [List.length_drop, List.length_append, List.length_append] at hcount
      have hon : i < i + between.length + run.length := by
        by_cases hr : run = []
        · have hpos := List.length_pos_of_ne_nil (hempty hr).2
          omega
        · have hpos := List.length_pos_of_ne_nil hr
          omega
      have hmore := ih (xs.length - (i + between.length + run.length)) (by omega) (by omega) rfl
      rw [hrest] at hmore
      simp only [hstart, hstop, Option.bind_eq_bind, Option.bind_some, dif_pos hon, hmore]
      rw [hsplit, runsFrom_append_of_neg hneg]
      by_cases hr : run = []
      · rw [hr, (hempty hr).1]
        simp
      · have hpos' := List.length_pos_of_ne_nil hr
        rw [if_pos (by omega), runsFrom_append_of_run hr hpos hlast]
        rfl
    · next hend => rw [List.drop_eq_nil_of_le (Nat.not_lt.1 hend), runsFrom]

/-! ## Changing runs -/

/-- The list with a change made to every run, one after the other. -/
def changeRuns? (p : α → Bool) (change : List α → Run → Option (List α)) (xs : List α) :
    Option (List α) := do
  let found ← runs? p xs 0
  found.foldlM change xs

/-- Whether a change of a range is a change of the elements there. -/
def Changes (change : List α → Run → Option (List α)) (f : List α → List α) : Prop :=
  ∀ before run after, run ≠ [] →
    change (before ++ run ++ after) ⟨before.length, before.length + run.length⟩ =
      some (before ++ f run ++ after)

theorem foldlM_runsFrom_eq {change : List α → Run → Option (List α)} {f : List α → List α}
    (hf : ∀ run, (f run).length = run.length) (hchange : Changes change f) (xs : List α) :
    ∀ before, (runsFrom p before.length xs).foldlM change (before ++ xs) =
      some (before ++ mapRuns p f xs) := by
  induction xs using runs_induction (p := p) with
  | nil => intro before; rw [runsFrom, mapRuns]; rfl
  | other x xs hx ih =>
    intro before
    have hneg : ¬ p x = true := by simp [hx]
    have ih := ih (before ++ [x])
    rw [List.length_append, List.length_singleton, List.append_assoc, List.append_assoc,
      List.singleton_append, List.singleton_append] at ih
    rw [runsFrom, if_neg hneg, mapRuns_cons_of_neg hx, ih]
  | run run rest hne hrun hrest ih =>
    intro before
    have ih := ih (before ++ f run)
    rw [List.length_append, hf] at ih
    rw [runsFrom_append_of_run hne hrun hrest, List.foldlM_cons, ← List.append_assoc,
      hchange before run rest hne, Option.bind_eq_bind, Option.bind_some, ih,
      mapRuns_append hne hrun hrest, List.append_assoc]

/-- **Changing range by range is changing run by run.** -/
theorem changeRuns?_eq {change : List α → Run → Option (List α)} {f : List α → List α}
    (hlen : xs.length < wordValues) (hf : ∀ run, (f run).length = run.length)
    (hchange : Changes change f) : changeRuns? p change xs = some (mapRuns p f xs) := by
  have hfold := foldlM_runsFrom_eq (p := p) hf hchange xs []
  rw [List.nil_append, List.nil_append, List.length_nil] at hfold
  rw [changeRuns?, runs?_eq hlen (Nat.zero_le _), List.drop_zero, Option.bind_eq_bind,
    Option.bind_some, hfold]

/-! ## Changes -/

/-- The list with another element at an index. -/
def set? (xs : List α) (i : Nat) (x : α) : Option (List α) :=
  if i < xs.length then some (xs.set i x) else none

/-- The list with the first element of a range changed, if there is something to change. -/
def changeHead? (f : α → Option (Option α)) (xs : List α) (run : Run) : Option (List α) := do
  let x ← (xs[run.start]? : Option α)
  match ← f x with
  | none => return xs
  | some x => set? xs run.start x

/-- The list with the elements of a range sorted. -/
def sortRange? (le : α → α → Bool) (xs : List α) (run : Run) : Option (List α) := do
  let range ← slice? xs run.start run.stop
  return xs.take run.start ++ range.mergeSort le ++ xs.drop run.stop

theorem changes_changeHead? {f : α → Option (Option α)} {g : α → α}
    (hf : ∀ x, (f x).map (·.getD x) = some (g x)) :
    Changes (changeHead? f) fun
      | [] => []
      | x :: xs => g x :: xs := by
  intro before run after hne
  obtain ⟨x, run, rfl⟩ := List.exists_cons_of_ne_nil hne
  obtain ⟨changed, hchanged, hg⟩ := Option.map_eq_some_iff.1 (hf x)
  have hget : (before ++ x :: run ++ after)[before.length]? = some x := by simp
  have hlt : before.length < (before ++ x :: run ++ after).length := by simp
  rw [changeHead?]
  simp only [hget, hchanged, Option.bind_eq_bind, Option.bind_some, ← hg]
  cases changed with
  | none => rfl
  | some y =>
    simp only [set?, if_pos hlt, Option.getD_some]
    simp

theorem changes_sortRange? {le : α → α → Bool} : Changes (sortRange? le) (·.mergeSort le) := by
  intro before run after _
  have hrange : slice? (before ++ run ++ after) before.length (before.length + run.length) =
      some run := slice?_eq_of_drop (by simp) (by rw [List.append_assoc, List.drop_left])
  have hstop : before.length + run.length = (before ++ run).length := by rw [List.length_append]
  rw [sortRange?, hrange]
  simp only [Option.bind_eq_bind, Option.bind_some, hstop, List.drop_left, Option.pure_def]
  rw [List.append_assoc before run after, List.take_left]

end HouseStyle.Machine
