import HouseStyle.Proofs.Text.Runs
import Mathlib.Data.List.Pairwise
import Mathlib.Data.List.Sort

/-!
# Where runs lie

The runs of a list are ranges of indices.  They hold the indices at which the predicate holds and no
others, and two of them are always kept apart by an index at which it fails.  No other list of ranges
is like that: each range is then as long as it can be, and of two such ranges with a common index
neither goes further than the other.

* `AreRuns`: ranges that lie as runs do.
* `IsMaximal`, `AreRuns.mem_iff`: each of them is as long as it can be.
* `AreRuns.append`: the ranges of two lists put together where no run goes on.
* `runs_eq_iff_areRuns`: **the runs of a list are the ranges that lie as runs do.**
-/

namespace HouseStyle.Text

variable {α : Type} {p : α → Bool} {xs ys : List α} {found found' : List Run} {run run' : Run}

/-! ## Ranges of indices -/

/-- The run with its indices moved up. -/
def Run.shift (n : Nat) (run : Run) : Run := ⟨run.start + n, run.stop + n⟩

@[simp] theorem Run.start_shift (n : Nat) (run : Run) : (run.shift n).start = run.start + n := rfl

@[simp] theorem Run.stop_shift (n : Nat) (run : Run) : (run.shift n).stop = run.stop + n := rfl

/-- Whether ranges lie in a list as its runs do: in increasing order, with an element between any two
that fails the predicate, and over exactly the elements that satisfy it. -/
structure AreRuns (p : α → Bool) (xs : List α) (found : List Run) : Prop where
  nonempty : ∀ run ∈ found, run.start < run.stop
  inside : ∀ run ∈ found, run.stop ≤ xs.length
  separated : found.Pairwise fun a b =>
    ∃ i x, a.stop ≤ i ∧ i < b.start ∧ xs[i]? = some x ∧ p x = false
  covers : ∀ (i : Nat) x, xs[i]? = some x → ((∃ run ∈ found, run.Has i) ↔ p x = true)

/-- Whether a range of elements that satisfy the predicate can be extended to neither side. -/
structure IsMaximal (p : α → Bool) (xs : List α) (run : Run) : Prop where
  nonempty : run.start < run.stop
  inside : run.stop ≤ xs.length
  holds : ∀ (i : Nat) x, run.Has i → xs[i]? = some x → p x = true
  before : ∀ (i : Nat) x, i + 1 = run.start → xs[i]? = some x → p x = false
  after : ∀ x, xs[run.stop]? = some x → p x = false

/-! ## One list of ranges -/

theorem IsMaximal.stop_le (h : IsMaximal p xs run) (h' : IsMaximal p xs run')
    (hstart : run.start = run'.start) : run.stop ≤ run'.stop := by
  by_contra hlt
  have hinside := h.inside
  have hnonempty := h'.nonempty
  have hget : xs[run'.stop]? = some xs[run'.stop] := List.getElem?_eq_getElem (by omega)
  have hholds := h.holds run'.stop _ ⟨by omega, by omega⟩ hget
  rw [h'.after _ hget] at hholds
  cases hholds

theorem IsMaximal.start_le (h : IsMaximal p xs run) (h' : IsMaximal p xs run') {i : Nat}
    (hi : run.Has i) (hi' : run'.Has i) : run.start ≤ run'.start := by
  by_contra hlt
  obtain ⟨hstart, hstop⟩ := hi
  obtain ⟨hstart', hstop'⟩ := hi'
  have hinside := h'.inside
  have hget : xs[run.start - 1]? = some xs[run.start - 1] := List.getElem?_eq_getElem (by omega)
  have hholds := h'.holds (run.start - 1) _ ⟨by omega, by omega⟩ hget
  rw [h.before (run.start - 1) _ (by omega) hget] at hholds
  cases hholds

/-- Two ranges that can be extended to neither side and have an index in common are the same. -/
theorem IsMaximal.eq_of_has (h : IsMaximal p xs run) (h' : IsMaximal p xs run') {i : Nat}
    (hi : run.Has i) (hi' : run'.Has i) : run = run' := by
  have hstart : run.start = run'.start := Nat.le_antisymm (h.start_le h' hi hi') (h'.start_le h hi' hi)
  have hstop : run.stop = run'.stop :=
    Nat.le_antisymm (h.stop_le h' hstart) (h'.stop_le h hstart.symm)
  cases run
  cases run'
  exact congrArg₂ Run.mk hstart hstop

namespace AreRuns

theorem eq_of_touch (h : AreRuns p xs found) (hrun : run ∈ found) (hrun' : run' ∈ found)
    (hstop : run'.start ≤ run.stop) (hstop' : run.start ≤ run'.stop) : run = run' := by
  by_contra hne
  have : Std.Symm fun a b : Run => a.stop < b.start ∨ b.stop < a.start := ⟨fun _ _ => Or.symm⟩
  have happart : found.Pairwise fun a b => a.stop < b.start ∨ b.stop < a.start :=
    h.separated.imp fun ⟨_, _, hle, hlt, _⟩ => Or.inl (Nat.lt_of_le_of_lt hle hlt)
  rcases happart.forall hrun hrun' hne with hlt | hlt <;> omega

theorem isMaximal_of_mem (h : AreRuns p xs found) (hrun : run ∈ found) : IsMaximal p xs run where
  nonempty := h.nonempty run hrun
  inside := h.inside run hrun
  holds i x hi hx := (h.covers i x hx).1 ⟨run, hrun, hi⟩
  before i x hi hx := by
    -- a range that held the index in front of this one would touch it
    refine Bool.eq_false_iff.2 fun hp => ?_
    obtain ⟨run', hrun', hstart, hstop⟩ := (h.covers i x hx).2 hp
    have hnonempty := h.nonempty run hrun
    obtain rfl := h.eq_of_touch hrun hrun' (by omega) (by omega)
    omega
  after x hx := by
    refine Bool.eq_false_iff.2 fun hp => ?_
    obtain ⟨run', hrun', hstart, hstop⟩ := (h.covers run.stop x hx).2 hp
    have hnonempty := h.nonempty run hrun
    obtain rfl := h.eq_of_touch hrun hrun' (by omega) (by omega)
    omega

/-- The ranges are those that can be extended to neither side. -/
theorem mem_iff (h : AreRuns p xs found) : run ∈ found ↔ IsMaximal p xs run := by
  refine ⟨h.isMaximal_of_mem, fun hmax => ?_⟩
  have hstart : run.Has run.start := ⟨Nat.le_refl _, hmax.nonempty⟩
  have hlt : run.start < xs.length := Nat.lt_of_lt_of_le hmax.nonempty hmax.inside
  have hget : xs[run.start]? = some xs[run.start] := List.getElem?_eq_getElem hlt
  obtain ⟨run', hrun', hi⟩ := (h.covers _ _ hget).2 (hmax.holds _ _ hstart hget)
  rw [hmax.eq_of_has (h.isMaximal_of_mem hrun') hstart hi]
  exact hrun'

theorem pairwise_start (h : AreRuns p xs found) : found.Pairwise fun a b => a.start < b.start :=
  h.separated.imp_of_mem fun ha _ ⟨_, _, hle, hlt, _⟩ =>
    Nat.lt_trans (Nat.lt_of_lt_of_le (h.nonempty _ ha) hle) hlt

/-- **A list has one list of ranges that lie as runs do.** -/
theorem eq (h : AreRuns p xs found) (h' : AreRuns p xs found') : found = found' := by
  have : Std.Irrefl fun a b : Run => a.start < b.start := ⟨fun a => Nat.lt_irrefl a.start⟩
  exact h.pairwise_start.eq_of_mem_iff h'.pairwise_start fun run => h.mem_iff.trans h'.mem_iff.symm

end AreRuns

/-! ## Lists put together -/

theorem areRuns_of_none (h : ∀ x ∈ xs, p x = false) : AreRuns p xs [] where
  nonempty _ hrun := nomatch hrun
  inside _ hrun := nomatch hrun
  separated := .nil
  covers i x hx := by simp [h x (List.mem_of_getElem? hx)]

theorem areRuns_of_all (hne : xs ≠ []) (h : ∀ x ∈ xs, p x = true) :
    AreRuns p xs [⟨0, xs.length⟩] where
  nonempty := by simpa using List.length_pos_of_ne_nil hne
  inside := by simp
  separated := List.pairwise_singleton _ _
  covers i x hx := by
    obtain ⟨hlt, -⟩ := List.getElem?_eq_some_iff.1 hx
    simp [Run.Has, hlt, h x (List.mem_of_getElem? hx)]

namespace AreRuns

/-- Where the first list ends with an element that fails the predicate, or the second one begins with
one, no run goes on from one list into the other. -/
theorem exists_between (h : AreRuns p xs found) (h' : AreRuns p ys found')
    (hb : (∀ x ∈ xs.getLast?, p x = false) ∨ ∀ y ∈ ys.head?, p y = false)
    (hrun : run ∈ found) (hrun' : run' ∈ found') :
    ∃ i x, run.stop ≤ i ∧ i < (run'.shift xs.length).start ∧ (xs ++ ys)[i]? = some x ∧
      p x = false := by
  have hnonempty := h.nonempty run hrun
  have hinside := h.inside run hrun
  have hnonempty' := h'.nonempty run' hrun'
  have hinside' := h'.inside run' hrun'
  rcases hb with hlast | hhead
  · -- the last element of the first list
    have hget : xs[xs.length - 1]? = some xs[xs.length - 1] := List.getElem?_eq_getElem (by omega)
    have hp : p xs[xs.length - 1] = false := hlast _ (by rw [List.getLast?_eq_getElem?, hget]; rfl)
    refine ⟨xs.length - 1, _, ?_, ?_, ?_, hp⟩
    · by_contra hlt
      have hholds := (h.isMaximal_of_mem hrun).holds _ _ ⟨by omega, by omega⟩ hget
      rw [hp] at hholds
      cases hholds
    · rw [Run.start_shift]
      omega
    · rw [List.getElem?_append_left (by omega), hget]
  · -- the first element of the second list
    have hget : ys[0]? = some ys[0] := List.getElem?_eq_getElem (by omega)
    have hp : p ys[0] = false := hhead _ (by rw [List.head?_eq_getElem?, hget]; rfl)
    refine ⟨xs.length, _, hinside, ?_, ?_, hp⟩
    · by_contra hlt
      rw [Run.start_shift] at hlt
      have hholds := (h'.isMaximal_of_mem hrun').holds _ _ ⟨by omega, by omega⟩ hget
      rw [hp] at hholds
      cases hholds
    · rw [List.getElem?_append_right (Nat.le_refl _), Nat.sub_self, hget]

theorem append (h : AreRuns p xs found) (h' : AreRuns p ys found')
    (hb : (∀ x ∈ xs.getLast?, p x = false) ∨ ∀ y ∈ ys.head?, p y = false) :
    AreRuns p (xs ++ ys) (found ++ found'.map (Run.shift xs.length)) where
  nonempty := by
    simp only [List.forall_mem_append, List.forall_mem_map, Run.start_shift, Run.stop_shift]
    exact ⟨h.nonempty, fun run hrun => Nat.add_lt_add_right (h'.nonempty run hrun) _⟩
  inside := by
    simp only [List.forall_mem_append, List.forall_mem_map, Run.stop_shift, List.length_append]
    refine ⟨fun run hrun => Nat.le_add_right_of_le (h.inside run hrun), fun run hrun => ?_⟩
    rw [Nat.add_comm]
    exact Nat.add_le_add_left (h'.inside run hrun) _
  separated := by
    refine List.pairwise_append.2 ⟨?_, List.pairwise_map.2 ?_, ?_⟩
    · refine h.separated.imp fun ⟨i, x, hle, hlt, hx, hp⟩ => ⟨i, x, hle, hlt, ?_, hp⟩
      rw [List.getElem?_append_left (List.getElem?_eq_some_iff.1 hx).1, hx]
    · refine h'.separated.imp fun ⟨i, x, hle, hlt, hx, hp⟩ => ⟨i + xs.length, x, ?_, ?_, ?_, hp⟩
      · exact Nat.add_le_add_right hle _
      · exact Nat.add_lt_add_right hlt _
      · rw [List.getElem?_append_right (Nat.le_add_left _ _), Nat.add_sub_cancel, hx]
    · intro run hrun shifted hshifted
      obtain ⟨run', hrun', rfl⟩ := List.mem_map.1 hshifted
      exact h.exists_between h' hb hrun hrun'
  covers i x hx := by
    simp only [List.mem_append, List.mem_map, or_and_right, exists_or, ↓existsAndEq, and_true]
    by_cases hi : i < xs.length
    · rw [List.getElem?_append_left hi] at hx
      have hnone : ¬∃ run ∈ found', (run.shift xs.length).Has i := by
        rintro ⟨run, -, hstart, -⟩
        rw [Run.start_shift] at hstart
        omega
      rw [← h.covers i x hx, or_iff_left hnone]
    · rw [List.getElem?_append_right (Nat.not_lt.1 hi)] at hx
      have hnone : ¬∃ run ∈ found, run.Has i := by
        rintro ⟨run, hrun, -, hstop⟩
        have hinside := h.inside run hrun
        omega
      rw [← h'.covers _ x hx, or_iff_right hnone]
      refine exists_congr fun run => and_congr_right fun _ => ?_
      simp only [Run.Has, Run.start_shift, Run.stop_shift]
      omega

end AreRuns

/-! ## The runs of a list -/

theorem runsFrom_append_of_run {run rest : List α} (hne : run ≠ []) (hrun : ∀ x ∈ run, p x = true)
    (hrest : ∀ x ∈ rest.head?, p x = false) (i : Nat) :
    runsFrom p i (run ++ rest) =
      ⟨i, i + run.length⟩ :: runsFrom p (i + run.length) rest := by
  obtain ⟨x, run, rfl⟩ := List.exists_cons_of_ne_nil hne
  obtain ⟨hx, hrun⟩ := List.forall_mem_cons.1 hrun
  have hlen : i + 1 + run.length = i + (x :: run).length := by rw [List.length_cons]; omega
  rw [List.cons_append, runsFrom, if_pos hx, takeWhile_append_of_boundary hrun hrest,
    dropWhile_append_of_boundary hrun hrest, hlen]

theorem runsFrom_eq_map_shift (n : Nat) (xs : List α) :
    runsFrom p n xs = (runs p xs).map (Run.shift n) := by
  have hshift : ∀ i, runsFrom p (i + n) xs = (runsFrom p i xs).map (Run.shift n) := by
    induction xs using runs_induction (p := p) with
    | nil => intro i; rw [runsFrom, runsFrom, List.map_nil]
    | other x xs hx ih =>
      intro i
      have hneg : ¬p x = true := by simp [hx]
      rw [runsFrom, runsFrom, if_neg hneg, if_neg hneg, ← ih, Nat.add_right_comm]
    | run run rest hne hrun hrest ih =>
      intro i
      rw [runsFrom_append_of_run hne hrun hrest, runsFrom_append_of_run hne hrun hrest,
        List.map_cons, ← ih, Run.shift, Nat.add_right_comm]
  rw [runs, ← hshift, Nat.zero_add]

theorem runs_cons_of_neg {x : α} (h : p x = false) (xs : List α) :
    runs p (x :: xs) = (runs p xs).map (Run.shift 1) := by
  rw [← runsFrom_eq_map_shift, runs, runsFrom, if_neg (by simp [h])]

/-- The runs of a list lie as they should. -/
theorem areRuns_runs (p : α → Bool) (xs : List α) : AreRuns p xs (runs p xs) := by
  induction xs using runs_induction (p := p) with
  | nil =>
    rw [runs, runsFrom]
    exact areRuns_of_none (by simp)
  | other x xs hx ih =>
    have hone : AreRuns p [x] [] := areRuns_of_none (by simpa using hx)
    have happend := hone.append ih (.inl (by simpa using hx))
    rw [runs_cons_of_neg hx]
    exact happend
  | run run rest hne hrun hrest ih =>
    have happend := (areRuns_of_all hne hrun).append ih (.inr hrest)
    have hruns : runs p (run ++ rest) =
        ⟨0, run.length⟩ :: (runs p rest).map (Run.shift run.length) := by
      rw [← runsFrom_eq_map_shift, runs, runsFrom_append_of_run hne hrun hrest, Nat.zero_add]
    rw [hruns]
    exact happend

/-- **The runs of a list are the ranges that lie as runs do.** -/
theorem runs_eq_iff_areRuns : runs p xs = found ↔ AreRuns p xs found := by
  constructor
  · rintro rfl
    exact areRuns_runs p xs
  · exact (areRuns_runs p xs).eq

theorem runs_append_of_boundary
    (hb : (∀ x ∈ xs.getLast?, p x = false) ∨ ∀ y ∈ ys.head?, p y = false) :
    runs p (xs ++ ys) = runs p xs ++ (runs p ys).map (Run.shift xs.length) :=
  runs_eq_iff_areRuns.2 ((areRuns_runs p xs).append (areRuns_runs p ys) hb)

/-- **The runs that are found are exact.**  They lie as runs do, no other ranges do, and the runs of two
lists with an element between them that fails the predicate are the runs of the one list and then,
moved up, those of the other. -/
theorem runs_exact (p : α → Bool) (xs : List α) :
    (∀ found, found = runs p xs ↔ AreRuns p xs found) ∧
      ∀ y ys, p y = false →
        runs p (xs ++ y :: ys) = runs p xs ++ (runs p ys).map (Run.shift (xs.length + 1)) := by
  refine ⟨fun found => eq_comm.trans runs_eq_iff_areRuns, fun y ys hy => ?_⟩
  rw [runs_append_of_boundary (.inr (by simpa using hy)), runs_cons_of_neg hy, List.map_map]
  congr 2
  funext run
  simp only [Function.comp_apply, Run.shift, Nat.add_assoc, Nat.add_comm 1]

/-- Runs at both ends of a list, and two zeros that stand next to each other. -/
theorem runs_exact_zeros :
    let p : Nat → Bool := (· != 0)
    p 0 = false ∧ AreRuns p [1, 2, 0, 0, 3] [⟨0, 2⟩, ⟨4, 5⟩] ∧
      runs p ([1, 2, 0, 0, 3] ++ 0 :: [4, 5, 6]) = [⟨0, 2⟩, ⟨4, 5⟩, ⟨6, 9⟩] := by
  intro p
  obtain ⟨hfound, happend⟩ := runs_exact p [1, 2, 0, 0, 3]
  refine ⟨rfl, (hfound _).1 (by decide +kernel), ?_⟩
  rw [happend 0 [4, 5, 6] rfl]
  decide +kernel

end HouseStyle.Text
