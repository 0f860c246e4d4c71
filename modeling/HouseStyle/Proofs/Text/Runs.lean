import HouseStyle.Text.Runs
import Mathlib.Data.List.Forall2

/-!
# Facts about runs

A list is its runs and the elements between them.  An element begins a run if it satisfies the
predicate and the element in front of it does not.

* `Run.Has`: the indices of a run.
* `runs_induction`: induction over the runs of a list and the elements between them.
* `mapRuns_perm`, `mapRuns_mapRuns`: runs that are rearranged, once and twice.
* `infix_of_infix_append`: a stretch that satisfies the predicate lies in one run.
* `IsRun`, `eq_mapRuns_iff`: the list with its runs replaced, place by place.
* `mapRunHeads_eq`: changing the first element of every run is one pass that looks one element back.
* `mapRunHeads_mapRunHeads`: doing it twice changes nothing more.
* `HeadsChanged`, `headsChanged_iff`: the list with the first elements of its runs changed, place by place.
* `runs_mapRunHeads`: its runs are where they were if the changed elements still satisfy the predicate.
-/

namespace HouseStyle.Text

/-- Whether an index is one of those of a run. -/
def Run.Has (run : Run) (i : Nat) : Prop := run.start ≤ i ∧ i < run.stop

instance (run : Run) (i : Nat) : Decidable (run.Has i) :=
  inferInstanceAs (Decidable (run.start ≤ i ∧ i < run.stop))

/-! ## Whole runs -/

section

variable {α β : Type} {p : α → Bool} {f : List α → List α} {a rest : List α}

theorem takeWhile_append_of_boundary (ha : ∀ x ∈ a, p x = true)
    (hr : ∀ x ∈ rest.head?, p x = false) : (a ++ rest).takeWhile p = a := by
  rw [List.takeWhile_append_of_pos ha]
  cases rest with
  | nil => simp
  | cons x rest => simp [hr x rfl]

theorem dropWhile_append_of_boundary (ha : ∀ x ∈ a, p x = true)
    (hr : ∀ x ∈ rest.head?, p x = false) : (a ++ rest).dropWhile p = rest := by
  rw [List.dropWhile_append_of_pos ha]
  cases rest with
  | nil => rfl
  | cons x rest => simp [hr x rfl]

/-- Induction over the runs of a list and the elements between them. -/
theorem runs_induction {P : List α → Prop} (nil : P [])
    (other : ∀ x xs, p x = false → P xs → P (x :: xs))
    (run : ∀ run rest, run ≠ [] → (∀ x ∈ run, p x = true) → (∀ x ∈ rest.head?, p x = false) →
      P rest → P (run ++ rest)) (xs : List α) : P xs := by
  fun_induction mapRuns p id xs with
  | case1 => exact nil
  | case2 x xs hx ih =>
    rw [← List.takeWhile_append_dropWhile (p := p) (l := xs), ← List.cons_append]
    refine run _ _ (List.cons_ne_nil _ _) (List.forall_mem_cons.2 ⟨hx, fun y hy => ?_⟩) ?_ ih
    · exact List.all_eq_true.1 List.all_takeWhile y hy
    · intro y hy
      have hhead := List.head?_dropWhile_not p xs
      rw [hy] at hhead
      simpa using hhead
  | case3 x xs hx ih => exact other x xs (Bool.eq_false_iff.2 hx) ih

theorem mapRuns_cons_of_neg {x : α} {xs : List α} (h : p x = false) :
    mapRuns p f (x :: xs) = x :: mapRuns p f xs := by
  rw [mapRuns, if_neg (by simp [h])]

theorem mapRuns_append {run rest : List α} (hne : run ≠ []) (hrun : ∀ x ∈ run, p x = true)
    (hrest : ∀ x ∈ rest.head?, p x = false) :
    mapRuns p f (run ++ rest) = f run ++ mapRuns p f rest := by
  obtain ⟨x, xs, rfl⟩ := List.exists_cons_of_ne_nil hne
  obtain ⟨hx, hxs⟩ := List.forall_mem_cons.1 hrun
  rw [List.cons_append, mapRuns, if_pos hx, takeWhile_append_of_boundary hxs hrest,
    dropWhile_append_of_boundary hxs hrest]

theorem head?_mapRuns {xs : List α} (h : ∀ x ∈ xs.head?, p x = false) :
    (mapRuns p f xs).head? = xs.head? := by
  cases xs with
  | nil => rw [mapRuns]
  | cons x xs => rw [mapRuns_cons_of_neg (h x rfl), List.head?_cons, List.head?_cons]

theorem mapRuns_perm (hf : ∀ run, (f run).Perm run) (xs : List α) : (mapRuns p f xs).Perm xs := by
  induction xs using runs_induction (p := p) with
  | nil => rw [mapRuns]
  | other x xs hx ih =>
    rw [mapRuns_cons_of_neg hx]
    exact ih.cons x
  | run run rest hne hrun hrest ih =>
    rw [mapRuns_append hne hrun hrest]
    exact (hf run).append ih

/-- Runs that are rearranged stay the runs of the list. -/
theorem mapRuns_mapRuns (hf : ∀ run, (f run).Perm run) (hff : ∀ run, f (f run) = f run)
    (xs : List α) : mapRuns p f (mapRuns p f xs) = mapRuns p f xs := by
  induction xs using runs_induction (p := p) with
  | nil => rw [mapRuns, mapRuns]
  | other x xs hx ih => rw [mapRuns_cons_of_neg hx, mapRuns_cons_of_neg hx, ih]
  | run run rest hne hrun hrest ih =>
    have hne' : f run ≠ [] := fun he => hne (List.nil_perm.1 (he ▸ hf run))
    rw [mapRuns_append hne hrun hrest, mapRuns_append hne', ih, hff]
    · intro x hx
      exact hrun x ((hf run).mem_iff.1 hx)
    · rw [head?_mapRuns hrest]
      exact hrest

/-- Elements that are changed one by one may be changed before or after their runs. -/
theorem mapRuns_map {q : β → Bool} {f' : List β → List β} {g : α → β} (hp : ∀ x, q (g x) = p x)
    (hf : ∀ run, f' (run.map g) = (f run).map g) (xs : List α) :
    mapRuns q f' (xs.map g) = (mapRuns p f xs).map g := by
  induction xs using runs_induction (p := p) with
  | nil => rw [List.map_nil, mapRuns, mapRuns, List.map_nil]
  | other x xs hx ih =>
    rw [List.map_cons, mapRuns_cons_of_neg ((hp x).trans hx), mapRuns_cons_of_neg hx, ih,
      List.map_cons]
  | run run rest hne hrun hrest ih =>
    rw [List.map_append, mapRuns_append hne hrun hrest, mapRuns_append, hf, ih, List.map_append]
    · simpa using hne
    · simpa [hp] using hrun
    · intro y hy
      rw [List.head?_map] at hy
      obtain ⟨x, hx, rfl⟩ := Option.map_eq_some_iff.1 hy
      exact (hp x).trans (hrest x hx)

/-- A stretch of a list that satisfies the predicate lies in one run. -/
theorem infix_of_infix_append {run stretch : List α} (hrest : ∀ x ∈ rest.head?, p x = false)
    (hs : ∀ x ∈ stretch, p x = true) (h : stretch <:+: run ++ rest) :
    stretch <:+: run ∨ stretch <:+: rest := by
  rcases List.infix_append_iff.1 h with h | h | ⟨left, right, rfl, hleft, hright⟩
  · exact Or.inl h
  · exact Or.inr h
  · cases right with
    | nil =>
      rw [List.append_nil]
      exact Or.inl hleft.isInfix
    | cons x right =>
      -- then the stretch would go on with the element that ends the run
      have hx : p x = true := hs x (by simp)
      have hhead : x ∈ rest.head? := by
        obtain ⟨tail, rfl⟩ := hright
        rfl
      rw [hrest x hhead] at hx
      cases hx

theorem infix_of_infix_cons {x : α} {xs stretch : List α} (hx : p x = false)
    (hs : ∀ y ∈ stretch, p y = true) (h : stretch <:+: x :: xs) : stretch <:+: xs := by
  rcases List.infix_cons_iff.1 h with h | h
  · cases stretch with
    | nil => exact List.nil_infix
    | cons y stretch =>
      obtain ⟨tail, htail⟩ := h
      obtain ⟨rfl, -⟩ := List.cons.inj htail
      have hy : p y = true := hs y (by simp)
      rw [hx] at hy
      cases hy
  · exact h

/-! ## Runs and their places -/

/-- A stretch of a list, given with what stands in front of it and behind it, that is a run. -/
structure IsRun (p : α → Bool) (before run after : List α) : Prop where
  ne_nil : run ≠ []
  all : ∀ x ∈ run, p x = true
  start : ∀ x ∈ before.getLast?, p x = false
  stop : ∀ x ∈ after.head?, p x = false

/-- A list may be cut in front of or behind an element that belongs to no run. -/
theorem mapRuns_append_of_boundary {before : List α}
    (h : (∀ x ∈ before.getLast?, p x = false) ∨ ∀ x ∈ rest.head?, p x = false) :
    mapRuns p f (before ++ rest) = mapRuns p f before ++ mapRuns p f rest := by
  induction before using runs_induction (p := p) with
  | nil => rw [List.nil_append, mapRuns, List.nil_append]
  | other x xs hx ih =>
    rw [List.cons_append, mapRuns_cons_of_neg hx, mapRuns_cons_of_neg hx, ih, List.cons_append]
    exact h.imp_left fun hlast y hy => hlast y (List.mem_getLast?_cons hy)
  | run run after hne hrun hafter ih =>
    cases after with
    | nil =>
      rw [List.append_nil] at h
      rcases h with hlast | hhead
      · -- the last element of a run belongs to it
        have hx := List.getLast?_eq_some_getLast hne
        have hp := hlast _ hx
        rw [hrun _ (List.getLast_mem hne)] at hp
        cases hp
      · rw [mapRuns_append hne hrun hafter, List.append_nil, mapRuns_append hne hrun hhead, mapRuns,
          List.append_nil]
    | cons y ys =>
      rw [List.append_assoc, mapRuns_append hne hrun (by simpa using hafter),
        mapRuns_append hne hrun hafter, ih, List.append_assoc]
      refine h.imp_left fun hlast x hx => hlast x ?_
      rwa [List.getLast?_append_of_ne_nil _ (List.cons_ne_nil y ys)]

theorem IsRun.mapRuns_eq {before run after : List α} (h : IsRun p before run after) :
    mapRuns p f (before ++ run ++ after) = mapRuns p f before ++ f run ++ mapRuns p f after := by
  rw [List.append_assoc, mapRuns_append_of_boundary (.inl h.start),
    mapRuns_append h.ne_nil h.all h.stop, List.append_assoc]

theorem length_mapRuns (hf : ∀ run, (f run).length = run.length) (xs : List α) :
    (mapRuns p f xs).length = xs.length := by
  induction xs using runs_induction (p := p) with
  | nil => rw [mapRuns]
  | other x xs hx ih => rw [mapRuns_cons_of_neg hx, List.length_cons, ih, List.length_cons]
  | run run rest hne hrun hrest ih =>
    rw [mapRuns_append hne hrun hrest, List.length_append, hf, ih, List.length_append]

theorem getElem?_mapRuns (hf : ∀ run, (f run).length = run.length) {xs : List α} {i : Nat} {x : α}
    (hi : xs[i]? = some x) (hx : p x = false) : (mapRuns p f xs)[i]? = some x := by
  obtain ⟨hlt, hget⟩ := List.getElem?_eq_some_iff.1 hi
  have hdrop : xs.drop i = x :: xs.drop (i + 1) := by rw [List.drop_eq_getElem_cons hlt, hget]
  have hlen : (mapRuns p f (xs.take i)).length = i := by
    rw [length_mapRuns hf, List.length_take_of_le (Nat.le_of_lt hlt)]
  conv_lhs => rw [← List.take_append_drop i xs, hdrop]
  rw [mapRuns_append_of_boundary (.inr (by simpa using hx)), mapRuns_cons_of_neg hx,
    List.getElem?_append_right (Nat.le_of_eq hlen), hlen, Nat.sub_self, List.getElem?_cons_zero]

/-- A list of the same length whose runs are replaced and whose other elements are in their places
is the list with its runs replaced. -/
theorem eq_mapRuns_iff (hf : ∀ run, (f run).length = run.length) {xs ys : List α} :
    ys = mapRuns p f xs ↔ ys.length = xs.length ∧
      (∀ (i : Nat) x, xs[i]? = some x → p x = false → ys[i]? = some x) ∧
      ∀ before run after, xs = before ++ run ++ after → IsRun p before run after →
        (ys.drop before.length).take run.length = f run := by
  constructor
  · rintro rfl
    refine ⟨length_mapRuns hf xs, fun i x => getElem?_mapRuns hf, ?_⟩
    rintro before run after rfl hrun
    rw [hrun.mapRuns_eq, List.append_assoc, List.drop_left' (length_mapRuns hf before),
      List.take_left' (hf run)]
  · rintro ⟨hlen, hother, hruns⟩
    induction xs using runs_induction (p := p) generalizing ys with
    | nil => rw [List.length_eq_zero_iff.1 hlen, mapRuns]
    | other x xs hx ih =>
      obtain ⟨y, ys, rfl⟩ := List.exists_cons_of_length_eq_add_one hlen
      obtain rfl : y = x := by simpa using hother 0 x rfl hx
      rw [mapRuns_cons_of_neg hx, ← ih]
      · simpa using hlen
      · exact fun i => hother (i + 1)
      · rintro before run after rfl hrun
        refine hruns (y :: before) run after rfl { hrun with start := ?_ }
        cases before with
        | nil => simpa using hx
        | cons z before =>
          rw [List.getLast?_cons_cons]
          exact hrun.start
    | run run rest hne hrun hrest ih =>
      have htake := hruns [] run rest rfl ⟨hne, hrun, by simp, hrest⟩
      have hdrop : ys.drop run.length = mapRuns p f rest := by
        refine ih ?_ ?_ ?_
        · rw [List.length_drop, hlen, List.length_append, Nat.add_sub_cancel_left]
        · intro i x hi
          rw [List.getElem?_drop]
          refine hother (run.length + i) x ?_
          rw [List.getElem?_append_right (Nat.le_add_right _ _), Nat.add_sub_cancel_left, hi]
        · rintro before next after rfl hnext
          rw [List.drop_drop, ← List.length_append]
          refine hruns (run ++ before) next after (by simp) { hnext with start := ?_ }
          cases before with
          | nil =>
            -- nothing that satisfies the predicate follows a run
            obtain ⟨x, xs, rfl⟩ := List.exists_cons_of_ne_nil hnext.ne_nil
            have hx := hrest x rfl
            rw [hnext.all x (by simp)] at hx
            cases hx
          | cons z before =>
            rw [List.getLast?_append_of_ne_nil _ (List.cons_ne_nil z before)]
            exact hnext.start
      rw [mapRuns_append hne hrun hrest, ← htake, List.length_nil, List.drop_zero, ← hdrop,
        List.take_append_drop]

end

/-! ## First elements -/

variable {α : Type} {p : α → Bool} {f : α → α}

/-- The list with the first element of every run changed; `inside` says that the list continues a
run. -/
def mapHeadsFrom (p : α → Bool) (f : α → α) (inside : Bool) : List α → List α
  | [] => []
  | x :: xs => (if p x && !inside then f x else x) :: mapHeadsFrom p f (p x) xs

theorem mapHeadsFrom_true (xs : List α) :
    mapHeadsFrom p f true xs = xs.takeWhile p ++ mapHeadsFrom p f false (xs.dropWhile p) := by
  induction xs with
  | nil => rfl
  | cons x xs ih =>
    cases hx : p x with
    | true => simp [mapHeadsFrom, hx, ih]
    | false => simp [mapHeadsFrom, hx]

theorem mapRunHeads_eq (xs : List α) : mapRunHeads p f xs = mapHeadsFrom p f false xs := by
  unfold mapRunHeads
  fun_induction mapRuns p _ xs with
  | case1 => rfl
  | case2 x xs hx ih => simp [mapHeadsFrom, hx, mapHeadsFrom_true, ih]
  | case3 x xs hx ih => simp [mapHeadsFrom, hx, ih]

/-- The first elements of runs are changed once. -/
theorem mapRunHeads_mapRunHeads (hp : ∀ x, p (f x) = p x) (hf : ∀ x, f (f x) = f x)
    (xs : List α) : mapRunHeads p f (mapRunHeads p f xs) = mapRunHeads p f xs := by
  rw [mapRunHeads_eq, mapRunHeads_eq]
  generalize false = inside
  induction xs generalizing inside with
  | nil => rfl
  | cons x xs ih =>
    cases hx : p x && !inside with
    | true => simp [mapHeadsFrom, hx, hp, hf, ih]
    | false => simp [mapHeadsFrom, hx, ih]

/-- Element by element, a list and the list with the first elements of its runs changed are related
as an element and the changed element. -/
theorem forall₂_mapRunHeads {r : α → α → Prop} (hr : ∀ x, r x x) (hf : ∀ x, p x = true → r x (f x))
    (xs : List α) : List.Forall₂ r xs (mapRunHeads p f xs) := by
  rw [mapRunHeads_eq]
  generalize false = inside
  induction xs generalizing inside with
  | nil => exact .nil
  | cons x xs ih =>
    rw [mapHeadsFrom]
    refine .cons ?_ (ih _)
    split
    · next hx =>
      rw [Bool.and_eq_true] at hx
      exact hf x hx.1
    · exact hr x

theorem forall_mem_mapRunHeads {P : α → Prop} (hf : ∀ x, P x → P (f x)) {xs : List α}
    (h : ∀ x ∈ xs, P x) : ∀ x ∈ mapRunHeads p f xs, P x := by
  rw [mapRunHeads_eq]
  generalize false = inside
  induction xs generalizing inside with
  | nil => exact h
  | cons x xs ih =>
    obtain ⟨hx, hxs⟩ := List.forall_mem_cons.1 h
    rw [mapHeadsFrom]
    refine List.forall_mem_cons.2 ⟨?_, ih hxs _⟩
    split
    · exact hf x hx
    · exact hx

theorem map_mapRunHeads {β : Type} {m : α → β} (hf : ∀ x, p x = true → m (f x) = m x)
    (xs : List α) : (mapRunHeads p f xs).map m = xs.map m := by
  have hall : List.Forall₂ (fun x y => m y = m x) xs (mapRunHeads p f xs) :=
    forall₂_mapRunHeads (r := fun x y => m y = m x) (fun _ => rfl) hf xs
  rw [← List.forall₂_eq_eq_eq, List.forall₂_map_left_iff, List.forall₂_map_right_iff]
  exact hall.flip

theorem runsFrom_map {β : Type} (q : β → Bool) (m : α → β) (index : Nat) (xs : List α) :
    runsFrom q index (xs.map m) = runsFrom (fun x => q (m x)) index xs := by
  fun_induction runsFrom (fun x => q (m x)) index xs with
  | case1 => rw [List.map_nil, runsFrom]
  | case2 index x xs hx stop ih =>
    rw [List.map_cons, runsFrom, if_pos hx, List.takeWhile_map, List.dropWhile_map, List.length_map]
    exact congrArg _ ih
  | case3 index x xs hx ih => rw [List.map_cons, runsFrom, if_neg hx, ih]

theorem runs_congr {xs ys : List α} (h : xs.map p = ys.map p) : runs p xs = runs p ys := by
  have hmap : ∀ zs : List α, runs p zs = runsFrom id 0 (zs.map p) := fun zs =>
    (runsFrom_map id p 0 zs).symm
  rw [hmap, hmap, h]

theorem runs_mapRunHeads (hf : ∀ x, p x = true → p (f x) = true) (xs : List α) :
    runs p (mapRunHeads p f xs) = runs p xs :=
  runs_congr (map_mapRunHeads (fun x hx => (hf x hx).trans hx.symm) xs)

/-- Whether the second list is the first one with the first element of every run changed as the
relation says, and with every other element where it was. -/
structure HeadsChanged (p : α → Bool) (r : α → α → Prop) (xs ys : List α) : Prop where
  length_eq : ys.length = xs.length
  elsewhere : ∀ (i : Nat) x, xs[i]? = some x → p x = false → ys[i]? = some x
  head : ∀ before x tail after, xs = before ++ (x :: tail) ++ after →
    IsRun p before (x :: tail) after →
    ∃ x', r x x' ∧ (ys.drop before.length).take (tail.length + 1) = x' :: tail

/-- **A list has one list with the first elements of its runs changed.** -/
theorem headsChanged_iff {r : α → α → Prop} (hr : ∀ x y, p x = true → (r x y ↔ y = f x))
    {xs ys : List α} : HeadsChanged p r xs ys ↔ ys = mapRunHeads p f xs := by
  have hplaces : ys = mapRunHeads p f xs ↔ _ := eq_mapRuns_iff fun run => by cases run <;> rfl
  rw [hplaces]
  constructor
  · rintro ⟨hlen, helse, hhead⟩
    refine ⟨hlen, helse, fun before run after hxs hrun => ?_⟩
    obtain ⟨x, tail, rfl⟩ := List.exists_cons_of_ne_nil hrun.ne_nil
    obtain ⟨x', hx', htake⟩ := hhead before x tail after hxs hrun
    rw [(hr x x' (hrun.all x List.mem_cons_self)).1 hx'] at htake
    exact htake
  · rintro ⟨hlen, helse, hrun⟩
    refine ⟨hlen, helse, fun before x tail after hxs hr' => ⟨f x, ?_, ?_⟩⟩
    · exact (hr x (f x) (hr'.all x List.mem_cons_self)).2 rfl
    · exact hrun before (x :: tail) after hxs hr'

end HouseStyle.Text
