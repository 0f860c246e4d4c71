import HouseStyle.Proofs.Text.Order
import Mathlib.Data.List.Perm.Subperm

/-!
# Neighbors in a sorted list

Sorting a list moves its elements one by one, so that two of them that stood next to each other stay
together only if no other element belongs between them.  Equal elements can not be told apart: a
pair of neighbors is kept as often as it occurs, whichever of the equal elements make it up.

* `neighbors`: the pairs of elements that stand next to each other.
* `mem_neighbors_iff`, `count_neighbors_le_one`, `count_neighbors_self`: the pairs of a sorted list.
* `subperm_neighbors_iff`: **which pairs of a list are pairs of the sorted list.**
-/

namespace HouseStyle.Text

open Std

/-- The pairs of elements of a list that stand next to each other. -/
def neighbors {α : Type} (xs : List α) : List (α × α) := xs.zip xs.tail

section

variable {α : Type} {a b : α} {xs : List α}

theorem neighbors_cons_cons (x y : α) (xs : List α) :
    neighbors (x :: y :: xs) = (x, y) :: neighbors (y :: xs) := rfl

theorem mem_of_mem_neighbors (h : (a, b) ∈ neighbors xs) : a ∈ xs ∧ b ∈ xs := by
  obtain ⟨ha, hb⟩ := List.of_mem_zip h
  exact ⟨ha, List.mem_of_mem_tail hb⟩

theorem count_neighbors_self_le [BEq α] [LawfulBEq α] (a : α) (xs : List α) :
    (neighbors xs).count (a, a) ≤ xs.count a - 1 := by
  induction xs with
  | nil => exact Nat.le_refl _
  | cons x xs ih =>
    cases xs with
    | nil => exact Nat.zero_le _
    | cons y ys =>
      rw [neighbors_cons_cons]
      by_cases hxy : (x, y) = (a, a)
      · obtain ⟨rfl, rfl⟩ := Prod.mk.inj hxy
        rw [List.count_cons_self, List.count_cons_self, List.count_cons_self] at *
        omega
      · rw [List.count_cons_of_ne hxy]
        have hle : (y :: ys).count a ≤ (x :: y :: ys).count a := List.count_le_count_cons
        omega

end

/-! ## Sorted lists -/

section Sorted

variable {α : Type} {cmp : α → α → Ordering} [TransCmp cmp] [LawfulEqCmp cmp] {a b : α} {xs : List α}

variable (hs : xs.Pairwise fun a b => (cmp a b).isLE = true)

include hs

/-- Two different elements are neighbors in a sorted list if nothing belongs between them. -/
theorem mem_neighbors_iff (hne : a ≠ b) : (a, b) ∈ neighbors xs ↔
    a ∈ xs ∧ b ∈ xs ∧ cmp a b = .lt ∧ ∀ c ∈ xs, ¬(cmp a c = .lt ∧ cmp c b = .lt) := by
  induction xs with
  | nil => simp [neighbors]
  | cons x xs ih =>
    cases xs with
    | nil =>
      simp only [neighbors, List.tail_cons, List.zip_nil_right, List.not_mem_nil,
        List.mem_singleton, false_iff, not_and]
      rintro rfl rfl
      exact absurd rfl hne
    | cons y ys =>
      have htail := (List.pairwise_cons.1 hs).2
      have hx : ∀ c ∈ x :: y :: ys, (cmp x c).isLE = true := fun c hc => isLE_of_mem_cons hs hc
      have hy : ∀ c ∈ y :: ys, (cmp y c).isLE = true := fun c hc => isLE_of_mem_cons htail hc
      rw [neighbors_cons_cons, List.mem_cons, ih htail]
      constructor
      · rintro (hxy | ⟨ha, hb, hlt, hbetween⟩)
        · obtain ⟨rfl, rfl⟩ := Prod.mk.inj hxy
          refine ⟨List.mem_cons_self, by simp, lt_of_isLE_of_ne (hx b (by simp)) hne, ?_⟩
          rintro c hc ⟨hac, hcb⟩
          rcases List.mem_cons.1 hc with rfl | hc
          · rw [@ReflCmp.compare_self _ cmp] at hac
            cases hac
          · exact OrientedCmp.not_isLE_of_lt hcb (hy c hc)
        · refine ⟨List.mem_cons_of_mem x ha, List.mem_cons_of_mem x hb, hlt, ?_⟩
          rintro c hc ⟨hac, hcb⟩
          rcases List.mem_cons.1 hc with rfl | hc
          · exact OrientedCmp.not_isLE_of_lt hac (hx a (List.mem_cons_of_mem _ ha))
          · exact hbetween c hc ⟨hac, hcb⟩
      · rintro ⟨ha, hb, hlt, hbetween⟩
        -- `b` is not the first element, for then `a` would not be below it
        have hb' : b ∈ y :: ys := by
          rcases List.mem_cons.1 hb with rfl | hb
          · exact absurd (hx a ha) (OrientedCmp.not_isLE_of_lt hlt)
          · exact hb
        by_cases ha' : a ∈ y :: ys
        · exact Or.inr ⟨ha', hb', hlt, fun c hc => hbetween c (List.mem_cons_of_mem x hc)⟩
        · obtain rfl : a = x := (List.mem_cons.1 ha).resolve_right ha'
          have hay : cmp a y = .lt := by
            refine lt_of_isLE_of_ne (hx y (by simp)) ?_
            rintro rfl
            exact ha' List.mem_cons_self
          have hyb : y = b := by
            by_contra hyb
            exact hbetween y (by simp) ⟨hay, lt_of_isLE_of_ne (hy b hb') hyb⟩
          exact Or.inl (by rw [hyb])

variable [BEq α] [LawfulBEq α]

/-- Two different elements are neighbors in a sorted list but once. -/
theorem count_neighbors_le_one (hne : a ≠ b) : (neighbors xs).count (a, b) ≤ 1 := by
  induction xs with
  | nil => exact Nat.zero_le _
  | cons x xs ih =>
    cases xs with
    | nil => exact Nat.zero_le _
    | cons y ys =>
      have htail := (List.pairwise_cons.1 hs).2
      rw [neighbors_cons_cons]
      by_cases hxy : (x, y) = (a, b)
      · obtain ⟨rfl, rfl⟩ := Prod.mk.inj hxy
        have hlt := lt_of_isLE_of_ne (isLE_of_mem_cons hs (b := y) (by simp)) hne
        have hnot : (x, y) ∉ neighbors (y :: ys) := by
          intro hmem
          exact OrientedCmp.not_isLE_of_lt hlt (isLE_of_mem_cons htail (mem_of_mem_neighbors hmem).1)
        have hnone := List.count_eq_zero.2 hnot
        rw [List.count_cons_self]
        omega
      · rw [List.count_cons_of_ne hxy]
        exact ih htail

/-- Equal elements stand next to each other in a sorted list. -/
theorem count_neighbors_self : (neighbors xs).count (a, a) = xs.count a - 1 := by
  induction xs with
  | nil => rfl
  | cons x xs ih =>
    cases xs with
    | nil => cases hx : x == a <;> simp [neighbors, List.count_cons, hx]
    | cons y ys =>
      have htail := (List.pairwise_cons.1 hs).2
      rw [neighbors_cons_cons]
      by_cases hx : x = a
      · subst hx
        by_cases hy : y = x
        · subst hy
          have hone : (y :: ys).count y = ys.count y + 1 := List.count_cons_self
          have htwo : (y :: y :: ys).count y = (y :: ys).count y + 1 := List.count_cons_self
          rw [List.count_cons_self, ih htail]
          omega
        · have hlt := lt_of_isLE_of_ne (isLE_of_mem_cons hs (b := y) (by simp))
            (Ne.symm hy)
          have hnone : (y :: ys).count x = 0 := List.count_eq_zero.2 fun hmem =>
            OrientedCmp.not_isLE_of_lt hlt (isLE_of_mem_cons htail hmem)
          rw [List.count_cons_of_ne (by simpa using fun he => hy he), ih htail,
            List.count_cons_self, hnone]
      · rw [List.count_cons_of_ne (by simp [hx]), ih htail, List.count_cons_of_ne hx]

end Sorted

/-- **Neighbors stay neighbors when a list is sorted** exactly if they are equal, or in increasing
order with nothing between them and the only ones of their kind among those that are asked for. -/
theorem subperm_neighbors_iff {α : Type} {cmp : α → α → Ordering} [BEq α] [LawfulBEq α]
    [TransCmp cmp] [LawfulEqCmp cmp] {xs ys : List α} (hp : ys.Perm xs)
    (hs : ys.Pairwise fun a b => (cmp a b).isLE = true) {pairs : List (α × α)}
    (hsub : pairs.Sublist (neighbors xs)) :
    pairs.Subperm (neighbors ys) ↔ ∀ p ∈ pairs, p.1 ≠ p.2 → cmp p.1 p.2 = .lt ∧
      (∀ c ∈ xs, ¬(cmp p.1 c = .lt ∧ cmp c p.2 = .lt)) ∧ pairs.count p = 1 := by
  rw [List.subperm_ext_iff]
  refine forall₂_congr fun p hmem => ?_
  obtain ⟨a, b⟩ := p
  have hpos : 0 < pairs.count (a, b) := List.count_pos_iff.2 hmem
  by_cases hab : a = b
  · subst hab
    have hle : pairs.count (a, a) ≤ xs.count a - 1 :=
      Nat.le_trans (hsub.count_le (a, a)) (count_neighbors_self_le a xs)
    rw [count_neighbors_self hs, hp.count_eq]
    simpa using hle
  · have hone := count_neighbors_le_one hs hab
    constructor
    · intro hle _
      have hkept : (a, b) ∈ neighbors ys := List.count_pos_iff.1 (by omega)
      obtain ⟨-, -, hlt, hbetween⟩ := (mem_neighbors_iff hs hab).1 hkept
      exact ⟨hlt, fun c hc => hbetween c (hp.mem_iff.2 hc), by omega⟩
    · intro hkept
      obtain ⟨hlt, hbetween, hcount⟩ := hkept hab
      obtain ⟨ha, hb⟩ := mem_of_mem_neighbors (hsub.subset hmem)
      have hmem' : (a, b) ∈ neighbors ys := (mem_neighbors_iff hs hab).2
        ⟨hp.mem_iff.2 ha, hp.mem_iff.2 hb, hlt, fun c hc => hbetween c (hp.mem_iff.1 hc)⟩
      have hpos' := List.count_pos_iff.2 hmem'
      omega

end HouseStyle.Text
