import HouseStyle.Text.NaturalKey
import Mathlib.Data.List.Forall2
import Mathlib.Data.List.Pairwise
import Mathlib.Order.Defs.LinearOrder

/-!
# Sorting by comparisons

A comparison whose laws are those of a total order determines the stable sort of a list.  The
comparisons of texts, of lists of lines and of natural keys are such, and call no two elements equal.

* `mergeSort_mergeSort`: sorting a sorted list changes nothing.
* `mergeSort_eq_of_perm`: a strictly increasing rearrangement is the sorted list.
* `IsStableSort`, `isStableSort_iff`: the stable sort of a list, and that `mergeSort` is that one.
* `isLE_compareLex_append`: a list comes no later than one that goes on where it ends.
* `sortTexts_perm`, `sortGroups_perm`, `sortGroups_pairwise`: sorted texts and groups.
* `forall₂_congr_of_mem`, `forall₂_iff_eq_map`: lists related element by element.
-/

namespace HouseStyle.Text

open Std

/-- Whether one list is another one in increasing order, the elements that compare equal in the order
they had. -/
structure IsStableSort {α : Type} (cmp : α → α → Ordering) (xs ys : List α) : Prop where
  perm : ys.Perm xs
  ordered : ys.Pairwise fun a b => (cmp a b).isLE = true
  stable (a : α) : ys.filter (cmp a · == .eq) = xs.filter (cmp a · == .eq)

theorem IsStableSort.self {α : Type} {cmp : α → α → Ordering} {xs ys : List α}
    (h : IsStableSort cmp xs ys) : IsStableSort cmp ys ys :=
  ⟨.refl ys, h.ordered, fun _ => rfl⟩

section Lawful

variable {α : Type} {cmp : α → α → Ordering} {a b : α} {xs ys : List α}

theorem lt_of_isLE_of_ne [LawfulEqCmp cmp] (hle : (cmp a b).isLE = true) (hne : a ≠ b) :
    cmp a b = .lt := by
  cases hc : cmp a b with
  | lt => rfl
  | eq => exact absurd (LawfulEqCmp.eq_of_compare hc) hne
  | gt =>
    rw [hc] at hle
    cases hle

theorem isLE_total [OrientedCmp cmp] (a b : α) : ((cmp a b).isLE || (cmp b a).isLE) = true := by
  rw [@OrientedCmp.eq_swap _ cmp _ b a]
  cases cmp a b <;> rfl

variable [TransCmp cmp]

theorem isLE_of_mem_cons {as : List α} (hp : (a :: as).Pairwise fun a b => (cmp a b).isLE = true)
    (hb : b ∈ a :: as) : (cmp a b).isLE = true := by
  rcases List.mem_cons.1 hb with rfl | hb
  · exact ReflCmp.isLE_rfl
  · exact List.rel_of_pairwise_cons hp hb

variable (cmp) in
theorem pairwise_mergeSort (xs : List α) :
    (xs.mergeSort fun a b => (cmp a b).isLE).Pairwise fun a b => (cmp a b).isLE = true :=
  List.pairwise_mergeSort (fun _ _ _ => TransCmp.isLE_trans) isLE_total xs

variable (cmp) in
/-- Sorting a sorted list changes nothing. -/
theorem mergeSort_mergeSort (xs : List α) :
    (xs.mergeSort fun a b => (cmp a b).isLE).mergeSort (fun a b => (cmp a b).isLE) =
      xs.mergeSort fun a b => (cmp a b).isLE :=
  List.mergeSort_of_pairwise (pairwise_mergeSort cmp xs)

/-- A strictly increasing rearrangement of a list is the sorted list. -/
theorem mergeSort_eq_of_perm (hp : ys.Perm xs) (hlt : ys.Pairwise fun a b => cmp a b = .lt) :
    xs.mergeSort (fun a b => (cmp a b).isLE) = ys := by
  have hperm : (xs.mergeSort fun a b => (cmp a b).isLE).Perm ys :=
    (List.mergeSort_perm _ _).trans hp.symm
  have hle : ys.Pairwise fun a b => (cmp a b).isLE = true := hlt.imp fun hab => by rw [hab]; rfl
  refine hperm.eq_of_pairwise ?_ (pairwise_mergeSort cmp xs) hle
  intro a b ha hb hab hba
  -- two members of a strictly increasing list that compare equal are one
  by_contra hne
  have hdistinct : ys.Pairwise fun a b => cmp a b ≠ .eq ∧ cmp b a ≠ .eq := hlt.imp fun hxy => by
    rw [hxy, OrientedCmp.gt_of_lt hxy]
    exact ⟨nofun, nofun⟩
  have hsymm : Std.Symm fun a b => cmp a b ≠ .eq ∧ cmp b a ≠ .eq := ⟨fun _ _ hxy => hxy.symm⟩
  exact (hdistinct.forall (hperm.mem_iff.1 ha) hb hne).1 (OrientedCmp.isLE_antisymm hab hba)

/-! ### Stable sorts -/

theorem mem_of_filter_eq (hxy : ∀ a, xs.filter (cmp a · == .eq) = ys.filter (cmp a · == .eq))
    (ha : a ∈ xs) : a ∈ ys := by
  have hself : a ∈ xs.filter (cmp a · == .eq) :=
    List.mem_filter.2 ⟨ha, beq_iff_eq.2 ReflCmp.compare_self⟩
  rw [hxy] at hself
  exact (List.mem_filter.1 hself).1

/-- Two lists in increasing order are one if they agree on the elements that compare equal to any
given one. -/
theorem eq_of_filter_eq (hx : xs.Pairwise fun a b => (cmp a b).isLE = true)
    (hy : ys.Pairwise fun a b => (cmp a b).isLE = true)
    (hxy : ∀ a, xs.filter (cmp a · == .eq) = ys.filter (cmp a · == .eq)) : xs = ys := by
  induction xs generalizing ys with
  | nil =>
    refine (List.eq_nil_iff_forall_not_mem.2 fun a ha => ?_).symm
    exact absurd (mem_of_filter_eq (fun a => (hxy a).symm) ha) List.not_mem_nil
  | cons x xs ih =>
    cases ys with
    | nil => exact absurd (mem_of_filter_eq hxy List.mem_cons_self) List.not_mem_nil
    | cons y ys =>
      have heq : cmp x y = .eq := OrientedCmp.isLE_antisymm
        (isLE_of_mem_cons hx (mem_of_filter_eq (fun a => (hxy a).symm) List.mem_cons_self))
        (isLE_of_mem_cons hy (mem_of_filter_eq hxy List.mem_cons_self))
      -- so both heads come first among the elements that compare equal to `x`
      have hhead := hxy x
      rw [List.filter_cons_of_pos (by rw [@ReflCmp.compare_self _ cmp]; rfl),
        List.filter_cons_of_pos (by rw [heq]; rfl)] at hhead
      obtain ⟨rfl, -⟩ := List.cons.inj hhead
      have htail : ∀ a, xs.filter (cmp a · == .eq) = ys.filter (cmp a · == .eq) := by
        intro a
        have ha := hxy a
        rw [List.filter_cons, List.filter_cons] at ha
        split at ha
        · exact (List.cons.inj ha).2
        · exact ha
      rw [ih (List.pairwise_cons.1 hx).2 (List.pairwise_cons.1 hy).2 htail]

variable (cmp) in
theorem isStableSort_mergeSort (xs : List α) :
    IsStableSort cmp xs (xs.mergeSort fun a b => (cmp a b).isLE) := by
  have htrans : ∀ a b c, (cmp a b).isLE = true → (cmp b c).isLE = true → (cmp a c).isLE = true :=
    fun _ _ _ => TransCmp.isLE_trans
  have hperm := List.mergeSort_perm xs fun a b => (cmp a b).isLE
  refine ⟨hperm, pairwise_mergeSort cmp xs, fun a => ?_⟩
  -- elements that compare equal stand in increasing order as they are
  have hclass : (xs.filter (cmp a · == .eq)).Pairwise fun b c => (cmp b c).isLE = true := by
    refine List.pairwise_of_forall_mem_list fun b hb c hc => ?_
    have hab : cmp a b = .eq := eq_of_beq (List.mem_filter.1 hb).2
    have hac : cmp a c = .eq := eq_of_beq (List.mem_filter.1 hc).2
    rw [← TransCmp.congr_left hab, hac]
    rfl
  have hsub := (List.sublist_mergeSort htrans isLE_total hclass List.filter_sublist).filter
    (cmp a · == .eq)
  rw [List.filter_filter] at hsub
  simp only [Bool.and_self] at hsub
  exact (hsub.eq_of_length (hperm.filter _).length_eq.symm).symm

theorem isStableSort_iff :
    IsStableSort cmp xs ys ↔ ys = xs.mergeSort fun a b => (cmp a b).isLE := by
  constructor
  · intro hs
    have hm := isStableSort_mergeSort cmp xs
    exact eq_of_filter_eq hs.ordered hm.ordered fun a => (hs.stable a).trans (hm.stable a).symm
  · rintro rfl
    exact isStableSort_mergeSort cmp xs

theorem isStableSort_of_perm (hp : ys.Perm xs) (hlt : ys.Pairwise fun a b => cmp a b = .lt) :
    IsStableSort cmp xs ys :=
  isStableSort_iff.2 (mergeSort_eq_of_perm hp hlt).symm

end Lawful

/-! ## Texts -/

instance : TransCmp compareTexts :=
  inferInstanceAs (TransCmp (Ordering.byKey String.toList (List.compareLex compare)))

instance : LawfulEqCmp compareTexts where
  compare_self := ReflCmp.compare_self
  eq_of_compare h := String.toList_injective (LawfulEqCmp.eq_of_compare h)

instance : TransCmp compareLines := inferInstanceAs (TransCmp (List.compareLex compareTexts))

/-- What comes no later than a list comes no later than a longer one. -/
theorem isLE_compareLex_append {α : Type} {cmp : α → α → Ordering} {xs ys : List α}
    (h : (xs.compareLex cmp ys).isLE = true) (zs : List α) :
    (xs.compareLex cmp (ys ++ zs)).isLE = true := by
  induction xs generalizing ys with
  | nil => cases ys <;> cases zs <;> rfl
  | cons x xs ih =>
    cases ys with
    | nil => cases h
    | cons y ys =>
      rw [List.cons_append, List.compareLex_cons_cons]
      rw [List.compareLex_cons_cons] at h
      cases hxy : cmp x y with
      | lt => rfl
      | eq =>
        rw [hxy] at h
        exact ih h
      | gt =>
        rw [hxy] at h
        cases h

/-! ## Sorted texts -/

theorem sortTexts_perm (texts : List String) : (sortTexts texts).Perm texts :=
  List.mergeSort_perm _ _

theorem sortGroups_perm (groups : List (List String)) : (sortGroups groups).Perm groups :=
  List.mergeSort_perm _ _

theorem sortGroups_pairwise (groups : List (List String)) :
    (sortGroups groups).Pairwise fun a b => (compareLines a b).isLE = true :=
  pairwise_mergeSort compareLines groups

/-! ## Natural keys -/

instance : TransCmp compareDigits :=
  inferInstanceAs (TransCmp (compareLex (compareOn List.length) (List.compareLex compare)))

instance : TransCmp compareParts where
  eq_swap {a b} := by
    cases a with
    | text a =>
      cases b with
      | text b => exact @OrientedCmp.eq_swap _ (List.compareLex compare) _ a b
      | number b => rfl
    | number a =>
      cases b with
      | text b => rfl
      | number b => exact @OrientedCmp.eq_swap _ compareDigits _ a b
  isLE_trans {a b c} hab hbc := by
    cases a with
    | text a =>
      cases c with
      | number c => rfl
      | text c =>
        cases b with
        | text b => exact @TransCmp.isLE_trans _ (List.compareLex compare) _ _ _ _ hab hbc
        | number b => cases hbc
    | number a =>
      cases b with
      | text b => cases hab
      | number b =>
        cases c with
        | text c => cases hbc
        | number c => exact @TransCmp.isLE_trans _ compareDigits _ _ _ _ hab hbc

instance : LawfulEqCmp compareParts where
  compare_self := ReflCmp.compare_self
  eq_of_compare {a b} h := by
    cases a with
    | text a =>
      cases b with
      | text b => rw [@LawfulEqCmp.eq_of_compare _ (List.compareLex compare) _ a b h]
      | number b => cases h
    | number a =>
      cases b with
      | text b => cases h
      | number b =>
        rw [@LawfulEqCmp.eq_of_compare _ (List.compareLex compare) _ a b (Ordering.then_eq_eq.1 h).2]

instance : TransCmp compareKeys := inferInstanceAs (TransCmp (List.compareLex compareParts))

instance : LawfulEqCmp compareKeys := inferInstanceAs (LawfulEqCmp (List.compareLex compareParts))

/-! ## Lists related element by element -/

theorem forall₂_congr_of_mem {α β : Type} {r s : α → β → Prop} {as : List α} {bs : List β}
    (h : ∀ a ∈ as, ∀ b, r a b ↔ s a b) : List.Forall₂ r as bs ↔ List.Forall₂ s as bs := by
  induction as generalizing bs with
  | nil => rw [List.forall₂_nil_left_iff, List.forall₂_nil_left_iff]
  | cons a as ih =>
    obtain ⟨ha, has⟩ := List.forall_mem_cons.1 h
    cases bs with
    | nil => exact ⟨nofun, nofun⟩
    | cons b bs => rw [List.forall₂_cons, List.forall₂_cons, ha, ih has]

theorem forall₂_iff_eq_map {α β : Type} {r : α → β → Prop} {f : α → β} {as : List α} {bs : List β}
    (h : ∀ a ∈ as, ∀ b, r a b ↔ b = f a) : List.Forall₂ r as bs ↔ bs = as.map f := by
  have hf : List.Forall₂ r as bs ↔ List.Forall₂ (fun a b => f a = b) as bs :=
    forall₂_congr_of_mem fun a ha b => (h a ha b).trans eq_comm
  rw [hf, ← List.forall₂_map_left_iff, List.forall₂_eq_eq_eq, eq_comm]

end HouseStyle.Text
