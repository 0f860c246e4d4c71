import HouseStyle.Files.Path
import HouseStyle.Proofs.Text.Order
import Mathlib.Data.List.TakeWhile

/-!
# Paths in order

Paths are equal in their order if they have the same components.  A dot at the beginning of a path is a
component, the others are none, so of one file there are two spellings that are not equal: with a dot at
the beginning and without.

* `compare_eq_eq_iff`: paths that are equal in their order.
* `sortDistinct_pairwise`, `exists_mem_sortDistinct`: sorted paths without repetitions.
* `plain`, `isDotted`, `components_eq`: a path without its dots, and whether it begins with one.
* `isDotted_foldl_join`: an entry begins with a dot if its directory does.
-/

namespace HouseStyle.Path

open Std Text

variable {p q : Path} {paths : List Path}

/-! ## Order -/

/-- The text of a component, if it is a name. -/
def Component.nameText : Component → String
  | .name text => text
  | _ => ""

theorem compareComponents_eq (a b : Component) : compareComponents a b =
    (Ord.compare a.rank b.rank).then (compareTexts a.nameText b.nameText) := by
  cases a <;> cases b <;> rfl

instance : TransCmp compareComponents := by
  have hboth : TransCmp (compareLex (compareOn Component.rank)
      (Ordering.byKey Component.nameText compareTexts)) := inferInstance
  have heq : compareComponents = _ := funext fun a => funext fun b => compareComponents_eq a b
  rw [heq]
  exact hboth

instance : LawfulEqCmp compareComponents where
  compare_self := ReflCmp.compare_self
  eq_of_compare {a b} h := by
    cases a <;> cases b <;>
      first | rfl | cases h | rw [@LawfulEqCmp.eq_of_compare _ compareTexts _ _ _ h]

instance : TransCmp compare :=
  inferInstanceAs (TransCmp (Ordering.byKey components (List.compareLex compareComponents)))

/-- Paths are equal in their order if they have the same components. -/
theorem compare_eq_eq_iff : p.compare q = .eq ↔ p.components = q.components :=
  @LawfulEqCmp.compare_eq_iff_eq _ (List.compareLex compareComponents) _ _ _

/-! ## Sorted paths -/

theorem dropRepeats_sublist (paths : List Path) : (dropRepeats paths).Sublist paths := by
  fun_induction dropRepeats paths with
  | case1 a b paths _ ih => exact ih.trans (List.Sublist.cons_cons a (List.sublist_cons_self b paths))
  | case2 a b paths _ ih => exact ih.cons_cons a
  | case3 => exact List.Sublist.refl _

/-- Paths in order are in strictly increasing order once the repeated ones are gone. -/
theorem dropRepeats_pairwise (h : paths.Pairwise fun a b => (a.compare b).isLE = true) :
    (dropRepeats paths).Pairwise fun a b => a.compare b = .lt := by
  fun_induction dropRepeats paths with
  | case1 a b paths _ ih => exact ih (h.sublist (List.Sublist.cons_cons a (List.sublist_cons_self b paths)))
  | case2 a b paths hne ih =>
    obtain ⟨ha, hb⟩ := List.pairwise_cons.1 h
    have hlt : a.compare b = .lt := by
      have hle := ha b List.mem_cons_self
      cases hab : a.compare b with
      | lt => rfl
      | eq => exact absurd (beq_iff_eq.2 hab) hne
      | gt => rw [hab] at hle; cases hle
    refine List.pairwise_cons.2 ⟨fun c hc => ?_, ih hb⟩
    exact TransCmp.lt_of_lt_of_isLE hlt (isLE_of_mem_cons hb ((dropRepeats_sublist _).subset hc))
  | case3 paths hshort =>
    cases paths with
    | nil => exact .nil
    | cons a paths =>
      cases paths with
      | nil => exact List.pairwise_singleton _ _
      | cons b paths => exact absurd rfl (hshort a b paths)

theorem dropRepeats_of_pairwise (h : paths.Pairwise fun a b => a.compare b = .lt) :
    dropRepeats paths = paths := by
  fun_induction dropRepeats paths with
  | case1 a b paths heq _ =>
    have hlt := (List.pairwise_cons.1 h).1 b List.mem_cons_self
    rw [beq_iff_eq.1 heq] at hlt
    cases hlt
  | case2 a b paths _ ih => rw [ih (List.pairwise_cons.1 h).2]
  | case3 => rfl

theorem exists_mem_dropRepeats (h : p ∈ paths) :
    ∃ q ∈ dropRepeats paths, q.components = p.components := by
  fun_induction dropRepeats paths generalizing p with
  | case1 a b paths heq ih =>
    have hab := compare_eq_eq_iff.1 (beq_iff_eq.1 heq)
    rcases List.mem_cons.1 h with rfl | h
    · exact ih List.mem_cons_self
    · rcases List.mem_cons.1 h with rfl | h
      · obtain ⟨q, hq, hcomponents⟩ := ih List.mem_cons_self
        exact ⟨q, hq, hcomponents.trans hab⟩
      · exact ih (List.mem_cons_of_mem a h)
  | case2 a b paths _ ih =>
    rcases List.mem_cons.1 h with rfl | h
    · exact ⟨p, List.mem_cons_self, rfl⟩
    · obtain ⟨q, hq, hcomponents⟩ := ih h
      exact ⟨q, List.mem_cons_of_mem a hq, hcomponents⟩
  | case3 => exact ⟨p, h, rfl⟩

theorem sortDistinct_pairwise (paths : List Path) :
    (sortDistinct paths).Pairwise fun a b => a.compare b = .lt :=
  dropRepeats_pairwise (pairwise_mergeSort compare paths)

theorem mem_of_mem_sortDistinct (h : p ∈ sortDistinct paths) : p ∈ paths :=
  (List.mergeSort_perm paths _).mem_iff.1 ((dropRepeats_sublist _).subset h)

theorem exists_mem_sortDistinct (h : p ∈ paths) :
    ∃ q ∈ sortDistinct paths, q.components = p.components :=
  exists_mem_dropRepeats ((List.mergeSort_perm paths _).mem_iff.2 h)

/-! ## Dots -/

/-- The components of a path without the dots. -/
def plain (path : Path) : List Component := path.components.filter (· != .current)

/-- Whether a path begins with a dot that is a component. -/
def isDotted (path : Path) : Bool := path.components.head? == some .current

theorem ne_current_of_mem_inner {steps : List (List Char)} :
    ∀ c ∈ steps.filterMap inner?, c ≠ .current := by
  intro c hc
  obtain ⟨piece, -, hpiece⟩ := List.mem_filterMap.1 hc
  unfold inner? at hpiece
  split at hpiece
  · cases hpiece
  · split at hpiece <;> cases hpiece <;> exact Component.noConfusion

theorem head?_inner_ne (steps : List (List Char)) : (steps.filterMap inner?).head? ≠ some .current :=
  fun h => ne_current_of_mem_inner _ (List.mem_of_mem_head? h) rfl

/-- A path is its dot, if it begins with one, and what it is without dots. -/
theorem components_eq (path : Path) :
    path.components = (if path.isDotted then [.current] else []) ++ path.plain := by
  have hhead := head?_inner_ne (pieces '/' path.text.toList)
  have hplain : ((pieces '/' path.text.toList).filterMap inner?).filter (· != .current) =
      (pieces '/' path.text.toList).filterMap inner? :=
    List.filter_eq_self.2 fun c hc => bne_iff_ne.2 (ne_current_of_mem_inner c hc)
  rw [isDotted, plain, components]
  generalize (pieces '/' path.text.toList).filterMap inner? = inner at hhead hplain ⊢
  split
  · simp [hplain]
  · split
    · simp [hplain]
    · simp [hplain, hhead]

theorem components_eq_of_plain (hplain : p.plain = q.plain) (hdotted : p.isDotted = q.isDotted) :
    p.components = q.components := by
  rw [components_eq p, components_eq q, hplain, hdotted]

theorem plain_eq_of_components (h : p.components = q.components) : p.plain = q.plain := by
  rw [plain, plain, h]

theorem isDotted_eq_of_components (h : p.components = q.components) : p.isDotted = q.isDotted := by
  rw [isDotted, isDotted, h]

/-! ## Entries of directories -/

theorem head?_pieces (separator : Char) (text : List Char) :
    (pieces separator text).head? = some (text.takeWhile (· != separator)) := by
  induction text with
  | nil => rfl
  | cons c cs ih =>
    obtain ⟨rest, hrest⟩ := List.head?_eq_some_iff.1 ih
    rw [pieces, hrest]
    by_cases hc : c = separator
    · simp [hc]
    · simp [hc]

theorem isDotted_eq (path : Path) :
    path.isDotted = (path.text.toList.takeWhile (· != '/') == ['.']) := by
  have hinner := head?_inner_ne (pieces '/' path.text.toList)
  rw [isDotted, components, head?_pieces]
  generalize (pieces '/' path.text.toList).filterMap inner? = inner at hinner ⊢
  split
  · next hslash =>
    obtain ⟨rest, hrest⟩ := List.head?_eq_some_iff.1 (beq_iff_eq.1 hslash)
    rw [hrest]
    rfl
  · by_cases hdot : path.text.toList.takeWhile (· != '/') = ['.']
    · simp [hdot]
    · simp [hdot, hinner]

theorem takeWhile_append_of_exists {α : Type} {f : α → Bool} {xs : List α} (h : ∃ x ∈ xs, f x = false)
    (ys : List α) : (xs ++ ys).takeWhile f = xs.takeWhile f := by
  rw [List.takeWhile_append, if_neg]
  intro hlen
  obtain ⟨x, hx, hfx⟩ := h
  have hall := List.takeWhile_eq_self_iff.1 ((List.takeWhile_prefix f).eq_of_length hlen)
  rw [hall x hx] at hfx
  cases hfx

theorem isDotted_join (h : p.text ≠ "") (name : String) : (p.join name).isDotted = p.isDotted := by
  rw [isDotted_eq, isDotted_eq, join]
  congr 1
  split
  · next hslash =>
    -- the directory ends with a slash, so its first piece is complete
    rw [Bool.or_eq_true, beq_iff_eq, beq_iff_eq] at hslash
    have hlast := hslash.resolve_right h
    rw [String.toList_append]
    exact takeWhile_append_of_exists ⟨'/', List.mem_of_getLast? hlast, rfl⟩ _
  · rw [String.toList_append, String.toList_append, List.append_assoc]
    by_cases hslash : ∃ x ∈ p.text.toList, (x != '/') = false
    · exact takeWhile_append_of_exists hslash _
    · have hall : ∀ x ∈ p.text.toList, (x != '/') = true := fun x hx =>
        Bool.of_not_eq_false fun hx' => hslash ⟨x, hx, hx'⟩
      rw [List.takeWhile_append_of_pos hall, List.takeWhile_eq_self_iff.2 hall]
      exact List.append_nil _

theorem text_join_ne (h : p.text ≠ "") (name : String) : (p.join name).text ≠ "" := by
  have hne : p.text.toList ≠ [] := fun hnil => h (String.toList_injective hnil)
  intro hjoin
  have hnil := congrArg String.toList hjoin
  rw [join] at hnil
  split at hnil <;> simp [hne] at hnil

theorem isDotted_foldl_join (h : p.text ≠ "") (names : List String) :
    (names.foldl join p).isDotted = p.isDotted := by
  induction names generalizing p with
  | nil => rfl
  | cons name names ih => rw [List.foldl_cons, ih (text_join_ne h name), isDotted_join h]

end HouseStyle.Path
