import HouseStyle.Declaration.Sort
import HouseStyle.Proofs.Declaration.MapText
import HouseStyle.Proofs.Text.Order

/-!
# Sorted trees

`SortsTo` says what a sort makes of a tree and not how: the members of a scope are sorted first, then
they stand in the one stable order of their keys, and heads, openers, method bodies and the values of
fields stay.  A tree that `SortsTo` another one is the tree a sort takes to it.

* `hasKey`, `keyIn`, `keyFault`: the key of a member, and what is wrong with one that has none.
* `sort_scope_eq`: the sort of a scope, by the sort of its members and the first one without a key.
* `SortsTo`, `sort_eq_ok_iff`: the sorted tree.
* `sort_sort`: a sorted tree is sorted.
* `map_fixedPart_postorder_sort_perm`: what no sort changes, whether it ends or stops.
* `sort_iff_sortsTo`: **a sort meets its specification**, and the sorted tree is sorted.
-/

namespace HouseStyle

open Text

instance : Std.TransCmp compareSortKeys :=
  inferInstanceAs (Std.TransCmp (compareLex (compareOn SortKey.rank)
    (compareLex (Ordering.byKey SortKey.name compareKeys)
      (Ordering.byKey SortKey.signature compareTexts))))

/-- Members with their keys, in the order of the keys. -/
def inKeyOrder (pairs : List (SortKey × Declaration)) : List (SortKey × Declaration) :=
  pairs.mergeSort fun a b => (compareSortKeys a.1 b.1).isLE

namespace Declaration

variable {options : SortOptions} {order : CategoryOrder}

/-! ## Keys of members -/

/-- Whether the order ranks the category of a member and its signature shows a name. -/
def hasKey (order : CategoryOrder) (d : Declaration) : Bool :=
  order.categories.contains d.category && d.name?.isSome

/-- The key of a member that has one: the place of its category, its name and its signature. -/
def keyIn (order : CategoryOrder) (d : Declaration) : SortKey :=
  ⟨order.categories.idxOf d.category, naturalKey (d.name?.getD ""), d.signature⟩

/-- What is wrong with a member that has no key. -/
def keyFault (order : CategoryOrder) (d : Declaration) : SortError :=
  if order.categories.contains d.category then .unnamed ⟨d.kind, d.signature⟩
  else .unranked d.category

/-- Members by the place of their category, then by name in natural order, then by signature. -/
def compareMembers (order : CategoryOrder) (a b : Declaration) : Ordering :=
  compareSortKeys (a.keyIn order) (b.keyIn order)

instance (order : CategoryOrder) : Std.TransCmp (compareMembers order) :=
  inferInstanceAs (Std.TransCmp (Ordering.byKey (keyIn order) compareSortKeys))

theorem rank?_eq (c : Category) : order.rank? c =
    if order.categories.contains c then some (order.categories.idxOf c) else none := by
  rw [CategoryOrder.rank?]
  split
  · next hc =>
    rw [List.findIdx?_eq_some_iff_findIdx_eq]
    exact ⟨List.idxOf_lt_length_of_mem (List.contains_iff_mem.1 hc), rfl⟩
  · next hc =>
    rw [List.findIdx?_eq_none_iff]
    intro c' hc'
    rw [beq_eq_false_iff_ne]
    rintro rfl
    exact hc (List.contains_iff_mem.2 hc')

theorem sortKey_eq (d : Declaration) : d.sortKey order =
    if d.hasKey order then .ok (d.keyIn order) else .error (d.keyFault order) := by
  rw [sortKey, hasKey, rank?_eq, keyFault, name]
  cases hc : order.categories.contains d.category with
  | false => rfl
  | true =>
    cases hn : d.name? with
    | none => rfl
    | some name =>
      rw [keyIn, hn]
      rfl

theorem keyed_eq (members : List Declaration) : keyed order members =
    match members.find? (! hasKey order ·) with
    | none => .ok (members.map fun m => (m.keyIn order, m))
    | some m => .error (m.keyFault order) := by
  induction members with
  | nil => rfl
  | cons m ms ih =>
    rw [keyed, sortKey_eq]
    cases hm : m.hasKey order with
    | false =>
      rw [List.find?_cons_of_pos (by simp [hm])]
      rfl
    | true =>
      rw [List.find?_cons_of_neg (by simp [hm]), ih]
      cases ms.find? (! hasKey order ·) <;> rfl

theorem map_snd_inKeyOrder (order : CategoryOrder) (members : List Declaration) :
    (inKeyOrder (members.map fun m => (m.keyIn order, m))).map Prod.snd =
      members.mergeSort fun a b => (compareMembers order a b).isLE := by
  rw [inKeyOrder, List.map_mergeSort (f := Prod.snd) (s := fun a b => (compareMembers order a b).isLE)]
  · rw [List.map_map, show Prod.snd ∘ (fun m : Declaration => (m.keyIn order, m)) = id from rfl,
      List.map_id]
  · intro a ha b hb
    obtain ⟨m, -, rfl⟩ := List.mem_map.1 ha
    obtain ⟨n, -, rfl⟩ := List.mem_map.1 hb
    rfl

/-- Members that all have keys are put in the order of their keys. -/
theorem sortScope_eq (members : List Declaration) : sortScope order members =
    match members.find? (! hasKey order ·) with
    | none => (members.mergeSort fun a b => (compareMembers order a b).isLE, none)
    | some m => (members, some (m.keyFault order)) := by
  rw [sortScope, keyed_eq]
  cases members.find? (! hasKey order ·) with
  | some m => rfl
  | none => exact Prod.ext (map_snd_inKeyOrder order members) rfl

/-- The sort of a scope: its members first, then their order, unless one of them has no key. -/
theorem sort_scope_eq (opener : Option String) (head : Head) (members : List Declaration) :
    (scope opener head members).sort options =
      match sortEach options members with
      | (sorted, some e) => (scope opener head sorted, some e)
      | (sorted, none) =>
        match sorted.find? (! hasKey options.order ·) with
        | none => (scope opener head
            (sorted.mergeSort fun a b => (compareMembers options.order a b).isLE), none)
        | some m => (scope opener head sorted, some (m.keyFault options.order)) := by
  rw [sort]
  obtain ⟨sorted, error⟩ := sortEach options members
  cases error with
  | some e => rfl
  | none =>
    dsimp only
    rw [sortScope_eq]
    cases sorted.find? (! hasKey options.order ·) <;> rfl

/-! ## The sorted tree -/

/-- Whether a sort makes the second declaration of the first one. -/
inductive SortsTo (options : SortOptions) : Declaration → Declaration → Prop
  | enum {head : Head} {lines lines' : List String} (ho : options.enumConstants = true)
      (hl : IsStableSort compareTexts lines lines') :
      SortsTo options (.leaf .enum head lines) (.leaf .enum head lines')
  | leaf {kind : LeafKind} {head : Head} {lines : List String}
      (ho : kind = .enum → options.enumConstants = false) :
      SortsTo options (.leaf kind head lines) (.leaf kind head lines)
  | scope {opener : Option String} {head : Head} {members sorted members' : List Declaration}
      (hm : List.Forall₂ (SortsTo options) members sorted)
      (hk : ∀ m ∈ members, m.hasKey options.order = true)
      (hs : IsStableSort (compareMembers options.order) sorted members') :
      SortsTo options (.scope opener head members) (.scope opener head members')

namespace SortsTo

variable {d d' : Declaration}

theorem head (h : SortsTo options d d') : d'.head = d.head := by
  cases h <;> rfl

theorem kind (h : SortsTo options d d') : d'.kind = d.kind := by
  cases h with
  | @scope opener => cases opener <;> rfl
  | _ => rfl

theorem category (h : SortsTo options d d') : d'.category = d.category := by
  cases h with
  | @scope opener => cases opener <;> rfl
  | _ => rfl

theorem signature (h : SortsTo options d d') : d'.signature = d.signature :=
  congrArg Head.signature h.head

theorem hasKey (h : SortsTo options d d') : d'.hasKey order = d.hasKey order := by
  rw [Declaration.hasKey, name?, h.category, h.kind, h.signature]
  rfl

theorem keyFault (h : SortsTo options d d') : d'.keyFault order = d.keyFault order := by
  rw [Declaration.keyFault, h.category, h.kind, h.signature]
  rfl

end SortsTo

/-- The first member without a key is at fault before and after the members are sorted. -/
theorem map_keyFault_find? (order : CategoryOrder) {members sorted : List Declaration}
    (h : List.Forall₂ (SortsTo options) members sorted) :
    (sorted.find? (! hasKey order ·)).map (keyFault order) =
      (members.find? (! hasKey order ·)).map (keyFault order) := by
  induction h with
  | nil => rfl
  | @cons m m' _ _ hm _ ih =>
    cases hk : m.hasKey order with
    | true =>
      have hk' : m'.hasKey order = true := hm.hasKey.trans hk
      rw [List.find?_cons_of_neg (by simp [hk']), List.find?_cons_of_neg (by simp [hk]), ih]
    | false =>
      have hk' : m'.hasKey order = false := hm.hasKey.trans hk
      rw [List.find?_cons_of_pos (by simp [hk']), List.find?_cons_of_pos (by simp [hk]),
        Option.map_some, Option.map_some, hm.keyFault]

theorem find?_hasKey_eq_none_iff {members : List Declaration} :
    members.find? (! hasKey order ·) = none ↔ ∀ m ∈ members, m.hasKey order = true := by
  simp

theorem sortEach_eq_ok_iff {ds ds' : List Declaration} : sortEach options ds = (ds', none) ↔
    List.Forall₂ (fun d d' => d.sort options = (d', none)) ds ds' := by
  induction ds generalizing ds' with
  | nil =>
    rw [sortEach, List.forall₂_nil_left_iff, Prod.mk.injEq]
    exact ⟨fun h => h.1.symm, fun h => ⟨h.symm, rfl⟩⟩
  | cons d ds ih =>
    rw [sortEach]
    constructor
    · intro h
      split at h
      · cases (Prod.mk.inj h).2
      · next d₁ hd =>
        obtain ⟨rfl, hnone⟩ := Prod.mk.inj h
        exact .cons hd (ih.1 (Prod.ext rfl hnone))
    · intro h
      cases h with
      | cons hd hds => rw [hd]; simp only [ih.2 hds]

theorem sort_leaf_iff {kind : LeafKind} {head : Head} {lines : List String} {d' : Declaration} :
    (leaf kind head lines).sort options = (d', none) ↔ SortsTo options (leaf kind head lines) d' := by
  rw [sort, Prod.mk.injEq, and_iff_left rfl]
  constructor
  · rintro rfl
    cases kind with
    | enum =>
      rw [sortLines]
      split
      · next ho => exact .enum ho (isStableSort_mergeSort compareTexts lines)
      · next ho => exact .leaf fun _ => Bool.eq_false_iff.2 ho
    | field | method => exact .leaf (by simp)
  · intro h
    cases h with
    | enum ho hl => rw [sortLines, if_pos ho, isStableSort_iff.1 hl, sortTexts]
    | leaf ho =>
      cases kind with
      | enum => rw [sortLines, ho rfl, if_neg Bool.false_ne_true]
      | field | method => rfl

/-- **The tree that a sort makes if it ends without an error.** -/
theorem sort_eq_ok_iff {d d' : Declaration} :
    d.sort options = (d', none) ↔ SortsTo options d d' := by
  induction d using ind generalizing d' with
  | leaf kind head lines => exact sort_leaf_iff
  | scope opener head members ih =>
    have heach : ∀ {sorted}, sortEach options members = (sorted, none) ↔
        List.Forall₂ (SortsTo options) members sorted := fun {sorted} =>
      sortEach_eq_ok_iff.trans (forall₂_congr_of_mem fun m hm m' => ih m hm)
    rw [sort_scope_eq]
    constructor
    · intro h
      split at h
      · cases (Prod.mk.inj h).2
      next sorted hsorted =>
      split at h
      · next hfind =>
        rw [← (Prod.mk.inj h).1]
        refine .scope (heach.1 hsorted) ?_ (isStableSort_mergeSort (compareMembers _) _)
        have hkeys := map_keyFault_find? options.order (heach.1 hsorted)
        rw [hfind, Option.map_none, eq_comm, Option.map_eq_none_iff] at hkeys
        exact find?_hasKey_eq_none_iff.1 hkeys
      · cases (Prod.mk.inj h).2
    · intro h
      cases h with
      | @scope _ _ _ sorted members' hm hk hs =>
        have hfind : sorted.find? (! hasKey options.order ·) = none := by
          have hkeys := map_keyFault_find? options.order hm
          rw [find?_hasKey_eq_none_iff.2 hk, Option.map_none, Option.map_eq_none_iff] at hkeys
          exact hkeys
        rw [heach.2 hm]
        simp only [hfind]
        rw [isStableSort_iff.1 hs]

theorem SortsTo.self {d d' : Declaration} (h : SortsTo options d d') : SortsTo options d' d' := by
  induction d using ind generalizing d' with
  | leaf kind head lines =>
    cases h with
    | enum ho hl => exact .enum ho hl.self
    | leaf ho => exact .leaf ho
  | scope opener head members ih =>
    cases h with
    | @scope _ _ _ sorted members' hm hk hs =>
      refine .scope (List.forall₂_same.2 fun m' hm' => ?_) (fun m' hm' => ?_) hs.self
      · obtain ⟨m, hmem, hsort⟩ := exists_of_mem_of_forall₂ hm (hs.perm.mem_iff.1 hm')
        exact ih m hmem hsort
      · obtain ⟨m, hmem, hsort⟩ := exists_of_mem_of_forall₂ hm (hs.perm.mem_iff.1 hm')
        rw [hsort.hasKey]
        exact hk m hmem

/-- **A sorted tree is sorted.** -/
theorem sort_sort {d d' : Declaration} (h : d.sort options = (d', none)) :
    d'.sort options = (d', none) :=
  sort_eq_ok_iff.2 (sort_eq_ok_iff.1 h).self

/-! ## What no sort changes -/

/-- A declaration without what a sort may move: the members of a scope, the constants of an enum. -/
def fixedPart : Declaration → Declaration
  | .leaf .enum head _ => .leaf .enum head []
  | .leaf kind head lines => .leaf kind head lines
  | .scope opener head _ => .scope opener head []

/-- A scope holds its members after the sort of each, perhaps in another order. -/
theorem exists_sort_scope (options : SortOptions) (opener : Option String) (head : Head)
    (members : List Declaration) :
    ∃ members', ((scope opener head members).sort options).1 = scope opener head members' ∧
      members'.Perm (sortEach options members).1 := by
  rw [sort_scope_eq]
  split
  · next sorted e hsorted => exact ⟨sorted, rfl, by rw [hsorted]⟩
  · next sorted hsorted =>
    rw [hsorted]
    split
    · exact ⟨_, rfl, List.mergeSort_perm _ _⟩
    · exact ⟨sorted, rfl, .refl _⟩

theorem flatMap_sortEach_perm {β : Type} {g : Declaration → List β} {members : List Declaration}
    (h : ∀ m ∈ members, (g (m.sort options).1).Perm (g m)) :
    ((sortEach options members).1.flatMap g).Perm (members.flatMap g) := by
  induction members with
  | nil => exact .refl _
  | cons m ms ih =>
    obtain ⟨hm, hms⟩ := List.forall_mem_cons.1 h
    rw [sortEach]
    split
    · next m' e hsort =>
      rw [hsort] at hm
      exact hm.append (.refl _)
    · next m' hsort =>
      rw [hsort] at hm
      exact hm.append (ih hms)

/-- **No declaration is lost, doubled or changed but in the order of its members or constants.** -/
theorem map_fixedPart_postorder_sort_perm (options : SortOptions) (d : Declaration) :
    ((d.sort options).1.postorder.map fixedPart).Perm (d.postorder.map fixedPart) := by
  induction d using ind with
  | leaf kind head lines => cases kind <;> exact .refl _
  | scope opener head members ih =>
    obtain ⟨members', hsort, hperm⟩ := exists_sort_scope options opener head members
    rw [hsort, postorder, postorder, postorderAll_eq_flatMap, postorderAll_eq_flatMap,
      List.map_append, List.map_append, List.map_flatMap, List.map_flatMap]
    exact ((hperm.flatMap_right _).trans (flatMap_sortEach_perm ih)).append_right _

/-! ## The specification -/

/-- **A sort that ends without an error makes the tree whose scopes hold their sorted members in the
stable order of their keys.**  That tree holds the same declarations, and a second sort leaves it as it
is. -/
theorem sort_iff_sortsTo (options : SortOptions) (d d' : Declaration) :
    (d.sort options = (d', none) ↔ SortsTo options d d') ∧
      (SortsTo options d d' →
        (d'.postorder.map fixedPart).Perm (d.postorder.map fixedPart) ∧
          d'.sort options = (d', none)) := by
  refine ⟨sort_eq_ok_iff, fun h => ?_⟩
  have hsort := sort_eq_ok_iff.2 h
  have hperm := map_fixedPart_postorder_sort_perm options d
  rw [hsort] at hperm
  exact ⟨hperm, sort_sort hsort⟩

/-- A field and a class change places, and so do the fields of the class. -/
theorem sort_iff_sortsTo_nested :
    (scope none ⟨[], "class A \x7b"⟩ [leaf .field ⟨["  // last"], "  int b;"⟩ [],
        scope none ⟨[], "  class C \x7b"⟩
          [leaf .field ⟨[], "    int x10;"⟩ [], leaf .field ⟨[], "    int x9;"⟩ []]]).sort {} =
      (scope none ⟨[], "class A \x7b"⟩ [scope none ⟨[], "  class C \x7b"⟩
          [leaf .field ⟨[], "    int x9;"⟩ [], leaf .field ⟨[], "    int x10;"⟩ []],
        leaf .field ⟨["  // last"], "  int b;"⟩ []], none) ∧
    (scope none ⟨[], "class A \x7b"⟩ [scope none ⟨[], "  class C \x7b"⟩
          [leaf .field ⟨[], "    int x9;"⟩ [], leaf .field ⟨[], "    int x10;"⟩ []],
        leaf .field ⟨["  // last"], "  int b;"⟩ []]).sort {} =
      (scope none ⟨[], "class A \x7b"⟩ [scope none ⟨[], "  class C \x7b"⟩
          [leaf .field ⟨[], "    int x9;"⟩ [], leaf .field ⟨[], "    int x10;"⟩ []],
        leaf .field ⟨["  // last"], "  int b;"⟩ []], none) := by
  have hleaf : ∀ head : Head, SortsTo {} (leaf .field head []) (leaf .field head []) :=
    fun _ => .leaf nofun
  have hinner : IsStableSort (compareMembers .default)
      [leaf .field ⟨[], "    int x10;"⟩ [], leaf .field ⟨[], "    int x9;"⟩ []]
      [leaf .field ⟨[], "    int x9;"⟩ [], leaf .field ⟨[], "    int x10;"⟩ []] :=
    isStableSort_of_perm (.swap _ _ _) (by decide +kernel)
  have hclass := @SortsTo.scope {} none ⟨[], "  class C \x7b"⟩ _ _ _
    (.cons (hleaf _) (.cons (hleaf _) .nil)) (by decide +kernel) hinner
  have hroot := @SortsTo.scope {} none ⟨[], "class A \x7b"⟩ _ _ _
    (.cons (hleaf ⟨["  // last"], "  int b;"⟩) (.cons hclass .nil)) (by decide +kernel)
    (isStableSort_of_perm (.swap _ _ _) (by decide +kernel))
  exact ⟨(sort_iff_sortsTo _ _ _).1.2 hroot, ((sort_iff_sortsTo _ _ _).2 hroot).2⟩

end Declaration

end HouseStyle
