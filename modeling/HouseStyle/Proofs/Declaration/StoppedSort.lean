import HouseStyle.Proofs.Declaration.SortedMembers

/-!
# Sorts that stop

A sort stops at the first scope, in the order in which scopes are finished, that owns a member without
a key.  `StopsAt` says what it leaves: the scopes that are open then keep the order of their members,
all that was finished before is sorted, and all that comes after is as it was.

* `ownMembers`, `isSortable`: the members of a declaration, and whether they all have keys.
* `sortEach_eq_error_iff`: the members of a scope up to the one whose sort stops.
* `StopsAt`, `sort_eq_error_iff`: the tree that a stopped sort leaves.
* `StopsAt.find?_postorder`: the scope it stops at is the first one that cannot be sorted.
* `sort_stops_iff`: **when a sort stops, where, with which error, and what it leaves.**
-/

namespace HouseStyle

open Text

namespace Declaration

variable {options : SortOptions} {order : CategoryOrder} {d d' s : Declaration} {e : SortError}

/-- The members that a declaration owns, if it is a scope. -/
def ownMembers (d : Declaration) : List Declaration := d.members?.getD []

/-- Whether all members that a declaration owns have keys. -/
def isSortable (order : CategoryOrder) (d : Declaration) : Bool := d.ownMembers.all (hasKey order)

theorem isSortable_eq_false {m : Declaration}
    (h : d.ownMembers.find? (! hasKey order ·) = some m) : d.isSortable order = false := by
  refine List.all_eq_false.2 ⟨m, List.mem_of_find?_eq_some h, ?_⟩
  simpa using List.find?_some h

theorem isSortable_iff : d.isSortable order = true ↔ ∀ m ∈ d.ownMembers, m.hasKey order = true :=
  List.all_eq_true

/-! ## Where a sort stops -/

/-- A sort of members stops in one of them; those in front of it are sorted, the others untouched. -/
theorem sortEach_eq_error_iff {ds ds' : List Declaration} :
    sortEach options ds = (ds', some e) ↔
      ∃ before before' m m' after, ds = before ++ m :: after ∧ ds' = before' ++ m' :: after ∧
        List.Forall₂ (SortsTo options) before before' ∧ m.sort options = (m', some e) := by
  induction ds generalizing ds' with
  | nil =>
    rw [sortEach]
    constructor
    · intro h
      cases (Prod.mk.inj h).2
    · rintro ⟨before, _, _, _, _, h, -⟩
      cases before <;> cases h
  | cons d ds ih =>
    rw [sortEach]
    constructor
    · intro h
      split at h
      · next d₁ e₁ hd =>
        obtain ⟨rfl, he⟩ := Prod.mk.inj h
        rw [he] at hd
        exact ⟨[], [], d, d₁, ds, rfl, rfl, .nil, hd⟩
      · next d₁ hd =>
        obtain ⟨rfl, he⟩ := Prod.mk.inj h
        obtain ⟨before, before', m, m', after, rfl, hds', hsorted, hm⟩ := ih.1 (Prod.ext rfl he)
        exact ⟨d :: before, d₁ :: before', m, m', after, rfl, congrArg (d₁ :: ·) hds',
          .cons (sort_eq_ok_iff.1 hd) hsorted, hm⟩
    · rintro ⟨before, before', m, m', after, hds, rfl, hsorted, hm⟩
      cases hsorted with
      | nil =>
        obtain ⟨rfl, rfl⟩ := List.cons.inj hds
        rw [hm]
        rfl
      | cons hd hbefore =>
        obtain ⟨rfl, rfl⟩ := List.cons.inj hds
        have hrest := ih.2 ⟨_, _, m, m', after, rfl, rfl, hbefore, hm⟩
        rw [sort_eq_ok_iff.2 hd, hrest]
        rfl

/-- Whether a sort that stops at the scope `s` makes the last declaration of the one before it. -/
inductive StopsAt (options : SortOptions) : Declaration → Declaration → Declaration → Prop
  | here {opener : Option String} {head : Head} {members sorted : List Declaration}
      (hm : List.Forall₂ (SortsTo options) members sorted) :
      StopsAt options (.scope opener head members) (.scope opener head members)
        (.scope opener head sorted)
  | inside {s m m' : Declaration} {opener : Option String} {head : Head}
      {before before' after : List Declaration}
      (hb : List.Forall₂ (SortsTo options) before before') (hm : StopsAt options s m m') :
      StopsAt options s (.scope opener head (before ++ m :: after))
        (.scope opener head (before' ++ m' :: after))

/-- **The tree that a sort leaves if it stops, and the error.** -/
theorem sort_eq_error_iff : d.sort options = (d', some e) ↔
    ∃ s m, StopsAt options s d d' ∧ s.ownMembers.find? (! hasKey options.order ·) = some m ∧
      m.keyFault options.order = e := by
  constructor
  · intro h
    induction d using ind generalizing d' with
    | leaf kind head lines => cases (Prod.mk.inj h).2
    | scope opener head members ih =>
      rw [sort_scope_eq] at h
      split at h
      · next sorted e' heach =>
        obtain ⟨rfl, he⟩ := Prod.mk.inj h
        rw [he] at heach
        obtain ⟨before, before', m, m', after, rfl, rfl, hb, hm⟩ := sortEach_eq_error_iff.1 heach
        obtain ⟨s, bad, hs, hbad⟩ := ih m (by simp) hm
        exact ⟨s, bad, .inside hb hs, hbad⟩
      next sorted heach =>
      split at h
      · cases (Prod.mk.inj h).2
      · next m hfind =>
        obtain ⟨rfl, he⟩ := Prod.mk.inj h
        have hsorted : List.Forall₂ (SortsTo options) members sorted :=
          (sortEach_eq_ok_iff.1 heach).imp fun _ _ => sort_eq_ok_iff.1
        -- the same member is at fault before the members are sorted
        have hfault := map_keyFault_find? options.order hsorted
        rw [hfind, Option.map_some, Option.some.inj he, eq_comm, Option.map_eq_some_iff] at hfault
        obtain ⟨bad, hbad, he⟩ := hfault
        exact ⟨_, bad, .here hsorted, hbad, he⟩
  · rintro ⟨s, bad, hs, hbad, rfl⟩
    induction hs with
    | @here opener head members sorted hm =>
      have heach : sortEach options members = (sorted, none) :=
        sortEach_eq_ok_iff.2 (hm.imp fun _ _ => sort_eq_ok_iff.2)
      have hfault := map_keyFault_find? options.order hm
      rw [show members.find? (! hasKey options.order ·) = some bad from hbad, Option.map_some,
        Option.map_eq_some_iff] at hfault
      obtain ⟨m, hfind, hm⟩ := hfault
      rw [sort_scope_eq, heach, ← hm]
      simp only [hfind]
    | @inside s m m' opener head before before' after hb _ ih =>
      have heach := sortEach_eq_error_iff.2
        ⟨before, before', m, m', after, rfl, rfl, hb, ih hbad⟩
      rw [sort_scope_eq, heach]

/-! ## The first scope that cannot be sorted -/

theorem SortsTo.isSortable (h : SortsTo options d d') :
    ∀ c ∈ d.postorder, c.isSortable options.order = true := by
  induction d using ind generalizing d' with
  | leaf kind head lines =>
    intro c hc
    rw [mem_postorder_leaf.1 hc]
    rfl
  | scope opener head members ih =>
    intro c hc
    cases h with
    | scope hm hk hs =>
      rcases mem_postorder_scope.1 hc with ⟨m, hmem, hc⟩ | rfl
      · obtain ⟨m', -, hm'⟩ := exists_of_mem_of_forall₂ hm.flip hmem
        exact ih m hmem hm' c hc
      · exact isSortable_iff.2 hk

theorem find?_isSortable_eq_none {ds ds' : List Declaration}
    (h : List.Forall₂ (SortsTo options) ds ds') :
    (ds.flatMap postorder).find? (! isSortable options.order ·) = none := by
  rw [List.find?_eq_none]
  intro c hc
  obtain ⟨m, hm, hc⟩ := List.mem_flatMap.1 hc
  obtain ⟨m', -, hm'⟩ := exists_of_mem_of_forall₂ h.flip hm
  simp [SortsTo.isSortable hm' c hc]

/-- The scope that a sort stops at is the first one, members before owners, that cannot be sorted. -/
theorem StopsAt.find?_postorder (h : StopsAt options s d d')
    (hs : s.isSortable options.order = false) :
    d.postorder.find? (! isSortable options.order ·) = some s := by
  induction h with
  | here hm =>
    rw [postorder, postorderAll_eq_flatMap, List.find?_append, find?_isSortable_eq_none hm,
      Option.none_or, List.find?_cons_of_pos (by rw [hs]; rfl)]
  | inside hb _ ih =>
    rw [postorder, postorderAll_eq_flatMap, List.flatMap_append, List.flatMap_cons,
      List.find?_append, List.find?_append, List.find?_append, find?_isSortable_eq_none hb, ih hs]
    rfl

theorem exists_isSortable_eq_false (h : d.sort options = (d', some e)) :
    ∃ c ∈ d.postorder, c.isSortable options.order = false := by
  obtain ⟨s, m, hs, hm, -⟩ := sort_eq_error_iff.1 h
  have hfalse := isSortable_eq_false hm
  exact ⟨s, List.mem_of_find?_eq_some (hs.find?_postorder hfalse), hfalse⟩

theorem sort_snd_eq_none_iff : (d.sort options).2 = none ↔
    ∀ c ∈ d.postorder, c.isSortable options.order = true := by
  cases he : (d.sort options).2 with
  | none =>
    have hsort : d.sort options = ((d.sort options).1, none) := Prod.ext rfl he
    exact ⟨fun _ => (sort_eq_ok_iff.1 hsort).isSortable, fun _ => rfl⟩
  | some e =>
    have hsort : d.sort options = ((d.sort options).1, some e) := Prod.ext rfl he
    obtain ⟨c, hc, hfalse⟩ := exists_isSortable_eq_false hsort
    refine ⟨nofun, fun h => ?_⟩
    rw [h c hc] at hfalse
    cases hfalse

/-! ## The whole account -/

/-- **A sort ends without an error exactly if every member of every scope has a key.**  Otherwise it
stops at the first scope, members before owners, with a member that has none; the error is that of the
first such member.  The scopes around it and itself keep their order, what comes before is sorted, what
comes behind is untouched, and no declaration is lost or doubled. -/
theorem sort_stops_iff (options : SortOptions) (d : Declaration) :
    ((d.sort options).2 = none ↔
      ∀ c ∈ d.postorder, ∀ m ∈ c.ownMembers, m.hasKey options.order = true) ∧
    (∀ d' e, d.sort options = (d', some e) ↔
      ∃ s m, d.postorder.find? (! isSortable options.order ·) = some s ∧
        s.ownMembers.find? (! hasKey options.order ·) = some m ∧ m.keyFault options.order = e ∧
        StopsAt options s d d') ∧
    ((d.sort options).1.postorder.map fixedPart).Perm (d.postorder.map fixedPart) := by
  refine ⟨?_, fun d' e => ?_, map_fixedPart_postorder_sort_perm options d⟩
  · rw [sort_snd_eq_none_iff]
    exact forall₂_congr fun c _ => isSortable_iff
  · rw [sort_eq_error_iff]
    refine exists_congr fun s => exists_congr fun m => ?_
    constructor
    · rintro ⟨hs, hm, he⟩
      exact ⟨hs.find?_postorder (isSortable_eq_false hm), hm, he, hs⟩
    · rintro ⟨-, hm, he, hs⟩
      exact ⟨hs, hm, he⟩

/-- The default order does not rank enums: a sort stops at the class that owns one, with its constants
sorted and so the class in front of it, but not the class behind it. -/
theorem sort_stops_iff_enum :
    (scope none ⟨[], "class A \x7b"⟩
      [scope none ⟨[], "  class Z \x7b"⟩
        [leaf .field ⟨[], "    int y;"⟩ [], leaf .field ⟨[], "    int x;"⟩ []],
      scope none ⟨[], "  class C \x7b"⟩ [leaf .enum ⟨[], "    enum E \x7b"⟩ ["Q,", "P,"]],
      scope none ⟨[], "  class B \x7b"⟩
        [leaf .field ⟨[], "    int y;"⟩ [], leaf .field ⟨[], "    int x;"⟩ []]]).sort {} =
    (scope none ⟨[], "class A \x7b"⟩
      [scope none ⟨[], "  class Z \x7b"⟩
        [leaf .field ⟨[], "    int x;"⟩ [], leaf .field ⟨[], "    int y;"⟩ []],
      scope none ⟨[], "  class C \x7b"⟩ [leaf .enum ⟨[], "    enum E \x7b"⟩ ["P,", "Q,"]],
      scope none ⟨[], "  class B \x7b"⟩
        [leaf .field ⟨[], "    int y;"⟩ [], leaf .field ⟨[], "    int x;"⟩ []]],
      some (.unranked .enum)) := by
  have hleaf : ∀ head : Head, SortsTo {} (leaf .field head []) (leaf .field head []) :=
    fun _ => .leaf nofun
  have hclass := @SortsTo.scope {} none ⟨[], "  class Z \x7b"⟩ _ _ _
    (.cons (hleaf ⟨[], "    int y;"⟩) (.cons (hleaf ⟨[], "    int x;"⟩) .nil)) (by decide +kernel)
    (isStableSort_of_perm (.swap _ _ _) (by decide +kernel))
  have henum := @SortsTo.enum {} ⟨[], "    enum E \x7b"⟩ ["Q,", "P,"] ["P,", "Q,"] rfl
    (isStableSort_of_perm (.swap _ _ _) (by decide +kernel))
  have hstop := @StopsAt.here {} none ⟨[], "  class C \x7b"⟩ _ _ (.cons henum .nil)
  exact ((sort_stops_iff {} _).2.1 _ _).2 ⟨_, leaf .enum ⟨[], "    enum E \x7b"⟩ ["Q,", "P,"],
    by decide +kernel, by decide +kernel, by decide +kernel, .inside (.cons hclass .nil) hstop⟩

end Declaration

end HouseStyle
