import HouseStyle.Outline
import HouseStyle.Proofs.Declaration.Names

/-!
# Outlines of files that were read

A file that was read has an outline, before and after any passes: no declaration is without a name.
The outline is printed as one line for each declaration, and no name breaks a line.

* `leveled`, `outlineLine`: the declarations of a tree, owners before members, and their lines.
* `exists_outline`: **the outline of a tree in which every declaration has a name.**
* `names_of_parse`: **names never go missing**, so outlines and sorts do not fail for want of one.
-/

namespace HouseStyle

open Text

/-! ## Names within a line -/

theorem isWord_of_name? {kind : Kind} {signature name : String}
    (h : kind.name? signature = some name) : ∀ c ∈ name.toList, isWord c = true := by
  obtain ⟨word, hword, rfl⟩ := Option.map_eq_some_iff.1 h
  rw [String.toList_ofList]
  cases kind with
  | namedClass => exact isWord_of_wordAfter hword
  | enum => exact isWord_of_wordAfter hword
  | field =>
    rcases Option.or_eq_some_iff.1 hword with hword | ⟨-, hword⟩
    · exact isWord_of_wordBefore hword
    · exact isWord_of_wordBefore hword
  | fieldClass => exact isWord_of_wordBefore hword
  | method => exact isWord_of_wordBefore hword

namespace Declaration

/-! ## Declarations by level -/

mutual

/-- The declarations of a tree, each in front of its members and with its level. -/
def leveled (level : Nat) : Declaration → List (Nat × Declaration)
  | .leaf kind head lines => [(level, .leaf kind head lines)]
  | .scope opener head members =>
    (level, .scope opener head members) :: leveledAll (level + 1) members

/-- The declarations of some trees, each in front of its members and with its level. -/
def leveledAll (level : Nat) : List Declaration → List (Nat × Declaration)
  | [] => []
  | d :: ds => d.leveled level ++ leveledAll level ds

end

theorem leveledAll_eq_flatMap (level : Nat) (ds : List Declaration) :
    leveledAll level ds = ds.flatMap (leveled level) := by
  induction ds with
  | nil => rfl
  | cons d ds ih => rw [leveledAll, ih, List.flatMap_cons]

/-- Every declaration has its place among the levels, once. -/
theorem map_snd_leveled_perm (d : Declaration) (level : Nat) :
    ((d.leveled level).map Prod.snd).Perm d.postorder := by
  induction d using ind generalizing level with
  | leaf kind head lines => exact .refl _
  | scope opener head members ih =>
    rw [leveled, leveledAll_eq_flatMap, List.map_cons, List.map_flatMap, postorder,
      postorderAll_eq_flatMap]
    refine (List.Perm.cons _ ?_).trans (List.perm_append_singleton _ _).symm
    exact List.Perm.flatMap_left _ fun m hm => ih m hm (level + 1)

/-- The line of a declaration in an outline: two spaces for each level, its kind, its name and its
category. -/
def outlineLine (level : Nat) (d : Declaration) : String :=
  String.ofList (List.replicate (2 * level) ' ') ++ d.kind.label ++ " " ++ d.name?.getD "" ++
    " [" ++ d.category.label ++ "]"

/-! ## Outlines -/

theorem ofNamed_eq_ok {d : Declaration} (h : d.name?.isSome = true) (children : List Outline) :
    Outline.ofNamed d children = .ok ⟨d.kind.label, d.name?.getD "", d.category.label,
      Outline.trimmed d.signature, children⟩ := by
  obtain ⟨text, htext⟩ := Option.isSome_iff_exists.1 h
  rw [Outline.ofNamed, Declaration.name, htext]
  rfl

/-- An outline that has a line for each declaration of a tree. -/
def Outlines (outline : Outline) (d : Declaration) : Prop :=
  ∀ level, outline.treeLines level = (d.leveled level).map fun p => outlineLine p.1 p.2

theorem exists_outlines {members : List Declaration}
    (h : ∀ m ∈ members, ∃ outline, Outline.ofDeclaration m = .ok outline ∧ Outlines outline m) :
    ∃ children, Outline.ofDeclarations members = .ok children ∧ ∀ level,
      Outline.treeLinesAll level children =
        (leveledAll level members).map fun p => outlineLine p.1 p.2 := by
  induction members with
  | nil => exact ⟨[], rfl, fun _ => rfl⟩
  | cons m ms ih =>
    obtain ⟨⟨outline, hm, hlines⟩, hms⟩ := List.forall_mem_cons.1 h
    obtain ⟨outlines, hrest, hmore⟩ := ih hms
    refine ⟨outline :: outlines, ?_, fun level => ?_⟩
    · rw [Outline.ofDeclarations, hm, hrest]
      rfl
    · rw [Outline.treeLinesAll, hlines, hmore, leveledAll, List.map_append]

/-- **A tree in which every declaration has a name has an outline, with one line for each.** -/
theorem exists_outline (d : Declaration) (h : ∀ c ∈ d.postorder, c.name?.isSome = true) :
    ∃ outline, Outline.ofDeclaration d = .ok outline ∧ Outlines outline d := by
  induction d using ind with
  | leaf kind head lines =>
    have hname := h _ (self_mem_postorder (.leaf kind head lines))
    exact ⟨_, ofNamed_eq_ok hname [], fun level => rfl⟩
  | scope opener head members ih =>
    have hname := h _ (self_mem_postorder (.scope opener head members))
    obtain ⟨children, hchildren, hlines⟩ := exists_outlines fun m hm =>
      ih m hm fun c hc => h c (mem_postorder_scope.2 (Or.inl ⟨m, hm, hc⟩))
    have hnode : Outline.ofDeclaration (.scope opener head members) =
        Outline.ofNamed (.scope opener head members) children := by
      rw [Outline.ofDeclaration, hchildren]
    refine ⟨_, hnode.trans (ofNamed_eq_ok hname children), fun level => ?_⟩
    rw [Outline.treeLines, hlines, leveled, List.map_cons]
    rfl

theorem not_mem_outlineLine (level : Nat) (d : Declaration) :
    '\n' ∉ (outlineLine level d).toList := by
  have hkind : '\n' ∉ d.kind.label.toList := by cases d.kind <;> decide
  have hcategory : '\n' ∉ d.category.label.toList := by cases d.category <;> decide
  have hname : '\n' ∉ (d.name?.getD "").toList := by
    cases hn : d.name? with
    | none => simp
    | some name => exact fun hc => absurd (isWord_of_name? hn _ hc) (by decide +kernel)
  simp [outlineLine, hkind, hcategory, hname]

/-- The lines of an outline are what its text is cut into. -/
theorem splitLines_tree {outline : Outline} {d : Declaration} (h : Outlines outline d) :
    splitLines outline.tree.toList =
      (d.leveled 0).map fun p => (outlineLine p.1 p.2).toList := by
  have hchars : (outline.treeLines 0).flatMap (fun line => line.toList ++ ['\n']) =
      ((d.leveled 0).map fun p => (outlineLine p.1 p.2).toList).flatMap (· ++ ['\n']) := by
    rw [h 0, List.flatMap_map, List.flatMap_map]
  rw [Outline.tree, toText, String.toList_ofList, hchars]
  refine splitLines_flatMap _ fun line hline => ?_
  obtain ⟨p, -, rfl⟩ := List.mem_map.1 hline
  exact not_mem_outlineLine p.1 p.2

end Declaration

/-! ## Files -/

open Declaration

/-- **Names never go missing.**  After any passes over a file that was read, with any options and
whether they end or stop, every declaration has a name.  So the file has an outline, which is one line
for each declaration, owners before their members; and a sort fails for nothing but a category without
a rank, which it does if any declaration but the root has one. -/
theorem names_of_parse {lines : List String} {file : SourceFile}
    (h : SourceFile.parse lines = .ok file) (passes : List Pass) :
    let root := (file.through passes).root
    (∀ d ∈ root.postorder, ∃ text, d.name = .ok text) ∧
    (∃ outline, Outline.ofDeclaration root = .ok outline ∧
      splitLines outline.tree.toList =
        (root.leveled 0).map fun p => (outlineLine p.1 p.2).toList) ∧
    ((root.leveled 0).map Prod.snd).Perm root.postorder ∧
    ∀ options : SortOptions,
      (∀ e, ((Pass.sort options).apply (file.through passes)).2 = some e →
        ∃ d ∈ root.inner, options.order.rank? d.category = none ∧ e = .unranked d.category) ∧
      (((Pass.sort options).apply (file.through passes)).2 ≠ none ↔
        ∃ d ∈ root.inner, options.order.rank? d.category = none) := by
  intro root
  have hsigned : ∀ d ∈ root.postorder, d.Signed := (signed_of_parse h).through passes
  obtain ⟨outline, houtline, hlines⟩ := exists_outline root fun d hd => (hsigned d hd).named
  refine ⟨fun d hd => ?_, ⟨outline, houtline, splitLines_tree hlines⟩, map_snd_leveled_perm root 0,
    fun options => sort_snd_of_signed hsigned options⟩
  obtain ⟨text, htext⟩ := Option.isSome_iff_exists.1 (hsigned d hd).named
  exact ⟨text, by rw [Declaration.name, htext]⟩

/-- A class with an enum and a field gets its modifiers and cannot be sorted, and its outline shows all
three. -/
theorem names_of_parse_enum :
    ∃ file, SourceFile.parse ["class A \x7b", "  enum E \x7b\x7d", "  int b;", "\x7d"] = .ok file ∧
      ((Pass.sort {}).apply (file.through [.visibility .isPublic, .sort {}])).2 =
        some (.unranked .enum) ∧
      ∃ outline,
        Outline.ofDeclaration (file.through [.visibility .isPublic, .sort {}]).root = .ok outline ∧
        splitLines outline.tree.toList =
          ["class A [class]", "  enum E [enum]", "  field b [field]"].map String.toList := by
  let file : SourceFile := ⟨[], .scope none ⟨[], "class A \x7b"⟩
    [.leaf .enum ⟨[], "  enum E \x7b\x7d"⟩ [], .leaf .field ⟨[], "  int b;"⟩ []]⟩
  have hparse : SourceFile.parse ["class A \x7b", "  enum E \x7b\x7d", "  int b;", "\x7d"] =
      .ok file := by decide +kernel
  obtain ⟨-, ⟨outline, houtline, hlines⟩, -, -⟩ :=
    names_of_parse hparse [.visibility .isPublic, .sort {}]
  exact ⟨file, hparse, by decide +kernel, outline, houtline,
    hlines.trans (by decide +kernel)⟩

end HouseStyle
