import HouseStyle.Proofs.Declaration.Names

/-!
# What the modifier pass changes, and what it leaves alone

The pass that inserts access modifiers goes over the signatures of a tree and over nothing else.  A
modifier stands in front of the old words of a signature, so nothing that is read off the signature
moves: no word behind it is hidden, and it is none of the words that are looked for.

* `Modifies`: a signature and what becomes of it.
* `Resigned`: trees that differ in their signatures alone.
* `SameReading`: all that is read off a declaration, the same for another one.
* `resigned_mapText`, `Signed.sameReading`: the tree, and each declaration of it.
* `withVisibility_of_parse`: **the pass changes modifiers and nothing else.**
-/

namespace HouseStyle

open Text

/-! ## Definitions -/

/-- What a signature `s` is with a modifier: the same if it declares one, else with the keyword and
one space behind the spaces at its start. -/
structure Modifies (modifier : Visibility) (s s' : String) : Prop where
  declares : Visibility.of? s' = some ((Visibility.of? s).getD modifier)
  kept : (Visibility.of? s).isSome = true → s' = s
  inserted : Visibility.of? s = none →
    s'.toList = s.toList.takeWhile (· == ' ') ++ modifier.keyword.toList ++
      ' ' :: s.toList.dropWhile (· == ' ')

namespace Declaration

/-- Trees with the same headers, openers and raw lines, and the same members in the same order, that
differ in signatures which `R` ties to each other. -/
inductive Resigned (R : String → String → Prop) : Declaration → Declaration → Prop
  | leaf {s s' : String} (kind : LeafKind) (header lines : List String) (h : R s s') :
      Resigned R (.leaf kind ⟨header, s⟩ lines) (.leaf kind ⟨header, s'⟩ lines)
  | scope {s s' : String} {members members' : List Declaration} (opener : Option String)
      (header : List String) (h : R s s') (hm : List.Forall₂ (Resigned R) members members') :
      Resigned R (.scope opener ⟨header, s⟩ members) (.scope opener ⟨header, s'⟩ members')

/-- Whether all that is read off the signature of a declaration is the same for another one. -/
structure SameReading (d d' : Declaration) : Prop where
  indentation : d'.indentation = d.indentation
  kind : d'.kind = d.kind
  name : ∃ name, d.name = .ok name ∧ d'.name = .ok name
  category : d'.category = d.category
  shape : ∀ next, classify d'.signature next = classify d.signature next

end Declaration

/-! ## Signatures -/

theorem modifies_insertVisibility (modifier : Visibility) (signature : String) :
    Modifies modifier signature (insertVisibility modifier signature) := by
  cases h : Visibility.of? signature with
  | some m =>
    have hsame : insertVisibility modifier signature = signature := by rw [insertVisibility_eq, h]
    rw [hsame]
    refine ⟨by rw [h]; rfl, fun _ => rfl, fun hnone => ?_⟩
    rw [h] at hnone
    cases hnone
  | none =>
    have hnew : insertVisibility modifier signature = insertModifier modifier signature := by
      rw [insertVisibility_eq, h]
    rw [hnew]
    refine ⟨by rw [of?_insertModifier, h]; rfl, fun hsome => ?_, fun _ => ?_⟩
    · rw [h] at hsome
      cases hsome
    · have hspaces : signature.toList.takeWhile (· == ' ') =
          List.replicate (leadingSpaces signature) ' ' := by
        refine @List.append_cancel_right _ _ (unindented signature) _ ?_
        rw [← toList_eq_indented]
        exact List.takeWhile_append_dropWhile
      rw [toList_insertModifier, hspaces, List.append_assoc]
      rfl

section Modifier

variable (modifier : Visibility) (signature : String)

theorem hasWord_insertModifier {keyword : String}
    (hk : modifier.keyword.toList ≠ keyword.toList) :
    hasWord keyword (insertModifier modifier signature).toList =
      hasWord keyword signature.toList := by
  have hne : (modifier.keyword.toList == keyword.toList) = false := beq_eq_false_iff_ne.2 hk
  rw [hasWord, words_insertModifier, List.any_cons, hne, Bool.false_or, hasWord]

theorem isFinalIntegral_insertModifier :
    Category.isFinalIntegral (insertModifier modifier signature).toList =
      Category.isFinalIntegral signature.toList := by
  have hne : modifier.keyword.toList ≠ "final".toList := by cases modifier <;> decide
  have hnone : Word.argument? "final".toList
      ⟨modifier.keyword.toList, ' ' :: unindented signature⟩ = none := if_neg hne
  rw [Category.isFinalIntegral, words_insertModifier, List.any_cons, hnone, Bool.false_or,
    Category.isFinalIntegral]

theorem ofField_insertVisibility :
    Category.ofField (insertVisibility modifier signature) = Category.ofField signature := by
  refine insertVisibility_cases (motive := fun s => Category.ofField s = Category.ofField signature)
    modifier rfl ?_
  have hne : modifier.keyword.toList ≠ "static".toList := by cases modifier <;> decide
  simp only [Category.ofField, hasWord_insertModifier modifier signature hne,
    isFinalIntegral_insertModifier]

theorem name?_insertVisibility {signature : String} (hs : startsWithWord signature = true)
    (kind : Kind) : kind.name? (insertVisibility modifier signature) = kind.name? signature :=
  insertVisibility_cases (motive := fun s => kind.name? s = kind.name? signature) modifier rfl
    (name?_insertModifier modifier hs kind)

end Modifier

/-! ## Declarations -/

namespace Declaration

variable {R : String → String → Prop} {onSignature : String → String} {c d : Declaration}

theorem resigned_mapText (h : ∀ c ∈ d.postorder, R c.signature (onSignature c.signature)) :
    Resigned R d (d.mapText (fun head => { head with signature := onSignature head.signature })
      fun _ lines => lines) := by
  induction d using ind with
  | leaf kind head lines =>
    rw [mapText]
    exact .leaf kind head.header lines (h _ (self_mem_postorder _))
  | scope opener head members ih =>
    rw [mapText_scope]
    refine .scope opener head.header (h _ (self_mem_postorder _)) ?_
    rw [List.forall₂_map_right_iff, List.forall₂_same]
    intro m hm
    exact ih m hm fun c hc => h c (mem_postorder_scope.2 (Or.inl ⟨m, hm, hc⟩))

theorem category_mapText (onHead : Head → Head)
    (h : Category.ofField (onHead d.head).signature = Category.ofField d.signature) :
    (d.mapText onHead fun _ lines => lines).category = d.category := by
  rcases d with ⟨_ | _ | _, head, lines⟩ | ⟨_ | _, head, members⟩
  · rfl
  · exact h
  · rfl
  · rfl
  · rfl

/-- A declaration that was read shows the same with a modifier. -/
theorem Signed.sameReading (h : c.Signed) (modifier : Visibility) :
    SameReading c (c.mapText (Head.withVisibility modifier) fun _ lines => lines) := by
  have hsignature : (c.mapText (Head.withVisibility modifier) fun _ lines => lines).signature =
      insertVisibility modifier c.signature := congrArg Head.signature (head_mapText c)
  have hkind : (c.mapText (Head.withVisibility modifier) fun _ lines => lines).kind = c.kind :=
    kind_mapText c
  have halike := signatureAlike_insertVisibility modifier h.startsWithWord
  refine ⟨?_, hkind, ?_, category_mapText _ (ofField_insertVisibility modifier _), ?_⟩
  · rw [Declaration.indentation, hsignature]
    exact halike.indentation
  · obtain ⟨name, hname⟩ := Option.isSome_iff_exists.1 h.named
    refine ⟨name, by rw [Declaration.name, hname], ?_⟩
    rw [Declaration.name, Declaration.name?, hkind, hsignature,
      name?_insertVisibility modifier h.startsWithWord, ← Declaration.name?, hname]
  · rw [hsignature]
    exact halike.shape

end Declaration

/-! ## Files -/

open Declaration

/-- **The modifier pass changes modifiers and nothing else**: the tree stays the same but for its
signatures, each of which declares a modifier; what is read off each declaration stays the same; and
no second run, with whatever modifier, finds anything left to do. -/
theorem withVisibility_of_parse {lines : List String} {file : SourceFile}
    (h : SourceFile.parse lines = .ok file) (modifier : Visibility) :
    ∃ changed, (Pass.visibility modifier).apply file = (changed, none) ∧
      changed.preamble = file.preamble ∧
      Resigned (Modifies modifier) file.root changed.root ∧
      List.Forall₂ SameReading file.root.postorder changed.root.postorder ∧
      ∀ modifier', (Pass.visibility modifier').apply changed = (changed, none) := by
  refine ⟨file.withVisibility modifier, rfl, rfl, ?_, ?_, fun modifier' => ?_⟩
  · exact resigned_mapText fun c _ => modifies_insertVisibility modifier c.signature
  · rw [SourceFile.withVisibility, SourceFile.mapText, postorder_mapText,
      List.forall₂_map_right_iff, List.forall₂_same]
    exact fun c hc => (signed_of_parse h c hc).sameReading modifier
  · exact Prod.ext (SourceFile.withVisibility_withVisibility modifier modifier' file) rfl

/-- A class, its field with an accented name and its private method, to be made public and then
private. -/
theorem withVisibility_of_parse_field :
    ∃ file changed,
      SourceFile.parse ["class A \x7b", "  static final int été = 1;", "  private void b() \x7b",
        "    c();", "  \x7d", "\x7d"] = .ok file ∧
      (Pass.visibility .isPublic).apply file = (changed, none) ∧
      changed.compose = ["public class A \x7b", "  public static final int été = 1;", "",
        "  private void b() \x7b", "    c();", "  \x7d", "\x7d"] ∧
      List.Forall₂ SameReading file.root.postorder changed.root.postorder ∧
      (Pass.visibility .isPrivate).apply changed = (changed, none) := by
  have h : SourceFile.parse ["class A \x7b", "  static final int été = 1;",
        "  private void b() \x7b", "    c();", "  \x7d", "\x7d"] =
      .ok ⟨[], .scope none ⟨[], "class A \x7b"⟩
        [.leaf .field ⟨[], "  static final int été = 1;"⟩ [],
          .leaf .method ⟨[], "  private void b() \x7b"⟩ ["    c();"]]⟩ := by decide +kernel
  obtain ⟨changed, hchanged, -, -, hreading, hagain⟩ := withVisibility_of_parse h .isPublic
  refine ⟨_, changed, h, hchanged, ?_, hreading, hagain .isPrivate⟩
  rw [← (Prod.mk.inj hchanged).1]
  decide +kernel

end HouseStyle
