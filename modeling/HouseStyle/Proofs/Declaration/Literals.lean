import HouseStyle.Declaration.Category
import HouseStyle.Declaration.Visibility
import HouseStyle.Proofs.Declaration.Shape

/-!
# String literals in field declarations

The reader knows no literals: words count wherever they stand in a line.  A quotation mark is part of
no word, so the words of a line are those in front of it and those behind it, and what each part says
about the line is put together like a sum.  The text of a literal acts by this summand alone.

* `Hint`, `hint`: what a text says about the reading of a line that holds it.
* `hint_append_cons`: the hint of a line is that of its parts together.
* `classify_eq_of_semicolon`, `name?_quoted`: a line that ends with a semicolon is read by its hint,
  and its name stands outside of literals.
* `hint_eq_iff_readAlike`: **literals with the same hint, and no others, are read alike in every line.**
-/

namespace HouseStyle

open Text

/-! ## Hints -/

/-- What a text says about the reading of a line that holds it. -/
inductive Hint where
  /-- The line declares an enum. -/
  | enum
  /-- The line declares a class, if it does not declare an enum. -/
  | openClass
  /-- Otherwise the text may show that the field is static, that it is final and integral, and its
  access modifier. -/
  | field (isStatic isFinalIntegral : Bool) (modifier : Option Visibility)
  deriving DecidableEq, Repr

/-- What the words of a text say. -/
def hint (text : List Char) : Hint :=
  if (words text).any (Shape.introduces "enum") then .enum
  else if (words text).any (Shape.introduces "class") then .openClass
  else .field (hasWord "static" text) (Category.isFinalIntegral text)
    (Visibility.of? (String.ofList text))

namespace Hint

/-- What two texts say together, the left one in front of the right one. -/
def join : Hint → Hint → Hint
  | .enum, _ => .enum
  | _, .enum => .enum
  | .openClass, _ => .openClass
  | _, .openClass => .openClass
  | .field s f m, .field s' f' m' => .field (s || s') (f || f') (m.or m')

/-- The shape of a line that ends with a semicolon. -/
def shape : Hint → Shape
  | .enum => .enum
  | .openClass => .openClass
  | .field _ _ _ => .field

/-- The category of a field. -/
def category : Hint → Category
  | .field true true _ => .constant
  | .field true false _ => .staticField
  | _ => .field

/-- The access modifier of a field. -/
def modifier? : Hint → Option Visibility
  | .field _ _ m => m
  | _ => none

end Hint

/-! ## Hints of parts -/

section Parts

variable {q : Char} (hq : isWord q = false) (hspace : q ≠ ' ') (a b : List Char)

include hq

theorem of?_append_cons : Visibility.of? (String.ofList (a ++ q :: b)) =
    (Visibility.of? (String.ofList a)).or (Visibility.of? (String.ofList b)) := by
  simp only [Visibility.of?, String.toList_ofList]
  rw [words_append_cons hq, List.findSome?_append, List.findSome?_map]
  rfl

include hspace

theorem any_introduces_append_cons (keyword : String) :
    (words (a ++ q :: b)).any (Shape.introduces keyword) =
      ((words a).any (Shape.introduces keyword) || (words b).any (Shape.introduces keyword)) := by
  have hcomp : (Shape.introduces keyword ∘ fun w : Word => ⟨w.text, w.rest ++ q :: b⟩) =
      Shape.introduces keyword := funext fun w => by
    rw [Function.comp_apply, Shape.introduces, argument?_append_cons hq b hspace, Shape.introduces]
  rw [words_append_cons hq, List.any_append, List.any_map, hcomp]

theorem isFinalIntegral_append_cons : Category.isFinalIntegral (a ++ q :: b) =
    (Category.isFinalIntegral a || Category.isFinalIntegral b) := by
  simp only [Category.isFinalIntegral]
  rw [words_append_cons hq, List.any_append, List.any_map]
  congr 2
  funext w
  rw [Function.comp_apply, argument?_append_cons hq b hspace]

/-- **What a line says is what its parts say together**, on both sides of a character that is part
of no word. -/
theorem hint_append_cons : hint (a ++ q :: b) = (hint a).join (hint b) := by
  simp only [hint, any_introduces_append_cons hq hspace, hasWord_append_cons hq,
    isFinalIntegral_append_cons hq hspace, of?_append_cons hq]
  cases (words a).any (Shape.introduces "enum") <;> cases (words b).any (Shape.introduces "enum") <;>
    cases (words a).any (Shape.introduces "class") <;>
    cases (words b).any (Shape.introduces "class") <;> rfl

end Parts

/-! ## Lines that end with a semicolon -/

/-- A line that ends with a semicolon and holds no parenthesis is read by its hint. -/
theorem classify_eq_of_semicolon {line : String} (hlast : line.toList.getLast? = some ';')
    (hparen : '(' ∉ line.toList) (next : Option String) :
    classify line next =
      if startsWithWord line then some (hint line.toList).shape else none := by
  have hnone : ∀ {shape : Shape} {c : Char}, shape.last? = some c → c ≠ ';' →
      shape.fits line next = false := by
    intro shape c hc hne
    refine Bool.eq_false_iff.2 fun hfits => hne ?_
    exact Option.some.inj ((getLast?_of_fits hfits hc).symm.trans hlast)
  have habstract : Shape.fits line next .abstractMethod = false := by
    refine Bool.eq_false_iff.2 fun hfits => ?_
    obtain ⟨w, hw, hbody⟩ := List.any_eq_true.1 hfits
    simp only [Shape.hasAbstractBody, Bool.and_eq_true] at hbody
    obtain ⟨w', hw', hcall⟩ := List.any_eq_true.1 hbody.2.2
    -- the parenthesis behind the inner word is one of the line
    have hsuffix := (rest_suffix_of_mem_words hw').trans (rest_suffix_of_mem_words hw)
    unfold Shape.arguments? at hcall
    split at hcall
    · next rest heq =>
      split at heq
      · next hrest =>
        rw [hrest] at hsuffix
        exact hparen (hsuffix.subset List.mem_cons_self)
      · cases heq
    · cases hcall
  have hfield : Shape.fits line next .field = true := by rw [Shape.fits, hlast]; rfl
  have hhint : hint line.toList =
      if Shape.fits line next .enum then .enum
      else if Shape.fits line next .openClass then .openClass
      else .field (hasWord "static" line.toList) (Category.isFinalIntegral line.toList)
        (Visibility.of? (String.ofList line.toList)) := rfl
  rw [classify]
  split
  · rw [hhint]
    simp only [Shape.all, List.find?_cons, @hnone .emptyClass _ rfl (by decide),
      @hnone .fieldClass _ rfl (by decide), habstract, @hnone .emptyMethod _ rfl (by decide),
      @hnone .openMethod _ rfl (by decide), hfield]
    cases Shape.fits line next .enum <;> cases Shape.fits line next .openClass <;> rfl
  · rfl

theorem ofField_eq_of_hint {line : String} (h : (hint line.toList).shape = .field) :
    Category.ofField line = (hint line.toList).category ∧
      Visibility.of? line = (hint line.toList).modifier? := by
  rw [hint] at h ⊢
  split
  · next henum =>
    rw [if_pos henum] at h
    cases h
  · next henum =>
    rw [if_neg henum] at h
    split
    · next hclass =>
      rw [if_pos hclass] at h
      cases h
    · rw [String.ofList_toList]
      refine ⟨?_, rfl⟩
      dsimp only [Category.ofField]
      cases hasWord "static" line.toList <;> cases Category.isFinalIntegral line.toList <;> rfl

/-! ## Literals -/

/-- The line with a literal between two parts of it. -/
def quoted (before literal after : List Char) : String :=
  String.ofList (before ++ '"' :: (literal ++ '"' :: after))

section Quoted

variable (before after : List Char) {s t : List Char}

theorem toList_quoted (s : List Char) :
    (quoted before s after).toList = before ++ '"' :: (s ++ '"' :: after) :=
  String.toList_ofList

theorem hint_quoted (s : List Char) : hint (quoted before s after).toList =
    (hint before).join ((hint s).join (hint after)) := by
  rw [toList_quoted, hint_append_cons rfl (by decide), hint_append_cons rfl (by decide)]

theorem startsWithWord_quoted (s : List Char) : startsWithWord (quoted before s after) =
    (leadingWord? (before.dropWhile (· == ' '))).isSome := by
  rw [startsWithWord, unindented, toList_quoted, dropWhile_append_cons before rfl,
    leadingWord?_append_cons rfl]

theorem getLast?_quoted (s : List Char) (hlast : after.getLast? = some ';') :
    (quoted before s after).toList.getLast? = some ';' := by
  rw [toList_quoted]
  refine getLast?_of_suffix ?_ hlast
  exact ((List.suffix_cons _ _).trans (List.suffix_append _ _)).trans
    ((List.suffix_cons _ _).trans (List.suffix_append _ _))

theorem not_mem_quoted {c : Char} (hc : c ≠ '"') (hbefore : c ∉ before) (hafter : c ∉ after)
    (hs : c ∉ s) : c ∉ (quoted before s after).toList := by
  rw [toList_quoted]
  simp [hc, hbefore, hafter, hs]

/-- No name stands in a literal that holds none of the characters behind a name. -/
theorem wordBefore_quoted {pattern : String} {c : Char} (hq : '"' ∉ pattern.toList)
    (hc : c ∈ pattern.toList) (hs : c ∉ s) :
    wordBefore (pattern.toList.isPrefixOf ·) (quoted before s after).toList =
      (wordBefore (pattern.toList.isPrefixOf ·) before).or
        (wordBefore (pattern.toList.isPrefixOf ·) after) := by
  have hnone : wordBefore (pattern.toList.isPrefixOf ·) s = none := by
    rw [wordBefore, Option.map_eq_none_iff, List.find?_eq_none]
    intro w hw hprefix
    have hrest : c ∈ w.rest := (List.isPrefixOf_iff_prefix.1 hprefix).subset hc
    exact hs ((rest_suffix_of_mem_words hw).subset hrest)
  rw [toList_quoted,
    wordBefore_append_cons rfl before _ fun rest => isPrefixOf_append_cons hq rest _,
    wordBefore_append_cons rfl s _ fun rest => isPrefixOf_append_cons hq rest _, hnone,
    Option.none_or]

/-- The name of a field stands outside of its literal. -/
theorem name?_quoted (hequals : '=' ∉ s) (hsemicolon : ';' ∉ s) :
    Kind.field.name? (quoted before s after) =
      (((assignedName before).or (assignedName after)).or
        ((terminatedName before).or (terminatedName after))).map String.ofList := by
  have hassigned : assignedName (quoted before s after).toList =
      (assignedName before).or (assignedName after) :=
    wordBefore_quoted before after (by decide) (by decide) hequals
  have hterminated : terminatedName (quoted before s after).toList =
      (terminatedName before).or (terminatedName after) :=
    wordBefore_quoted before after (by decide) (by decide) hsemicolon
  simp only [Kind.name?, hassigned, hterminated]

end Quoted

/-! ## Literals with the same hint -/

/-- Whether a text holds nothing but word characters and spaces. -/
def IsPlain (text : List Char) : Prop := ∀ c ∈ text, isWord c = true ∨ c = ' '

theorem isPlain_iff {text : List Char} :
    IsPlain text ↔ (text.all fun c => isWord c || c == ' ') = true := by
  simp [IsPlain]

instance (text : List Char) : Decidable (IsPlain text) := decidable_of_iff _ isPlain_iff.symm

theorem IsPlain.not_mem {text : List Char} {c : Char} (h : IsPlain text) (hc : isWord c = false)
    (hspace : c ≠ ' ') : c ∉ text := by
  intro hmem
  rcases h c hmem with hword | rfl
  · rw [hc] at hword
    cases hword
  · exact hspace rfl

/-- A line with a plain literal is read by its hint. -/
theorem classify_quoted {before after s : List Char} (hs : IsPlain s) (hbefore : '(' ∉ before)
    (hafter : '(' ∉ after) (hlast : after.getLast? = some ';') (next : Option String) :
    classify (quoted before s after) next =
      if (leadingWord? (before.dropWhile (· == ' '))).isSome then
        some (hint (quoted before s after).toList).shape
      else none := by
  have hparen : '(' ∉ s := hs.not_mem rfl (by decide)
  rw [classify_eq_of_semicolon (getLast?_quoted before after s hlast)
    (not_mem_quoted before after (by decide) hbefore hafter hparen), startsWithWord_quoted]

/-- Whether two lines are read alike: they have the same shape whatever line follows, and as fields
the same name, category and modifier. -/
structure ReadAlike (line other : String) : Prop where
  shape (next : Option String) : classify line next = classify other next
  field (next : Option String) : classify line next = some .field → ∀ header lines,
    (Declaration.leaf .field ⟨header, line⟩ lines).name? =
      (Declaration.leaf .field ⟨header, other⟩ lines).name? ∧
    (Declaration.leaf .field ⟨header, line⟩ lines).category =
      (Declaration.leaf .field ⟨header, other⟩ lines).category ∧
    Visibility.of? line = Visibility.of? other

/-- Literals that give the same hint are read alike in every line that ends with a semicolon and
holds no parenthesis. -/
theorem readAlike_of_hint {before after s t : List Char} (hs : IsPlain s) (ht : IsPlain t)
    (hbefore : '(' ∉ before) (hafter : '(' ∉ after) (hlast : after.getLast? = some ';')
    (hhint : hint s = hint t) : ReadAlike (quoted before s after) (quoted before t after) := by
  have hsame : hint (quoted before s after).toList = hint (quoted before t after).toList := by
    rw [hint_quoted, hint_quoted, hhint]
  refine ⟨fun next => ?_, fun next hfield header lines => ?_⟩
  · rw [classify_quoted hs hbefore hafter hlast, classify_quoted ht hbefore hafter hlast, hsame]
  have hshape : (hint (quoted before s after).toList).shape = .field := by
    rw [classify_quoted hs hbefore hafter hlast] at hfield
    split at hfield
    · exact Option.some.inj hfield
    · cases hfield
  obtain ⟨hcategory, hmodifier⟩ := ofField_eq_of_hint hshape
  rw [hsame] at hshape hcategory hmodifier
  obtain ⟨hcategory', hmodifier'⟩ := ofField_eq_of_hint hshape
  have hname := name?_quoted before after (hs.not_mem rfl (by decide)) (hs.not_mem rfl (by decide))
  have hname' := name?_quoted before after (ht.not_mem rfl (by decide)) (ht.not_mem rfl (by decide))
  exact ⟨hname.trans hname'.symm, hcategory.trans hcategory'.symm, hmodifier.trans hmodifier'.symm⟩

/-! ## Literals with different hints -/

/-- Whether lines with two hints are read alike. -/
structure Hint.Alike (g h : Hint) : Prop where
  shape : g.shape = h.shape
  category : g.shape = .field → g.category = h.category
  modifier : g.shape = .field → g.modifier? = h.modifier?

theorem Hint.join_field_false (h : Hint) (a : Bool) :
    (Hint.field a false none).join (h.join (.field false false none)) =
      (Hint.field a false none).join h := by
  cases h <;> simp [Hint.join]

theorem Hint.eq_of_alike {g h : Hint}
    (H : ∀ a, Alike ((Hint.field a false none).join g) ((Hint.field a false none).join h)) :
    g = h := by
  have hplain := H false
  have hstatic := H true
  cases g with
  | enum =>
    cases h with
    | enum => rfl
    | openClass | field => cases hplain.shape
  | openClass =>
    cases h with
    | openClass => rfl
    | enum | field => cases hplain.shape
  | field a f m =>
    cases h with
    | enum | openClass => cases hplain.shape
    | field a' f' m' =>
      have hm : m = m' := by simpa [join, modifier?] using hplain.modifier rfl
      have hf : f = f' := by
        have hcategory := hstatic.category rfl
        cases f <;> cases f' <;> first | rfl | cases hcategory
      have ha : a = a' := by
        have hcategory := hplain.category rfl
        subst hf
        cases a <;> cases a' <;> cases f <;> first | rfl | cases hcategory
      rw [hm, hf, ha]

/-- Two literals that give different hints are told apart by the shape, the category or the modifier
of some line. -/
theorem hint_eq_of_readAlike {s t : List Char} (hs : IsPlain s) (ht : IsPlain t)
    (H : ∀ before after : List Char, '(' ∉ before → '(' ∉ after → after.getLast? = some ';' →
      ReadAlike (quoted before s after) (quoted before t after)) : hint s = hint t := by
  refine Hint.eq_of_alike fun a => ?_
  -- the line is static or not by what stands in front of the literal
  obtain ⟨before, hbefore, hword, hhint⟩ : ∃ before : List Char, '(' ∉ before ∧
      (leadingWord? (before.dropWhile (· == ' '))).isSome = true ∧
      hint before = .field a false none := by
    cases a with
    | false => exact ⟨"String x = ".toList, by decide, by decide +kernel, by decide +kernel⟩
    | true => exact ⟨"static String x = ".toList, by decide, by decide +kernel, by decide +kernel⟩
  have hline : ∀ u, hint (quoted before u ";".toList).toList =
      (Hint.field a false none).join (hint u) := by
    intro u
    have hend : hint ";".toList = .field false false none := by decide +kernel
    rw [hint_quoted, hhint, hend, Hint.join_field_false]
  have hread : ∀ {u : List Char}, IsPlain u → classify (quoted before u ";".toList) none =
      some ((Hint.field a false none).join (hint u)).shape := by
    intro u hu
    rw [classify_quoted hu hbefore (by decide) rfl, if_pos hword, hline]
  have halike := H before ";".toList hbefore (by decide) rfl
  have hsame := halike.shape none
  rw [hread hs, hread ht] at hsame
  have hshapes := Option.some.inj hsame
  have htold : ((Hint.field a false none).join (hint s)).shape = .field →
      ((Hint.field a false none).join (hint s)).category =
        ((Hint.field a false none).join (hint t)).category ∧
      ((Hint.field a false none).join (hint s)).modifier? =
        ((Hint.field a false none).join (hint t)).modifier? := by
    intro hf
    obtain ⟨-, hcategory, hmodifier⟩ := halike.field none (by rw [hread hs, hf]) [] []
    obtain ⟨hcs, hms⟩ := @ofField_eq_of_hint (quoted before s ";".toList) (by rw [hline, hf])
    obtain ⟨hct, hmt⟩ := @ofField_eq_of_hint (quoted before t ";".toList)
      (by rw [hline, ← hshapes, hf])
    rw [hline] at hcs hms hct hmt
    exact ⟨hcs.symm.trans (hcategory.trans hct), hms.symm.trans (hmodifier.trans hmt)⟩
  exact ⟨hshapes, fun hf => (htold hf).1, fun hf => (htold hf).2⟩

/-- **Literals with the same hint, and no others, are read alike** in every line that ends with a
semicolon and holds no parenthesis. -/
theorem hint_eq_iff_readAlike {s t : List Char} (hs : IsPlain s) (ht : IsPlain t) :
    hint s = hint t ↔
      ∀ before after : List Char, '(' ∉ before → '(' ∉ after → after.getLast? = some ';' →
        ReadAlike (quoted before s after) (quoted before t after) :=
  ⟨fun hhint _ _ hbefore hafter hlast => readAlike_of_hint hs ht hbefore hafter hlast hhint,
    hint_eq_of_readAlike hs ht⟩

/-- A static field whose literal speaks of `final` or of `int`, but not of both. -/
theorem hint_eq_iff_readAlike_words :
    hint "final words".toList = hint "an int 2".toList ∧
      classify (quoted "  static final String s = ".toList "final words".toList ";".toList) none =
        some .field ∧
      (Declaration.leaf .field
          ⟨[], quoted "  static final String s = ".toList "final words".toList ";".toList⟩ []).category =
        (Declaration.leaf .field
          ⟨[], quoted "  static final String s = ".toList "an int 2".toList ";".toList⟩ []).category := by
  have hs : IsPlain "final words".toList := by decide +kernel
  have ht : IsPlain "an int 2".toList := by decide +kernel
  have hhint : hint "final words".toList = hint "an int 2".toList := by decide +kernel
  have hfield : classify
      (quoted "  static final String s = ".toList "final words".toList ";".toList) none =
        some .field := by decide +kernel
  have hread := (hint_eq_iff_readAlike hs ht).1 hhint "  static final String s = ".toList ";".toList
    (by decide) (by decide) rfl
  exact ⟨hhint, hfield, (hread.field none hfield [] []).2.1⟩

/-- A literal that speaks of an enum makes one of the field. -/
theorem not_forall_classify_quoted_eq :
    ¬∀ declared s t after : List Char, startsWithWord (String.ofList declared) = true →
      '"' ∉ declared → '(' ∉ declared → '(' ∉ after → after.getLast? = some ';' →
      IsPlain s → IsPlain t → ∀ next,
        classify (quoted (declared ++ " = ".toList) s after) next =
          classify (quoted (declared ++ " = ".toList) t after) next := by
  intro h
  have hs : IsPlain "enum x".toList := by decide +kernel
  have ht : IsPlain "some x".toList := by decide +kernel
  have hsame := h "  String s".toList "enum x".toList "some x".toList ";".toList (by decide +kernel)
    (by decide) (by decide) (by decide) rfl hs ht none
  exact absurd hsame (by decide +kernel)

end HouseStyle
