import HouseStyle.Declaration.Visibility
import HouseStyle.Proofs.Declaration.MapText

/-!
# What an access modifier keeps

A modifier goes in front of the words of a signature.  The shapes and the names are found from words
that stand in front of something else than a space and a word, or that are other keywords, so the
new word is passed over.

* `words_insertModifier`: the words of a signature with a modifier.
* `fits_insertModifier`, `name?_insertModifier`: its shape and its name.
* `signatureAlike_insertVisibility`: it answers all that the reader asks as before.
* `SourceFile.Stable.withVisibility`: a stable file stays stable.
-/

namespace HouseStyle

open Text Declaration

/-! ## Words -/

/-- The signature with a modifier behind its indentation. -/
def insertModifier (modifier : Visibility) (signature : String) : String :=
  String.ofList (List.replicate (leadingSpaces signature) ' ' ++ modifier.keyword.toList ++
    ' ' :: unindented signature)

theorem insertVisibility_eq (modifier : Visibility) (signature : String) :
    insertVisibility modifier signature = match Visibility.of? signature with
      | some _ => signature
      | none => insertModifier modifier signature := rfl

section Modifier

variable (modifier : Visibility) (signature : String)

theorem toList_insertModifier : (insertModifier modifier signature).toList =
    List.replicate (leadingSpaces signature) ' ' ++
      (modifier.keyword.toList ++ ' ' :: unindented signature) := by
  rw [insertModifier, String.toList_ofList, List.append_assoc]

theorem head?_keyword (text : List Char) :
    (modifier.keyword.toList ++ text).head? = some 'p' := by
  cases modifier <;> rfl

theorem unindented_insertModifier : unindented (insertModifier modifier signature) =
    modifier.keyword.toList ++ ' ' :: unindented signature := by
  rw [insertModifier, List.append_assoc]
  exact unindented_ofList (by rw [head?_keyword]; decide)

theorem leadingSpaces_insertModifier :
    leadingSpaces (insertModifier modifier signature) = leadingSpaces signature := by
  rw [insertModifier, List.append_assoc]
  exact leadingSpaces_ofList (by rw [head?_keyword]; decide)

theorem isWord_keyword : ∀ c ∈ modifier.keyword.toList, isWord c = true :=
  List.all_eq_true.1 (by cases modifier <;> decide)

theorem words_insertModifier : words (insertModifier modifier signature).toList =
    ⟨modifier.keyword.toList, ' ' :: unindented signature⟩ :: words signature.toList := by
  have hne : modifier.keyword.toList ≠ [] := by cases modifier <;> decide
  have hwords : words signature.toList = words (unindented signature) := by
    rw [toList_eq_indented signature, words_indented]
  rw [toList_insertModifier, words_indented, words_cons hne (isWord_keyword modifier), hwords]

theorem startsWithWord_insertModifier :
    startsWithWord (insertModifier modifier signature) = true := by
  rw [startsWithWord, unindented_insertModifier]
  cases modifier <;> rfl

/-! ## Shapes and names -/

variable {signature}

theorem getLast?_insertModifier (hs : startsWithWord signature = true) :
    (insertModifier modifier signature).toList.getLast? = signature.toList.getLast? := by
  obtain ⟨c, -, hhead⟩ := head?_of_startsWithWord hs
  have hne : unindented signature ≠ [] := by
    rintro he
    rw [he] at hhead
    cases hhead
  have hlast := List.getLast?_eq_some_getLast hne
  have hold : unindented signature <:+ signature.toList := List.dropWhile_suffix _
  have hnew : unindented signature <:+ (insertModifier modifier signature).toList := by
    rw [toList_insertModifier, ← List.append_assoc]
    exact (List.suffix_cons ' ' _).trans (List.suffix_append _ _)
  rw [getLast?_of_suffix hnew hlast, getLast?_of_suffix hold hlast]

/-- A modifier is passed over by every shape. -/
theorem fits_insertModifier (hs : startsWithWord signature = true) (next : Option String)
    (shape : Shape) :
    shape.fits (insertModifier modifier signature) next = shape.fits signature next := by
  have hlast := getLast?_insertModifier modifier hs
  cases shape with
  | fieldClass => rw [Shape.fits, Shape.fits, hlast]
  | field => rw [Shape.fits, Shape.fits, hlast]
  | multilineField => rw [Shape.fits, Shape.fits, hlast]
  | _ =>
    simp only [Shape.fits, Shape.hasBody, words_insertModifier, List.any_cons]
    cases modifier <;> rfl

theorem classify_insertModifier (hs : startsWithWord signature = true) (next : Option String) :
    classify (insertModifier modifier signature) next = classify signature next := by
  rw [classify, classify, hs, startsWithWord_insertModifier,
    funext (fits_insertModifier modifier hs next)]

theorem wordAfter_insertModifier {keyword : String}
    (hk : modifier.keyword.toList ≠ keyword.toList) :
    wordAfter keyword (insertModifier modifier signature).toList =
      wordAfter keyword signature.toList := by
  have hnone : Word.argument? keyword.toList
      ⟨modifier.keyword.toList, ' ' :: unindented signature⟩ = none := if_neg hk
  rw [wordAfter, words_insertModifier, List.findSome?_cons, hnone, wordAfter]

theorem wordBefore_insertModifier {follows : List Char → Bool}
    (hf : follows (' ' :: unindented signature) = false) :
    wordBefore follows (insertModifier modifier signature).toList =
      wordBefore follows signature.toList := by
  rw [wordBefore, words_insertModifier, List.find?_cons_of_neg (by simp [hf]), wordBefore]

theorem name?_insertModifier (hs : startsWithWord signature = true) (kind : Kind) :
    kind.name? (insertModifier modifier signature) = kind.name? signature := by
  have hassigned : " =".toList.isPrefixOf (' ' :: unindented signature) = false := by
    -- what follows the modifier begins with a word
    obtain ⟨c, hc, hhead⟩ := head?_of_startsWithWord hs
    obtain ⟨rest, hrest⟩ := List.head?_eq_some_iff.1 hhead
    have hne : c ≠ '=' := by
      rintro rfl
      exact absurd hc (by decide +kernel)
    simp [hrest, List.isPrefixOf, hne.symm]
  have hassignedName : assignedName (insertModifier modifier signature).toList =
      assignedName signature.toList := wordBefore_insertModifier modifier hassigned
  cases kind with
  | namedClass =>
    have hne : modifier.keyword.toList ≠ "class".toList := by cases modifier <;> decide
    simp only [Kind.name?, wordAfter_insertModifier modifier hne]
  | enum =>
    have hne : modifier.keyword.toList ≠ "enum".toList := by cases modifier <;> decide
    simp only [Kind.name?, wordAfter_insertModifier modifier hne]
  | field =>
    have hterminated : terminatedName (insertModifier modifier signature).toList =
        terminatedName signature.toList := wordBefore_insertModifier modifier rfl
    simp only [Kind.name?, hassignedName, hterminated]
  | fieldClass => simp only [Kind.name?, hassignedName]
  | method =>
    have hcalled : calledName (insertModifier modifier signature).toList =
        calledName signature.toList := wordBefore_insertModifier modifier rfl
    simp only [Kind.name?, hcalled]

/-- A signature with a modifier answers all that the reader asks as before. -/
theorem signatureAlike_insertModifier (hs : startsWithWord signature = true) :
    SignatureAlike signature (insertModifier modifier signature) := by
  have hspaces := leadingSpaces_insertModifier modifier signature
  refine ⟨?_, hspaces, getLast?_insertModifier modifier hs, classify_insertModifier modifier hs,
    fun kind => by rw [name?_insertModifier modifier hs]⟩
  rw [indentation_of_not_isBlank (isBlank_of_startsWithWord hs), indentation_of_not_isBlank
    (isBlank_of_startsWithWord (startsWithWord_insertModifier modifier signature)), hspaces]

theorem isPreamble_insertModifier (signature : String) :
    isPreamble (insertModifier modifier signature) = false := by
  rw [isPreamble, toList_insertModifier]
  cases leadingSpaces signature <;> cases modifier <;> rfl

theorem clean_insertModifier (hs : startsWithWord signature = true) (h : Clean signature) :
    Clean (insertModifier modifier signature) := by
  refine ⟨?_, by rw [getLast?_insertModifier modifier hs]; exact h.last⟩
  have hkeyword : '\n' ∉ modifier.keyword.toList := by cases modifier <;> decide
  have hrest : '\n' ∉ unindented signature := fun hn =>
    h.feed ((List.dropWhile_sublist _).subset hn)
  rw [toList_insertModifier]
  simp [hkeyword, hrest]

end Modifier

/-! ## Signatures -/

theorem of?_insertModifier (modifier : Visibility) (signature : String) :
    Visibility.of? (insertModifier modifier signature) = some modifier := by
  rw [Visibility.of?, words_insertModifier, List.findSome?_cons, String.ofList_toList,
    Visibility.ofKeyword?_keyword]

theorem insertVisibility_insertVisibility (modifier modifier' : Visibility) (signature : String) :
    insertVisibility modifier' (insertVisibility modifier signature) =
      insertVisibility modifier signature := by
  cases h : Visibility.of? signature with
  | some m => simp only [insertVisibility_eq, h]
  | none => simp only [insertVisibility_eq, h, of?_insertModifier]

/-- What holds of a signature and of it with the modifier holds of what the pass makes of it. -/
theorem insertVisibility_cases {motive : String → Prop} (modifier : Visibility) {signature : String}
    (same : motive signature) (inserted : motive (insertModifier modifier signature)) :
    motive (insertVisibility modifier signature) := by
  rw [insertVisibility_eq]
  split
  · exact same
  · exact inserted

theorem signatureAlike_insertVisibility (modifier : Visibility) {signature : String}
    (hs : startsWithWord signature = true) :
    SignatureAlike signature (insertVisibility modifier signature) :=
  insertVisibility_cases modifier (.refl signature) (signatureAlike_insertModifier modifier hs)

/-! ## Files -/

namespace SourceFile

variable {file : SourceFile} (modifier : Visibility)

/-- **Access modifiers leave a stable file stable.** -/
theorem Stable.withVisibility (h : file.Stable) : (file.withVisibility modifier).Stable := by
  have hhead : (file.withVisibility modifier).root.head = file.root.head.withVisibility modifier :=
    head_mapText _
  refine h.of_alike (List.forall₂_same.2 fun l _ => .refl l) ?_ ?_
  · have hheader : (file.withVisibility modifier).root.header = file.root.header := by
      rw [Declaration.header, hhead]
      rfl
    have hsignature : (file.withVisibility modifier).root.signature =
        insertVisibility modifier file.root.signature := by
      rw [Declaration.signature, hhead]
      rfl
    refine isPreamble_firstLine ?_ (fun hfirst => ?_) h.first
    · rw [hheader]
      exact List.forall₂_same.2 fun l _ => .refl l
    · rw [hsignature]
      exact insertVisibility_cases (motive := fun s => isPreamble s = false) modifier hfirst
        (isPreamble_insertModifier modifier _)
  · refine exists_alike_of_mem_mapText (fun c hc => ?_) fun kind lines => .refl kind lines
    refine ⟨List.forall₂_same.2 fun l _ => .refl l, ?_⟩
    exact signatureAlike_insertVisibility modifier (h.declarations c hc).formed.startsWithWord

theorem withVisibility_withVisibility (modifier' : Visibility) (file : SourceFile) :
    (file.withVisibility modifier).withVisibility modifier' = file.withVisibility modifier := by
  have hhead : ∀ head : Head, (head.withVisibility modifier).withVisibility modifier' =
      head.withVisibility modifier := by
    intro head
    simp only [Head.withVisibility, insertVisibility_insertVisibility]
  have hroot := mapText_mapText hhead (fun (_ : LeafKind) (_ : List String) => rfl) file.root
  exact SourceFile.mk.injEq .. ▸ ⟨rfl, hroot⟩

theorem CleanText.withVisibility (h : file.CleanText)
    (hw : ∀ d ∈ file.root.postorder, startsWithWord d.signature = true) :
    (file.withVisibility modifier).CleanText := by
  refine ⟨h.preamble, ?_⟩
  refine cleanText_of_mem_mapText h.declarations (fun c hc hclean l hl => ?_)
    fun _ _ hlines => hlines
  rcases List.mem_append.1 hl with hl | hl
  · exact hclean l (List.mem_append_left _ hl)
  · have hsignature : Clean c.head.signature := hclean _ (by simp)
    rw [List.mem_singleton.1 hl]
    exact insertVisibility_cases modifier hsignature
      (clean_insertModifier modifier (hw c hc) hsignature)

end SourceFile

end HouseStyle
