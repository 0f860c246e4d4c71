import HouseStyle.Declaration.Layout
import HouseStyle.Proofs.Text.Line
import HouseStyle.Proofs.Text.Word

/-!
# What a shape says about its signature

A shape is found from the words of a signature and from its last character.  The reader goes by the
shape and the writer by the last character, so both sides need to know how the two are tied.

* `getLast?_of_fits`: the last character that a shape implies.
* `classify_congr`: the line below counts only under a signature that ends with `=`.
* `fits_emptyClass_of_endsLine`: a class that ends with braces on its line has no body.
-/

namespace HouseStyle

open Text

/-! ## Ends of texts -/

theorem rest_suffix_of_mem_wordsFrom {w : Word} {text : List Char} {inside : Bool}
    (h : w ∈ wordsFrom inside text) : w.rest <:+ text := by
  induction text generalizing inside with
  | nil => cases h
  | cons c cs ih =>
    rw [wordsFrom] at h
    split at h
    · rcases List.mem_cons.1 h with rfl | h
      · exact List.dropWhile_suffix isWord
      · exact (ih h).trans (List.suffix_cons c cs)
    · exact (ih h).trans (List.suffix_cons c cs)

theorem rest_suffix_of_mem_words {w : Word} {text : List Char} (h : w ∈ words text) :
    w.rest <:+ text :=
  rest_suffix_of_mem_wordsFrom h

theorem endsLine_iff {ending : String} {text : List Char} :
    Shape.endsLine ending text = true ↔ ending.toList <:+ text ∧ '\n' ∉ text := by
  simp [Shape.endsLine, List.isSuffixOf_iff_suffix]

theorem getLast?_of_suffix {a b : List Char} {c : Char} (h : a <:+ b)
    (ha : a.getLast? = some c) : b.getLast? = some c := by
  obtain ⟨s, rfl⟩ := h
  rw [List.getLast?_append, ha]
  rfl

theorem getLast?_of_endsLine {ending : String} {text : List Char} {c : Char}
    (h : Shape.endsLine ending text = true) (hc : ending.toList.getLast? = some c) :
    text.getLast? = some c :=
  getLast?_of_suffix (endsLine_iff.1 h).1 hc

theorem getLast?_of_hasBody {ending : String} {text : List Char} {c : Char}
    (h : Shape.hasBody ending text = true) (hc : ending.toList.getLast? = some c) :
    text.getLast? = some c := by
  obtain ⟨w, hw, hp⟩ := List.any_eq_true.1 h
  have hs := rest_suffix_of_mem_words hw
  cases hr : w.rest with
  | nil => simp [Shape.arguments?, hr] at hp
  | cons d rest =>
    by_cases hd : d = '('
    · subst hd
      simp only [Shape.arguments?, hr, Bool.and_eq_true] at hp
      rw [hr] at hs
      exact getLast?_of_suffix ((List.suffix_cons _ _).trans hs) (getLast?_of_endsLine hp.1 hc)
    · simp [Shape.arguments?, hr, hd] at hp

theorem endsWithAny_eq_contains {endings : List Char} {signature : String} {c : Char}
    (h : signature.toList.getLast? = some c) :
    endsWithAny endings signature = endings.contains c := by
  rw [endsWithAny, h]

/-! ## The last character of a shape -/

/-- The character that ends every signature of the shape, if there is one. -/
def Shape.last? : Shape → Option Char
  | .enum | .openClass => none
  | .emptyClass | .emptyMethod => some '\x7d'
  | .fieldClass | .multilineField => some '='
  | .abstractMethod | .field => some ';'
  | .openMethod => some '\x7b'

theorem getLast?_of_fits {signature : String} {next : Option String} {shape : Shape} {c : Char}
    (h : shape.fits signature next = true) (hc : shape.last? = some c) :
    signature.toList.getLast? = some c := by
  cases shape with
  | enum | openClass => cases hc
  | emptyClass =>
    cases hc
    obtain ⟨w, hw, hp⟩ := List.any_eq_true.1 h
    rw [Bool.and_eq_true] at hp
    exact getLast?_of_suffix (rest_suffix_of_mem_words hw) (getLast?_of_endsLine hp.2 rfl)
  | fieldClass =>
    cases hc
    simp only [Shape.fits, Bool.and_eq_true, beq_iff_eq] at h
    exact h.1
  | abstractMethod =>
    cases hc
    obtain ⟨w, hw, hp⟩ := List.any_eq_true.1 h
    simp only [Shape.hasAbstractBody, Bool.and_eq_true] at hp
    exact getLast?_of_suffix (rest_suffix_of_mem_words hw) (getLast?_of_endsLine hp.2.1 rfl)
  | emptyMethod => cases hc; exact getLast?_of_hasBody h rfl
  | openMethod => cases hc; exact getLast?_of_hasBody h rfl
  | field => cases hc; simpa [Shape.fits] using h
  | multilineField => cases hc; simpa [Shape.fits] using h

/-! ## Lines that begin with a word -/

/-- A line that begins with a word is neither a comment nor an annotation. -/
theorem head?_of_startsWithWord {line : String} (h : startsWithWord line = true) :
    ∃ c, isWord c = true ∧ (unindented line).head? = some c := by
  unfold startsWithWord leadingWord? at h
  cases hu : unindented line with
  | nil => rw [hu] at h; cases h
  | cons c cs =>
    cases hc : isWord c with
    | true => exact ⟨c, hc, rfl⟩
    | false =>
      rw [hu, List.takeWhile_cons_of_neg (by simp [hc])] at h
      cases h

theorem startsWith_of_startsWithWord {marker line : String} {c : Char}
    (h : startsWithWord line = true) (hm : marker.toList.head? = some c) (hc : isWord c = false) :
    startsWith marker line = false := by
  obtain ⟨d, hd, hhead⟩ := head?_of_startsWithWord h
  refine startsWith_eq_false_of_head hm hhead ?_
  rintro rfl
  exact Bool.false_ne_true (hc.symm.trans hd)

theorem isBlank_of_startsWithWord {line : String} (h : startsWithWord line = true) :
    isBlank line = false := by
  obtain ⟨c, hc, hhead⟩ := head?_of_startsWithWord h
  refine isBlank_eq_false_of_head hhead (Bool.eq_false_iff.2 fun hs => ?_)
  exact Bool.false_ne_true ((isWord_of_isSpace hs).symm.trans hc)

/-! ## The first shape that fits -/

theorem startsWithWord_of_classify {signature : String} {next : Option String} {shape : Shape}
    (h : classify signature next = some shape) : startsWithWord signature = true := by
  unfold classify at h
  split at h
  · next hs => exact hs
  · cases h

theorem fits_of_classify {signature : String} {next : Option String} {shape : Shape}
    (h : classify signature next = some shape) : shape.fits signature next = true := by
  rw [classify, if_pos (startsWithWord_of_classify h)] at h
  exact List.find?_some h

theorem getLast?_of_classify {signature : String} {next : Option String} {shape : Shape} {c : Char}
    (h : classify signature next = some shape) (hc : shape.last? = some c) :
    signature.toList.getLast? = some c :=
  getLast?_of_fits (fits_of_classify h) hc

/-- The line below a signature counts only as the opener of an anonymous class, and only if the
signature ends with `=`. -/
theorem classify_congr {signature : String} {next next' : Option String}
    (h : signature.toList.getLast? = some '=' →
      next.any Shape.isOpener = next'.any Shape.isOpener) :
    classify signature next = classify signature next' := by
  have hfits : Shape.fits signature next = Shape.fits signature next' := by
    funext shape
    cases shape <;> try rfl
    by_cases hl : signature.toList.getLast? = some '='
    · simp only [Shape.fits, h hl]
    · have hb : (signature.toList.getLast? == some '=') = false := beq_eq_false_iff_ne.2 hl
      simp only [Shape.fits, hb, Bool.false_and]
  rw [classify, classify, hfits]

/-- Whether a signature declares an enum or a class is decided before the line below counts. -/
theorem classify_eq_ite (signature : String) (next : Option String) :
    classify signature next =
      if startsWithWord signature then
        if Shape.fits signature none .enum then some .enum
        else if Shape.fits signature none .emptyClass then some .emptyClass
        else if Shape.fits signature none .openClass then some .openClass
        else [.fieldClass, .abstractMethod, .emptyMethod, .openMethod, .field,
          .multilineField].find? (Shape.fits signature next)
      else none := by
  simp only [classify, Shape.all, List.find?_cons,
    show Shape.fits signature next .enum = Shape.fits signature none .enum from rfl,
    show Shape.fits signature next .emptyClass = Shape.fits signature none .emptyClass from rfl,
    show Shape.fits signature next .openClass = Shape.fits signature none .openClass from rfl]
  cases Shape.fits signature none .enum <;> cases Shape.fits signature none .emptyClass <;>
    cases Shape.fits signature none .openClass <;> rfl

/-- Any line may follow a signature without changing what it opens, unless it ends with `=` and
opens a field. -/
theorem classify_of_classify {signature : String} {next : Option String} {shape : Shape}
    (h : classify signature next = some shape) (hf : shape ≠ .fieldClass)
    (hm : shape ≠ .multilineField) (next' : Option String) :
    classify signature next' = some shape := by
  by_cases hl : signature.toList.getLast? = some '='
  · have hlast : ∀ c, shape.last? = some c → c = '=' := fun c hc =>
      Option.some.inj ((getLast?_of_classify h hc).symm.trans hl)
    cases shape with
    | enum | openClass =>
      rw [classify_eq_ite] at h ⊢
      have hfind : ∀ n, [.fieldClass, .abstractMethod, .emptyMethod, .openMethod, .field,
          .multilineField].find? (Shape.fits signature n) ≠ some .enum ∧
          [.fieldClass, .abstractMethod, .emptyMethod, .openMethod, .field,
          .multilineField].find? (Shape.fits signature n) ≠ some .openClass := fun n =>
        ⟨fun hn => absurd (List.mem_of_find?_eq_some hn) (by decide),
          fun hn => absurd (List.mem_of_find?_eq_some hn) (by decide)⟩
      grind
    | fieldClass => exact absurd rfl hf
    | multilineField => exact absurd rfl hm
    | emptyClass | abstractMethod | emptyMethod | openMethod | field =>
      exact absurd (hlast _ rfl) (by decide)
  · rw [← h]
    exact classify_congr fun h' => absurd h' hl

/-- The value of a field on several lines does not begin like an anonymous class. -/
theorem not_isOpener_of_classify {signature : String} {next : Option String}
    (h : classify signature next = some .multilineField) : next.any Shape.isOpener = false := by
  cases hn : next.any Shape.isOpener with
  | false => rfl
  | true =>
    have hf : Shape.fits signature next .fieldClass = true := by
      simp [Shape.fits, hn, getLast?_of_classify h rfl]
    rw [classify_eq_ite] at h
    simp only [List.find?_cons, hf] at h
    repeat' split at h
    all_goals cases h

theorem classify_none_of_multilineField {signature : String} {next : Option String}
    (h : classify signature next = some .multilineField) :
    classify signature none = some .multilineField := by
  rw [← h]
  exact classify_congr fun _ => by rw [not_isOpener_of_classify h]; rfl

theorem isOpener_of_classify {signature : String} {opener : String}
    (h : classify signature (some opener) = some .fieldClass) : Shape.isOpener opener = true := by
  have hf := fits_of_classify h
  simp only [Shape.fits, Bool.and_eq_true] at hf
  exact hf.2

theorem isBlank_of_isOpener {line : String} (h : Shape.isOpener line = true) :
    isBlank line = false := by
  simp only [Shape.isOpener, Bool.and_eq_true] at h
  have hnew : startsWith "new " line = true := h.1.1
  exact isBlank_of_startsWith (c := 'n') rfl rfl hnew

theorem not_fits_emptyClass_of_classify {signature : String} {next : Option String}
    (h : classify signature next = some .openClass) :
    Shape.fits signature next .emptyClass = false := by
  rw [classify, if_pos (startsWithWord_of_classify h)] at h
  cases he : Shape.fits signature next .enum with
  | true => simp [Shape.all, he] at h
  | false =>
    cases hc : Shape.fits signature next .emptyClass with
    | false => rfl
    | true => simp [Shape.all, he, hc] at h

/-! ## Classes that end on their own line -/

theorem two_le_length_of_introduces {keyword : String} {w : Word}
    (h : Shape.introduces keyword w = true) : 2 ≤ w.rest.length := by
  rw [Shape.introduces, Word.argument?] at h
  split at h
  · next rest hr =>
    rw [hr]
    cases rest with
    | nil => split at h <;> simp [leadingWord?] at h
    | cons c cs => simp
  · cases h

theorem fits_emptyClass_of_endsLine {signature : String} {next : Option String}
    (hc : Shape.fits signature next .openClass = true)
    (he : Shape.endsLine "\x7b\x7d" signature.toList = true) :
    Shape.fits signature next .emptyClass = true := by
  obtain ⟨w, hw, hi⟩ := List.any_eq_true.1 hc
  obtain ⟨hs, hn⟩ := endsLine_iff.1 he
  have hrest := rest_suffix_of_mem_words hw
  refine List.any_eq_true.2 ⟨w, hw, ?_⟩
  rw [Bool.and_eq_true]
  refine ⟨hi, endsLine_iff.2 ⟨?_, fun hm => hn (hrest.subset hm)⟩⟩
  exact List.suffix_of_suffix_length_le hs hrest (two_le_length_of_introduces hi)

theorem endsWith_of_fits_emptyClass {signature : String} {next : Option String}
    (h : Shape.fits signature next .emptyClass = true) :
    "\x7b\x7d".toList <:+ signature.toList := by
  obtain ⟨w, hw, hp⟩ := List.any_eq_true.1 h
  rw [Bool.and_eq_true] at hp
  exact (endsLine_iff.1 hp.2).1.trans (rest_suffix_of_mem_words hw)

end HouseStyle
