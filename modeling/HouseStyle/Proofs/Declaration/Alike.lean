import HouseStyle.Proofs.Declaration.Reread
import Mathlib.Data.List.Forall2

/-!
# Declarations that read alike

A pass may change signatures, comments and raw lines and the order of members.  What the reader asks
about a declaration stays the same as long as each of its parts answers as before: the signature has
the same depth, last character and shape and still shows a name, a header line stays or remains a
comment, no raw line becomes a closing line, and the members keep their heads.

* `SignatureAlike`, `LineAlike`, `RawAlike`: parts that answer as before.
* `Alike`: declarations made of such parts.
* `Stable.of_alike`: **what is alike a stable declaration is stable.**
* `SourceFile.Stable.of_alike`: the same for files.
-/

namespace HouseStyle

open Text

/-! ## Parts -/

/-- A signature that answers all that the reader asks as another one does. -/
structure SignatureAlike (s s' : String) : Prop where
  indentation : indentation s' = indentation s
  spaces : leadingSpaces s' = leadingSpaces s
  last : s'.toList.getLast? = s.toList.getLast?
  shape : ∀ next, classify s' next = classify s next
  named : ∀ kind : Kind, (kind.name? s').isSome = (kind.name? s).isSome

theorem SignatureAlike.refl (s : String) : SignatureAlike s s :=
  ⟨rfl, rfl, rfl, fun _ => rfl, fun _ => rfl⟩

/-- A line is another one, or both are comments of one depth. -/
def LineAlike (l l' : String) : Prop :=
  l' = l ∨ Declaration.isComment l = true ∧ Declaration.isComment l' = true ∧
    leadingSpaces l' = leadingSpaces l

/-- A head that answers all that the reader asks as another one does. -/
structure HeadAlike (h h' : Head) : Prop where
  header : List.Forall₂ LineAlike h.header h'.header
  signature : SignatureAlike h.signature h'.signature

/-- A raw line of the same depth that is no closing line unless it was there before. -/
structure RawAlike (l l' : String) : Prop where
  indentation : indentation l' = indentation l
  closer : ∀ dent, l' = closingLine dent "\x7d" → l' = l

/-- Raw lines that come from others, and for a field begin as they do. -/
structure LinesAlike (kind : LeafKind) (ls ls' : List String) : Prop where
  raw : ∀ l' ∈ ls', ∃ l ∈ ls, RawAlike l l'
  value : kind = .field →
    ls'.head?.any Shape.isOpener = ls.head?.any Shape.isOpener ∧ (ls' = [] → ls = [])

theorem SignatureAlike.endsWithAny_eq {s s' : String} (h : SignatureAlike s s')
    (endings : List Char) : endsWithAny endings s' = endsWithAny endings s := by
  rw [endsWithAny, endsWithAny, h.last]

theorem LinesAlike.eq_nil {kind : LeafKind} {ls' : List String} (h : LinesAlike kind [] ls') :
    ls' = [] := by
  refine List.eq_nil_iff_forall_not_mem.2 fun l' hl' => ?_
  obtain ⟨l, hl, -⟩ := h.raw l' hl'
  cases hl

theorem LinesAlike.closingLine_not_mem {kind : LeafKind} {ls ls' : List String} {dent : Nat}
    (h : LinesAlike kind ls ls') (hn : closingLine dent "\x7d" ∉ ls) :
    closingLine dent "\x7d" ∉ ls' := by
  intro hmem
  obtain ⟨l, hl, hraw⟩ := h.raw _ hmem
  rw [hraw.closer dent rfl] at hn
  exact hn hl

theorem LineAlike.refl (l : String) : LineAlike l l := Or.inl rfl

theorem RawAlike.refl (l : String) : RawAlike l l := ⟨rfl, fun _ _ => rfl⟩

theorem LinesAlike.refl (kind : LeafKind) (ls : List String) : LinesAlike kind ls ls :=
  ⟨fun l hl => ⟨l, hl, .refl l⟩, fun _ => ⟨rfl, id⟩⟩

theorem exists_of_mem_of_forall₂ {α β : Type} {r : α → β → Prop} {as : List α} {bs : List β}
    (h : List.Forall₂ r as bs) {b : β} (hb : b ∈ bs) : ∃ a ∈ as, r a b := by
  induction h with
  | nil => cases hb
  | cons hr _ ih =>
    rcases List.mem_cons.1 hb with rfl | hb
    · exact ⟨_, List.mem_cons_self, hr⟩
    · obtain ⟨a, ha, hab⟩ := ih hb
      exact ⟨a, List.mem_cons_of_mem _ ha, hab⟩

theorem HeadAlike.refl (h : Head) : HeadAlike h h :=
  ⟨List.forall₂_same.2 fun l _ => .refl l, .refl _⟩

namespace LineAlike

variable {l l' : String}

theorem isComment_eq (h : LineAlike l l') : Declaration.isComment l' = Declaration.isComment l := by
  rcases h with rfl | ⟨hc, hc', -⟩
  · rfl
  · rw [hc, hc']

theorem not_startsWith {marker line : String} {c : Char} (h : Declaration.isComment line = true)
    (hm : marker.toList.head? = some c) (hc : c ≠ '/') : startsWith marker line = false :=
  startsWith_eq_false_of_head hm (head?_of_startsWith (c := '/') rfl h) hc

theorem isMarked_eq (h : LineAlike l l') : isMarked l' = isMarked l := by
  rcases h with rfl | ⟨hc, hc', -⟩
  · rfl
  · rw [isMarked, isMarked, not_startsWith (c := '@') hc rfl (by decide),
      not_startsWith (c := '@') hc' rfl (by decide)]

theorem isBlank_of_isComment {line : String} (h : Declaration.isComment line = true) :
    isBlank line = false :=
  isBlank_of_startsWith (c := '/') rfl rfl h

theorem indentation_eq (h : LineAlike l l') : indentation l' = indentation l := by
  rcases h with rfl | ⟨hc, hc', hs⟩
  · rfl
  · rw [indentation_of_not_isBlank (isBlank_of_isComment hc),
      indentation_of_not_isBlank (isBlank_of_isComment hc'), hs]

theorem isOpener_eq (h : LineAlike l l') : Shape.isOpener l' = Shape.isOpener l := by
  have hcomment : ∀ {line : String}, Declaration.isComment line = true →
      Shape.isOpener line = false := by
    intro line hc
    refine Bool.eq_false_iff.2 fun ho => ?_
    simp only [Shape.isOpener, Bool.and_eq_true] at ho
    have hnew : startsWith "new " line = true := ho.1.1
    rw [not_startsWith (c := 'n') hc rfl (by decide)] at hnew
    cases hnew
  rcases h with rfl | ⟨hc, hc', -⟩
  · rfl
  · rw [hcomment hc, hcomment hc']

theorem rawAlike (h : LineAlike l l') : RawAlike l l' := by
  refine ⟨h.indentation_eq, fun dent hcl => ?_⟩
  rcases h with rfl | ⟨-, hc', -⟩
  · rfl
  · have hhead := head?_of_startsWith (c := '/') rfl hc'
    rw [hcl, unindented_closingLine rfl] at hhead
    cases hhead

theorem isPreamble_of_isComment {line : String} (h : Declaration.isComment line = true) :
    isPreamble line = (leadingSpaces line == 0) := by
  have hhead := head?_of_startsWith (c := '/') rfl h
  have hline := toList_eq_indented line
  cases hn : leadingSpaces line with
  | zero =>
    rw [hn, List.replicate_zero, List.nil_append] at hline
    refine List.any_eq_true.2 ⟨"//", by simp, ?_⟩
    rw [hline]
    exact h
  | succ n =>
    rw [hn] at hline
    simp [isPreamble, hline, List.replicate_succ, List.isPrefixOf]

theorem isPreamble_eq (h : LineAlike l l') : isPreamble l' = isPreamble l := by
  rcases h with rfl | ⟨hc, hc', hs⟩
  · rfl
  · rw [isPreamble_of_isComment hc, isPreamble_of_isComment hc', hs]

end LineAlike

/-! ## Declarations -/

namespace Declaration

theorem isPreamble_firstLine {d d' : Declaration} (hh : List.Forall₂ LineAlike d.header d'.header)
    (hs : isPreamble d.signature = false → isPreamble d'.signature = false)
    (h : isPreamble d.firstLine = false) : isPreamble d'.firstLine = false := by
  rw [firstLine] at h ⊢
  generalize d.header = ls at hh h
  generalize d'.header = ls' at hh
  cases hh with
  | nil => exact hs h
  | cons hll _ => exact hll.isPreamble_eq.trans h

/-- A declaration made of parts that answer as those of another one do. -/
inductive Alike : Declaration → Declaration → Prop
  | leaf {kind : LeafKind} {head head' : Head} {ls ls' : List String} (hh : HeadAlike head head')
      (hl : LinesAlike kind ls ls') : Alike (.leaf kind head ls) (.leaf kind head' ls')
  | scope {opener : Option String} {head head' : Head} {ms ms' : List Declaration}
      (hh : HeadAlike head head') (hm : ∀ m' ∈ ms', ∃ m ∈ ms, HeadAlike m.head m'.head) :
      Alike (.scope opener head ms) (.scope opener head' ms')

variable {d d' : Declaration}

theorem Alike.head (h : Alike d d') : HeadAlike d.head d'.head := by
  cases h with
  | leaf hh _ => exact hh
  | scope hh _ => exact hh

theorem Alike.kind (h : Alike d d') : d'.kind = d.kind := by
  cases h with
  | @leaf kind => cases kind <;> rfl
  | @scope opener => cases opener <;> rfl

theorem forall₂_dropWhile_isComment {ls ls' : List String} (h : List.Forall₂ LineAlike ls ls') :
    List.Forall₂ LineAlike (ls.dropWhile isComment) (ls'.dropWhile isComment) := by
  induction h with
  | nil => exact .nil
  | @cons l l' _ _ hl hls ih =>
    rw [List.dropWhile_cons, List.dropWhile_cons, hl.isComment_eq]
    split
    · exact ih
    · exact .cons hl hls

theorem all_isMarked_of_forall₂ {ls ls' : List String} (h : List.Forall₂ LineAlike ls ls') :
    ls'.all isMarked = ls.all isMarked := by
  induction h with
  | nil => rfl
  | cons hl _ ih => rw [List.all_cons, List.all_cons, hl.isMarked_eq, ih]

theorem indentation_headLines {n : Nat} (hh : HeadAlike d.head d'.head)
    (h : ∀ l ∈ d.headLines, Text.indentation l = .spaces n) :
    ∀ l ∈ d'.headLines, Text.indentation l = .spaces n := by
  intro l' hl'
  rcases List.mem_append.1 hl' with hl' | hl'
  · obtain ⟨l, hl, hll⟩ := exists_of_mem_of_forall₂ hh.header hl'
    rw [hll.indentation_eq]
    exact h l (List.mem_append_left _ hl)
  · rw [List.mem_singleton.1 hl', show Text.indentation d'.signature = Text.indentation d.signature
      from hh.signature.indentation]
    exact h _ d.signature_mem_headLines

theorem Aligned.of_alike (hd : d.Aligned) (h : Alike d d') : d'.Aligned := by
  cases h with
  | leaf _ _ => trivial
  | @scope opener head head' ms ms' hh hm =>
    obtain ⟨n, hn, haligned⟩ := hd
    refine ⟨n, ?_, fun m' hm' => ?_⟩
    · cases opener with
      | none => rwa [closingSpaces, Option.getD_none, hh.signature.spaces]
      | some opener => exact hn
    · obtain ⟨m, hmem, hhead⟩ := hm m' hm'
      exact indentation_headLines hhead (haligned m hmem)

theorem Valued.of_alike (hd : d.Valued) (h : Alike d d') : d'.Valued := by
  cases h with
  | scope _ _ => trivial
  | @leaf kind head head' ls ls' hh hl =>
    cases kind with
    | enum => trivial
    | method => trivial
    | field =>
      intro hlast hnil
      rw [hh.signature.last] at hlast
      exact hd hlast ((hl.value rfl).2 hnil)

theorem Forms.of_alike {shape : Shape} (hf : Forms shape d) (ha : d'.Aligned) (h : Alike d d') :
    Forms shape d' := by
  cases h with
  | leaf hh hl =>
    cases hf with
    | closedEnum he =>
      obtain rfl := hl.eq_nil
      exact .closedEnum ((hh.signature.endsWithAny_eq _).trans he)
    | openEnum he hn =>
      rw [← hh.signature.spaces] at hn
      exact .openEnum ((hh.signature.endsWithAny_eq _).trans he) (hl.closingLine_not_mem hn)
    | abstractMethod =>
      obtain rfl := hl.eq_nil
      exact .abstractMethod
    | emptyMethod =>
      obtain rfl := hl.eq_nil
      exact .emptyMethod
    | openMethod hn =>
      rw [← hh.signature.spaces] at hn
      exact .openMethod (hl.closingLine_not_mem hn)
    | field =>
      obtain rfl := hl.eq_nil
      exact .field
    | multilineField hin =>
      refine .multilineField fun l' hl' => ?_
      obtain ⟨l, hmem, hraw⟩ := hl.raw l' hl'
      rw [isInside, hraw.indentation, hh.signature.spaces]
      exact hin l hmem
  | @scope opener head head' ms ms' hh hm =>
    obtain ⟨n, hn, haligned⟩ := ha
    have hdeep : ∀ m' ∈ ms', isInside (closingSpaces opener head') m'.firstLine = true := by
      intro m' hm'
      rw [isInside_of_indentation (haligned m' hm' _ m'.firstLine_mem_headLines)]
      exact decide_eq_true hn
    cases hf with
    | emptyClass =>
      obtain rfl : ms' = [] := by
        refine List.eq_nil_iff_forall_not_mem.2 fun m' hm' => ?_
        obtain ⟨m, hmem, -⟩ := hm m' hm'
        cases hmem
      exact .emptyClass
    | openClass _ => exact .openClass hdeep
    | fieldClass _ => exact .fieldClass hdeep

/-- The line below the signature bears on the shape as before. -/
theorem classify_lineBelow? {shape : Shape} (hc : classify d.signature d.lineBelow? = some shape)
    (hf : Forms shape d) (h : Alike d d') : classify d.signature d'.lineBelow? = some shape := by
  cases hf with
  | fieldClass _ => cases h; exact hc
  | multilineField _ =>
    cases h with
    | leaf _ hl =>
      rw [← hc]
      exact classify_congr fun _ => (hl.value rfl).1
  | _ => exact classify_of_classify hc (by decide) (by decide) _

theorem Formed.of_alike (hd : d.Formed) (ha : d'.Aligned) (h : Alike d d') : d'.Formed := by
  obtain ⟨shape, hshape, hforms⟩ := hd.shaped
  have hsignature := h.head.signature
  refine ⟨?_, ?_, shape, ?_, hforms.of_alike ha h⟩
  · have hheader := all_isMarked_of_forall₂ (forall₂_dropWhile_isComment h.head.header)
    exact hheader.trans hd.header
  · have hnamed := hsignature.named d.kind
    rw [name?, h.kind]
    exact hnamed.trans hd.named
  · rw [show classify d'.signature d'.lineBelow? = classify d.signature d'.lineBelow? from
      hsignature.shape _]
    exact classify_lineBelow? hshape hforms h

theorem dropsCloser_eq_of_alike (hd : d.Formed) (h : Alike d d') :
    dropsCloser d' = dropsCloser d := by
  obtain ⟨shape, hshape, hforms⟩ := hd.shaped
  cases h with
  | leaf _ _ => rfl
  | @scope opener head head' _ _ hh _ =>
    cases opener with
    | some opener => rfl
    | none =>
      have hlast := hh.signature.endsWithAny_eq ['\x7d']
      have hshape' : classify head'.signature none = some shape :=
        (hh.signature.shape none).trans hshape
      have hfits : Shape.fits head'.signature none .emptyClass =
          Shape.fits head.signature none .emptyClass := by
        cases hforms with
        | emptyClass => exact (fits_of_classify hshape').trans (fits_of_classify hshape).symm
        | openClass _ =>
          exact (not_fits_emptyClass_of_classify hshape').trans
            (not_fits_emptyClass_of_classify hshape).symm
      rw [dropsCloser, dropsCloser, hlast, hfits]

theorem Stable.of_alike (hd : d.Stable) (h : Alike d d') : d'.Stable := by
  have haligned := hd.aligned.of_alike h
  have hformed := hd.formed.of_alike haligned h
  refine ⟨hformed, haligned, hd.valued.of_alike h, ?_, fun ls' hls' l' hl' => ?_⟩
  · exact (dropsCloser_eq_of_alike hd.formed h).trans hd.closed
  · cases h with
    | @leaf kind head head' ls _ hh hl =>
      cases hls'
      obtain ⟨l, hmem, hraw⟩ := hl.raw l' hl'
      have hblank := hd.lines ls rfl l hmem
      refine Bool.eq_false_iff.2 fun hb => ?_
      have hindentation := hraw.indentation
      rw [indentation_of_not_isBlank hblank, Text.indentation, if_pos hb] at hindentation
      cases hindentation
    | scope _ _ => cases hls'

end Declaration

/-! ## Files -/

/-- **A file whose declarations are alike those of a stable file is stable.** -/
theorem SourceFile.Stable.of_alike {file file' : SourceFile} (h : file.Stable)
    (hpreamble : List.Forall₂ LineAlike file.preamble file'.preamble)
    (hfirst : isPreamble file'.root.firstLine = false)
    (hroot : ∀ d' ∈ file'.root.postorder, ∃ d ∈ file.root.postorder, Declaration.Alike d d') :
    file'.Stable := by
  refine ⟨fun l' hl' => ?_, hfirst, fun d' hd' => ?_⟩
  · obtain ⟨l, hl, hll⟩ := exists_of_mem_of_forall₂ hpreamble hl'
    rw [hll.isPreamble_eq]
    exact h.preamble l hl
  · obtain ⟨d, hd, halike⟩ := hroot d' hd'
    exact (h.declarations d hd).of_alike halike

end HouseStyle
