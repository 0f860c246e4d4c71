import HouseStyle.Proofs.CodeLines
import HouseStyle.Proofs.Declaration.Source

/-!
# Code lines kept by writing

Writing a file that was read gives its lines of code back, in order and with nothing added.  One
kind of line can be missing.  The writer takes a class to be closed by its signature if that ends
with `}`, while the reader wants `{}` there; a class between the two loses its closing line.

* `codeLines_of_parse`: the lines of code of a file are its preamble and the source of its root.
* `codeLines_compose`: what writing keeps of the source of a tree, and how many lines it loses.
* `codeLines_compose_iff`: **a file keeps all its lines of code exactly if no class signature ends
  with `}` but not with `{}`.**
-/

namespace HouseStyle

open Text

/-! ## Blank lines between members -/

@[simp] theorem codeLines_gap (before : Option Neighbor) (next : Neighbor) :
    codeLines (gap before next) = [] := by
  unfold gap
  split
  · split <;> rfl
  · rfl

theorem codeLines_composeBody {lines : List String} (h : ∀ l ∈ lines, isBlank l = false) :
    ∀ before, codeLines (composeBody before lines) = lines := by
  induction lines with
  | nil => intro _; rfl
  | cons line lines ih =>
    intro before
    rw [composeBody, codeLines_append, codeLines_gap, List.nil_append,
      codeLines_cons_of_not_isBlank (h line (by simp)), ih (fun l hl => h l (by simp [hl]))]

theorem codeLines_closing (endings : List Char) (signature : String) :
    codeLines (closing endings signature) = closing endings signature := by
  refine codeLines_eq_self fun l hl => ?_
  unfold closing at hl
  split at hl
  · cases hl
  · rw [List.mem_singleton.1 hl]
    exact isBlank_closingLine rfl _

namespace Declaration

/-! ## Written and read -/

theorem codeLines_compose_leaf {kind : LeafKind} {head : Head} {lines : List String}
    (h : ∀ l ∈ (leaf kind head lines).sourceLines, isBlank l = false) :
    codeLines (leaf kind head lines).compose = (leaf kind head lines).sourceLines := by
  simp only [sourceLines, List.mem_append, List.mem_cons] at h
  have hheader := codeLines_eq_self (fun l hl => h l (Or.inl hl))
  have hlines := fun l hl => h l (Or.inr (Or.inr (Or.inl hl)))
  rw [compose, sourceLines, codeLines_append, hheader,
    codeLines_cons_of_not_isBlank (h _ (Or.inr (Or.inl rfl)))]
  congr 2
  cases kind
  · rw [composeLeaf, codeLines_append, codeLines_eq_self hlines, codeLines_closing, leafEnd]
  · rw [composeLeaf, codeLines_eq_self hlines, leafEnd, List.append_nil]
  · rw [composeLeaf, codeLines_append, codeLines_composeBody hlines, codeLines_closing, leafEnd]

theorem codeLines_composeMembers (members : List Declaration) :
    ∀ before, codeLines (composeMembers before members) =
      members.flatMap fun d => codeLines d.compose := by
  induction members with
  | nil => intro _; rfl
  | cons d ds ih =>
    intro before
    rw [composeMembers, codeLines_append, codeLines_append, codeLines_gap, ih, List.flatMap_cons,
      List.nil_append]

/-- Whether a declaration is a class whose closing line is read but not written. -/
def dropsCloser : Declaration → Bool
  | .scope none head _ =>
    endsWithAny ['\x7d'] head.signature && !Shape.fits head.signature none .emptyClass
  | _ => false

theorem codeLines_composeClosing (opener : Option String) (signature : String) :
    codeLines (composeClosing opener signature) = composeClosing opener signature := by
  cases opener with
  | none => exact codeLines_closing _ _
  | some opener => exact codeLines_cons_of_not_isBlank (isBlank_closingLine rfl _)

/-- The writer closes a scope as the reader wants it, but for the classes that drop their closer. -/
theorem composeClosing_scopeEnd (opener : Option String) (head : Head)
    (members : List Declaration) :
    (composeClosing opener head.signature).Sublist (scopeEnd opener head.signature) ∧
      (composeClosing opener head.signature).length +
          (if dropsCloser (.scope opener head members) then 1 else 0) =
        (scopeEnd opener head.signature).length := by
  cases opener with
  | some opener => exact ⟨List.Sublist.refl _, rfl⟩
  | none =>
    simp only [composeClosing, closing, scopeEnd, dropsCloser]
    by_cases hf : Shape.fits head.signature none .emptyClass = true
    · simp [hf, endsWithAny_eq_contains (getLast?_of_fits hf rfl)]
    · by_cases he : endsWithAny ['\x7d'] head.signature = true <;> simp [hf, he]

theorem codeLines_members {members : List Declaration}
    (h : ∀ d ∈ members, (codeLines d.compose).Sublist d.sourceLines ∧
      (codeLines d.compose).length + d.postorder.countP dropsCloser = d.sourceLines.length) :
    (members.flatMap fun d => codeLines d.compose).Sublist (sourceLinesAll members) ∧
      (members.flatMap fun d => codeLines d.compose).length +
        (postorderAll members).countP dropsCloser = (sourceLinesAll members).length := by
  induction members with
  | nil => exact ⟨List.Sublist.refl _, rfl⟩
  | cons d ds ih =>
    obtain ⟨hsub, hlen⟩ := h d (by simp)
    obtain ⟨hsubs, hlens⟩ := ih fun e he => h e (by simp [he])
    rw [List.flatMap_cons, sourceLinesAll, postorderAll]
    refine ⟨hsub.append hsubs, ?_⟩
    simp only [List.length_append, List.countP_append]
    omega

/-- Writing keeps the lines of the source but for one closing line of every class that drops it. -/
theorem codeLines_compose (d : Declaration) :
    (∀ l ∈ d.sourceLines, isBlank l = false) →
      (codeLines d.compose).Sublist d.sourceLines ∧
        (codeLines d.compose).length + d.postorder.countP dropsCloser = d.sourceLines.length := by
  induction d using ind with
  | leaf kind head lines =>
    intro h
    rw [codeLines_compose_leaf h]
    exact ⟨List.Sublist.refl _, by simp [postorder, dropsCloser]⟩
  | scope opener head members ih =>
    intro h
    simp only [sourceLines, List.mem_append, List.mem_cons] at h
    have hheader := codeLines_eq_self fun l hl => h l (Or.inl hl)
    have hopener := codeLines_eq_self fun l hl => h l (Or.inr (Or.inr (Or.inl (Or.inl hl))))
    have hmembers : (members.flatMap fun d => codeLines d.compose).Sublist (sourceLinesAll members) ∧
        (members.flatMap fun d => codeLines d.compose).length +
          (postorderAll members).countP dropsCloser = (sourceLinesAll members).length :=
      codeLines_members fun d hd => ih d hd fun l hl => h l (Or.inr (Or.inr (Or.inl (Or.inr
        (by rw [sourceLinesAll_eq_flatMap]; exact List.mem_flatMap.2 ⟨d, hd, hl⟩)))))
    obtain ⟨hsub, hlen⟩ := composeClosing_scopeEnd opener head members
    have hwritten : codeLines (scope opener head members).compose =
        head.header ++ head.signature :: (opener.toList ++
          (members.flatMap fun d => codeLines d.compose) ++
          composeClosing opener head.signature) := by
      rw [compose, codeLines_append, hheader,
        codeLines_cons_of_not_isBlank (h _ (Or.inr (Or.inl rfl))), codeLines_append,
        codeLines_append, hopener, codeLines_composeMembers, codeLines_composeClosing]
    rw [hwritten]
    constructor
    · exact ((((List.Sublist.refl _).append hmembers.1).append hsub).cons_cons _).append_left _
    · simp only [sourceLines, postorder, List.length_append, List.length_cons, List.countP_append,
        List.countP_singleton]
      omega

/-- Writing gives the whole source back exactly if no class drops its closing line. -/
theorem codeLines_compose_eq_iff {d : Declaration} (h : ∀ l ∈ d.sourceLines, isBlank l = false) :
    codeLines d.compose = d.sourceLines ↔ ∀ c ∈ d.postorder, dropsCloser c = false := by
  obtain ⟨hsub, hlen⟩ := codeLines_compose d h
  have hcount : codeLines d.compose = d.sourceLines ↔ d.postorder.countP dropsCloser = 0 := by
    constructor
    · intro he
      rw [he] at hlen
      omega
    · intro h0
      exact hsub.eq_of_length (by omega)
  rw [hcount, List.countP_eq_zero]
  simp

/-- Whether a class that ends with a brace on the line of its signature ends with both braces. -/
def ClosesOnce : Declaration → Prop
  | .scope none head _ =>
    endsWithAny ['\x7d'] head.signature = true → "\x7b\x7d".toList <:+ head.signature.toList
  | _ => True

instance : DecidablePred ClosesOnce
  | .scope none head _ => inferInstanceAs (Decidable (_ = true → _ <:+ head.signature.toList))
  | .scope (some _) _ _ | .leaf .. => inferInstanceAs (Decidable True)

/-- On lines without line feeds, the classes that drop their closing line are those whose signature
ends with one brace but not with both. -/
theorem Formed.dropsCloser_eq_false_iff {d : Declaration} (hf : d.Formed)
    (hn : '\n' ∉ d.signature.toList) : dropsCloser d = false ↔ d.ClosesOnce := by
  cases d with
  | leaf kind head lines => exact ⟨fun _ => trivial, fun _ => rfl⟩
  | scope opener head members =>
    cases opener with
    | some opener => exact ⟨fun _ => trivial, fun _ => rfl⟩
    | none =>
      obtain ⟨shape, hshape, hforms⟩ := hf.shaped
      have hfits := fits_of_classify hshape
      simp only [dropsCloser, Bool.and_eq_false_imp, Bool.not_eq_false']
      refine forall_congr' fun hends => ⟨endsWith_of_fits_emptyClass, fun hboth => ?_⟩
      cases hforms with
      | emptyClass => exact hfits
      | openClass _ => exact fits_emptyClass_of_endsLine hfits (endsLine_iff.2 ⟨hboth, hn⟩)

end Declaration

/-! ## Files -/

theorem exists_read_of_parse {lines : List String} {file : SourceFile}
    (h : SourceFile.parse lines = .ok file) :
    file.preamble = (codeLines lines).takeWhile isPreamble ∧
      Declaration.read ((codeLines lines).dropWhile isPreamble) = .ok (file.root, []) := by
  unfold SourceFile.parse at h
  cases hread : SourceFile.read (codeLines lines) with
  | error e => rw [hread] at h; cases h
  | ok f =>
    rw [hread] at h
    cases h
    unfold SourceFile.read at hread
    split at hread
    · cases hread
    · split at hread
      · cases hread
      · next hroot =>
        cases hread
        exact ⟨rfl, hroot⟩
      · cases hread

theorem codeLines_of_parse {lines : List String} {file : SourceFile}
    (h : SourceFile.parse lines = .ok file) :
    codeLines lines = file.preamble ++ file.root.sourceLines := by
  obtain ⟨hpreamble, hread⟩ := exists_read_of_parse h
  have hroot := Declaration.sourceLines_of_read file.root hread
  rw [List.append_nil] at hroot
  rw [hpreamble, ← hroot, List.takeWhile_append_dropWhile]

theorem formed_of_parse {lines : List String} {file : SourceFile}
    (h : SourceFile.parse lines = .ok file) : ∀ d ∈ file.root.postorder, d.Formed :=
  Declaration.formed_of_read file.root (exists_read_of_parse h).2

theorem mem_of_mem_sourceLines {lines : List String} {file : SourceFile}
    (h : SourceFile.parse lines = .ok file) {line : String} (hl : line ∈ file.root.sourceLines) :
    line ∈ codeLines lines := by
  rw [codeLines_of_parse h]
  exact List.mem_append_right _ hl

theorem signature_mem_of_parse {lines : List String} {file : SourceFile}
    (h : SourceFile.parse lines = .ok file) {d : Declaration} (hd : d ∈ file.root.postorder) :
    d.signature ∈ lines :=
  (List.mem_filter.1 (mem_of_mem_sourceLines h
    (Declaration.sourceLines_subset file.root d hd d.signature_mem_sourceLines))).1

/-- **A file keeps all its lines of code exactly if no class signature ends with `}` but not with
`{}`**; what it does keep stays in order. -/
theorem codeLines_compose_iff {lines : List String} {file : SourceFile}
    (hn : ∀ line ∈ lines, '\n' ∉ line.toList) (h : SourceFile.parse lines = .ok file) :
    (codeLines file.compose).Sublist (codeLines lines) ∧
      (codeLines file.compose = codeLines lines ↔
        ∀ d ∈ file.root.postorder, d.ClosesOnce) := by
  have hpreamble : codeLines file.preamble = file.preamble := by
    refine codeLines_eq_self fun l hl => isBlank_of_mem_codeLines (?_ : l ∈ codeLines lines)
    rw [codeLines_of_parse h]
    exact List.mem_append_left _ hl
  have hroot : ∀ l ∈ file.root.sourceLines, isBlank l = false := fun l hl =>
    isBlank_of_mem_codeLines (mem_of_mem_sourceLines h hl)
  rw [codeLines_of_parse h, SourceFile.compose, codeLines_append, hpreamble]
  constructor
  · exact (Declaration.codeLines_compose file.root hroot).1.append_left _
  · rw [List.append_cancel_left_eq, Declaration.codeLines_compose_eq_iff hroot]
    refine forall_congr' fun d => forall_congr' fun hd => ?_
    exact (formed_of_parse h d hd).dropsCloser_eq_false_iff (hn _ (signature_mem_of_parse h hd))

/-- A class inside a class: both are closed again. -/
theorem codeLines_compose_nested :
    ∃ file, SourceFile.parse ["class A \x7b", "  class B \x7b", "  \x7d", "\x7d"] = .ok file ∧
      codeLines file.compose = ["class A \x7b", "  class B \x7b", "  \x7d", "\x7d"] := by
  have h : SourceFile.parse ["class A \x7b", "  class B \x7b", "  \x7d", "\x7d"] =
      .ok ⟨[], .scope none ⟨[], "class A \x7b"⟩ [.scope none ⟨[], "  class B \x7b"⟩ []]⟩ := by
    decide +kernel
  exact ⟨_, h, ((codeLines_compose_iff (by decide) h).2.2 (by decide)).trans (by decide)⟩

/-- A comment behind the brace that opens a class ends with a brace of its own: the class is read as
open and written as closed. -/
theorem codeLines_compose_ne_of_comment :
    ∃ file, SourceFile.parse ["class Pair \x7b // holds \x7ba, b\x7d", "  int a;", "\x7d"] = .ok file ∧
      codeLines file.compose ≠
        codeLines ["class Pair \x7b // holds \x7ba, b\x7d", "  int a;", "\x7d"] :=
  ⟨⟨[], .scope none ⟨[], "class Pair \x7b // holds \x7ba, b\x7d"⟩ [.leaf .field ⟨[], "  int a;"⟩ []]⟩,
    by decide +kernel, by decide⟩

end HouseStyle
