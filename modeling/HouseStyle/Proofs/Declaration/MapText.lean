import HouseStyle.Proofs.Declaration.Alike
import HouseStyle.Proofs.Text.Lines

/-!
# Passes that change the text of a tree

Three of the passes change heads and raw lines and leave the tree as it is.  What holds of every
head and of every list of raw lines then holds of the whole tree.

* `postorder_mapText`: the declarations of a changed tree.
* `exists_alike_of_mem_mapText`: they are alike those of the tree if their heads and lines are.
* `mapText_comp`: two changes one after the other.
* `mapText_mapText`: a change that finds nothing left to do at any head and list leaves the tree.
* `CleanText`: declarations whose lines can be cut from a text.
-/

namespace HouseStyle

open Text

namespace Declaration

variable {onHead : Head → Head} {onLines : LeafKind → List String → List String}

/-! ## Changed trees -/

theorem mapText_scope (opener : Option String) (head : Head) (members : List Declaration) :
    (scope opener head members).mapText onHead onLines =
      .scope opener (onHead head) (members.map (mapText onHead onLines)) := by
  rw [mapText, mapTextAll_eq_map]

theorem head_mapText (d : Declaration) : (d.mapText onHead onLines).head = onHead d.head := by
  cases d with
  | leaf kind head lines => rw [mapText, head_leaf, head_leaf]
  | scope opener head members => rw [mapText_scope, head_scope, head_scope]

theorem postorder_mapText (d : Declaration) :
    (d.mapText onHead onLines).postorder = d.postorder.map (mapText onHead onLines) := by
  induction d using ind with
  | leaf kind head lines => rfl
  | scope opener head members ih =>
    have hmembers : (members.map (mapText onHead onLines)).flatMap postorder =
        (members.flatMap postorder).map (mapText onHead onLines) := by
      rw [List.flatMap_map, List.map_flatMap]
      exact List.flatMap_congr ih
    rw [mapText_scope, postorder, postorder, postorderAll_eq_flatMap, postorderAll_eq_flatMap,
      hmembers, List.map_append, List.map_singleton, mapText_scope]

theorem mem_postorder_of_mem_members {d : Declaration} {opener : Option String} {head : Head}
    {members : List Declaration} (h : scope opener head members ∈ d.postorder) {m : Declaration}
    (hm : m ∈ members) : m ∈ d.postorder := by
  induction d using ind with
  | leaf kind head' lines => cases mem_postorder_leaf.1 h
  | scope opener' head' members' ih =>
    rcases mem_postorder_scope.1 h with ⟨c, hc, h⟩ | he
    · exact mem_postorder_scope.2 (Or.inl ⟨c, hc, ih c hc h⟩)
    · obtain ⟨-, -, rfl⟩ := Declaration.scope.inj he
      exact mem_postorder_scope.2 (Or.inl ⟨m, hm, m.self_mem_postorder⟩)

/-- A changed tree is alike the tree if every changed head and list of raw lines is. -/
theorem exists_alike_of_mem_mapText {d : Declaration}
    (hh : ∀ c ∈ d.postorder, HeadAlike c.head (onHead c.head))
    (hl : ∀ kind lines, LinesAlike kind lines (onLines kind lines)) :
    ∀ c' ∈ (d.mapText onHead onLines).postorder, ∃ c ∈ d.postorder, Alike c c' := by
  intro c' hc'
  rw [postorder_mapText] at hc'
  obtain ⟨c, hc, rfl⟩ := List.mem_map.1 hc'
  refine ⟨c, hc, ?_⟩
  have hhead := hh c hc
  cases c with
  | leaf kind head lines => exact .leaf hhead (hl kind lines)
  | scope opener head members =>
    rw [mapText_scope]
    refine .scope hhead fun m' hm' => ?_
    obtain ⟨m, hm, rfl⟩ := List.mem_map.1 hm'
    refine ⟨m, hm, ?_⟩
    rw [head_mapText]
    exact hh m (mem_postorder_of_mem_members hc hm)

/-- Two changes one after the other are one change. -/
theorem mapText_comp (onHead' : Head → Head) (onLines' : LeafKind → List String → List String)
    (d : Declaration) : (d.mapText onHead onLines).mapText onHead' onLines' =
      d.mapText (fun head => onHead' (onHead head)) fun kind lines =>
        onLines' kind (onLines kind lines) := by
  induction d using ind with
  | leaf kind head lines => rw [mapText, mapText, mapText]
  | scope opener head members ih =>
    rw [mapText_scope, mapText_scope, mapText_scope, List.map_map]
    exact congrArg _ (List.map_congr_left ih)

/-- A change that finds nothing left to do at any head and list of raw lines leaves the tree. -/
theorem mapText_mapText {onHead' : Head → Head} {onLines' : LeafKind → List String → List String}
    (hh : ∀ head, onHead' (onHead head) = onHead head)
    (hl : ∀ kind lines, onLines' kind (onLines kind lines) = onLines kind lines)
    (d : Declaration) :
    (d.mapText onHead onLines).mapText onHead' onLines' = d.mapText onHead onLines := by
  rw [mapText_comp, funext hh, funext fun kind => funext (hl kind)]

/-! ## Clean text -/

/-- The lines of text that a declaration holds itself. -/
def texts : Declaration → List String
  | .leaf _ head lines => head.header ++ head.signature :: lines
  | .scope opener head _ => head.header ++ head.signature :: opener.toList

/-- Whether all lines of a head can be cut from a text. -/
def CleanHead (head : Head) : Prop := ∀ l ∈ head.header ++ [head.signature], Clean l

/-- Whether all lines of text that a declaration holds itself can be cut from a text. -/
def CleanText (d : Declaration) : Prop := ∀ l ∈ d.texts, Clean l

theorem CleanText.cleanHead {d : Declaration} (h : d.CleanText) : CleanHead d.head := by
  intro l hl
  refine h l ?_
  cases d <;> simp only [texts, head_leaf, head_scope, List.mem_append, List.mem_cons,
    List.not_mem_nil, or_false] at hl ⊢ <;> tauto

theorem cleanText_leaf {kind : LeafKind} {head : Head} {lines : List String}
    (hh : CleanHead head) (hl : ∀ l ∈ lines, Clean l) : (leaf kind head lines).CleanText := by
  intro l h
  rw [texts, List.append_cons] at h
  rcases List.mem_append.1 h with h | h
  · exact hh l h
  · exact hl l h

theorem cleanText_scope {opener : Option String} {head : Head} {members : List Declaration}
    (hh : CleanHead head) (ho : ∀ l ∈ opener, Clean l) : (scope opener head members).CleanText := by
  intro l h
  rw [texts, List.append_cons] at h
  rcases List.mem_append.1 h with h | h
  · exact hh l h
  · exact ho l (Option.mem_toList.1 h)

theorem cleanText_of_mem_mapText {d : Declaration} (hd : ∀ c ∈ d.postorder, c.CleanText)
    (hh : ∀ c ∈ d.postorder, CleanHead c.head → CleanHead (onHead c.head))
    (hl : ∀ kind lines, (∀ l ∈ lines, Clean l) → ∀ l ∈ onLines kind lines, Clean l) :
    ∀ c' ∈ (d.mapText onHead onLines).postorder, c'.CleanText := by
  intro c' hc'
  rw [postorder_mapText] at hc'
  obtain ⟨c, hc, rfl⟩ := List.mem_map.1 hc'
  have hclean := hd c hc
  have hhead := hh c hc hclean.cleanHead
  cases c with
  | leaf kind head lines =>
    exact cleanText_leaf hhead (hl kind lines fun l hl => hclean l (by simp [texts, hl]))
  | scope opener head members =>
    rw [mapText_scope]
    exact cleanText_scope hhead fun l hl => hclean l (by simp [texts, Option.mem_def.1 hl])

theorem clean_closingLine {dent : Nat} {closer : String} (hn : '\n' ∉ closer.toList)
    (hl : ∃ c, closer.toList.getLast? = some c ∧ isSpace c = false) :
    Clean (closingLine dent closer) := by
  obtain ⟨c, hc, hspace⟩ := hl
  refine ⟨?_, fun d hd => ?_⟩
  · rw [closingLine, String.toList_ofList, List.mem_append, not_or]
    exact ⟨fun h => absurd (List.mem_replicate.1 h).2 (by decide), hn⟩
  · rw [closingLine, String.toList_ofList, List.getLast?_append, hc] at hd
    obtain rfl : c = d := Option.some.inj hd
    exact hspace

theorem clean_closing {endings : List Char} {signature : String} :
    ∀ l ∈ closing endings signature, Clean l := by
  intro l hl
  unfold closing at hl
  split at hl
  · cases hl
  · rw [List.mem_singleton.1 hl]
    exact clean_closingLine (by decide) ⟨'\x7d', rfl, rfl⟩

theorem clean_gap {before : Option Neighbor} {next : Neighbor} :
    ∀ l ∈ gap before next, Clean l := by
  intro l hl
  unfold gap at hl
  split at hl
  · split at hl
    · rw [List.mem_singleton.1 hl]
      exact clean_empty
    · cases hl
  · cases hl

theorem clean_composeBody {lines : List String} (h : ∀ l ∈ lines, Clean l) :
    ∀ before, ∀ l ∈ composeBody before lines, Clean l := by
  induction lines with
  | nil => intro _ l hl; cases hl
  | cons line lines ih =>
    intro before l hl
    rw [composeBody, List.mem_append, List.mem_cons] at hl
    rcases hl with hl | rfl | hl
    · exact clean_gap l hl
    · exact h l (by simp)
    · exact ih (fun l hl => h l (by simp [hl])) _ l hl

theorem clean_composeMembers {members : List Declaration}
    (h : ∀ m ∈ members, ∀ l ∈ m.compose, Clean l) :
    ∀ before, ∀ l ∈ composeMembers before members, Clean l := by
  induction members with
  | nil => intro _ l hl; cases hl
  | cons m ms ih =>
    intro before l hl
    rw [composeMembers, List.mem_append, List.mem_append] at hl
    rcases hl with (hl | hl) | hl
    · exact clean_gap l hl
    · exact h m (by simp) l hl
    · exact ih (fun d hd => h d (by simp [hd])) _ l hl

theorem clean_compose (d : Declaration) (hd : ∀ c ∈ d.postorder, c.CleanText) :
    ∀ l ∈ d.compose, Clean l := by
  induction d using ind with
  | leaf kind head lines =>
    have hleaf := hd _ (self_mem_postorder _)
    have hlines : ∀ l ∈ lines, Clean l := fun l hl => hleaf l (by simp [texts, hl])
    intro l hl
    rw [compose, List.append_cons, List.mem_append] at hl
    rcases hl with hl | hl
    · exact hleaf.cleanHead l hl
    · cases kind with
      | enum => exact (List.mem_append.1 hl).elim (hlines l) (clean_closing l)
      | field => exact hlines l hl
      | method =>
        exact (List.mem_append.1 hl).elim (clean_composeBody hlines none l) (clean_closing l)
  | scope opener head members ih =>
    have hscope := hd _ (self_mem_postorder (.scope opener head members))
    have hmembers := clean_composeMembers fun m hm =>
      ih m hm fun c hc => hd c (mem_postorder_scope.2 (Or.inl ⟨m, hm, hc⟩))
    intro l hl
    rw [compose, List.append_cons] at hl
    rcases List.mem_append.1 hl with hl | hl
    · exact hscope.cleanHead l hl
    rcases List.mem_append.1 hl with hl | hl
    · rcases List.mem_append.1 hl with hl | hl
      · exact hscope l (by simp [texts, Option.mem_toList.1 hl])
      · exact hmembers none l hl
    · cases opener with
      | none => exact clean_closing l hl
      | some opener =>
        rw [List.mem_singleton.1 hl]
        exact clean_closingLine (by decide) ⟨';', rfl, rfl⟩

end Declaration

/-! ## Files -/

/-- Whether all lines of a file can be cut from a text. -/
structure SourceFile.CleanText (file : SourceFile) : Prop where
  preamble : ∀ l ∈ file.preamble, Clean l
  declarations : ∀ d ∈ file.root.postorder, d.CleanText

theorem SourceFile.CleanText.compose {file : SourceFile} (h : file.CleanText) :
    ∀ l ∈ file.compose, Clean l := by
  intro l hl
  rcases List.mem_append.1 hl with hl | hl
  · exact h.preamble l hl
  · exact file.root.clean_compose h.declarations l hl

theorem cleanText_of_parse {lines : List String} {file : SourceFile}
    (h : SourceFile.parse lines = .ok file) (hlines : ∀ l ∈ lines, Clean l) : file.CleanText := by
  have hcode : ∀ l ∈ codeLines lines, Clean l := fun l hl => hlines l (List.mem_filter.1 hl).1
  rw [codeLines_of_parse h] at hcode
  refine ⟨fun l hl => hcode l (List.mem_append_left _ hl), fun d hd l hl => ?_⟩
  refine hcode l (List.mem_append_right _ (file.root.sourceLines_subset d hd ?_))
  cases d <;> simp only [Declaration.texts, Declaration.sourceLines, List.mem_append,
    List.mem_cons] at hl ⊢ <;> tauto

end HouseStyle
