import HouseStyle.Proofs.Declaration.Pass
import HouseStyle.Proofs.Declaration.StoppedSort

/-!
# Names through the passes

Names are read off signatures again and again, while passes insert modifiers in them, move members and
may stop on the way.  A declaration that was read is *signed*: its signature begins with a word and
shows a name, and the line that opens an anonymous class is an opener.  No pass takes this away, so no
declaration ever loses its name, and the only way for a sort to fail is a category without a rank.

* `Signed`, `Formed.signed`: what a declaration that was read keeps.
* `SourceFile.Signed.apply`, `SourceFile.Signed.through`: one pass, and any passes in a row.
* `inner`, `sort_snd_of_signed`: **why the sort of a signed tree fails, and when.**
-/

namespace HouseStyle

open Text

namespace Declaration

variable {c c' d : Declaration}

/-! ## Signed declarations -/

/-- The line that opens the anonymous class of a field. -/
def opener? : Declaration → Option String
  | .leaf _ _ _ => none
  | .scope opener _ _ => opener

/-- What a declaration that was read keeps through all passes. -/
structure Signed (d : Declaration) : Prop where
  startsWithWord : startsWithWord d.signature = true
  named : d.name?.isSome = true
  opener : ∀ opener ∈ d.opener?, Shape.isOpener opener = true

theorem Formed.signed (h : d.Formed) : d.Signed := by
  refine ⟨h.startsWithWord, h.named, fun opener ho => ?_⟩
  obtain ⟨shape, hshape, hforms⟩ := h.shaped
  cases hforms with
  | fieldClass hm =>
    cases ho
    exact isOpener_of_classify hshape
  | _ => cases ho

theorem Signed.isBlank_signature (h : d.Signed) : isBlank d.signature = false :=
  isBlank_of_startsWithWord h.startsWithWord

theorem Signed.of_signature_eq (h : c.Signed) (hk : c'.kind = c.kind)
    (ho : c'.opener? = c.opener?) (hs : c'.signature = c.signature) : c'.Signed := by
  refine ⟨hs ▸ h.startsWithWord, ?_, ho ▸ h.opener⟩
  rw [name?, hk, hs]
  exact h.named

/-- A signed declaration stays so if its signature gets a modifier: the shape of the name is looked
for in the words of the new signature, and the modifier is none of those it can stand at. -/
theorem Signed.of_insertVisibility (h : c.Signed) (hk : c'.kind = c.kind)
    (ho : c'.opener? = c.opener?) {modifier : Visibility}
    (hs : c'.signature = insertVisibility modifier c.signature) : c'.Signed := by
  have halike := signatureAlike_insertVisibility modifier h.startsWithWord
  refine ⟨?_, ?_, ho ▸ h.opener⟩
  · rw [hs]
    exact insertVisibility_cases (motive := fun s => HouseStyle.startsWithWord s = true) modifier
      h.startsWithWord (startsWithWord_insertModifier modifier c.signature)
  · rw [name?, hk, hs, halike.named]
    exact h.named

/-! ## Passes -/

variable {onHead : Head → Head} {onLines : LeafKind → List String → List String}

theorem kind_mapText (d : Declaration) : (d.mapText onHead onLines).kind = d.kind := by
  rcases d with ⟨kind, head, lines⟩ | ⟨opener, head, members⟩
  · cases kind <;> rfl
  · rw [mapText_scope]
    cases opener <;> rfl

theorem opener?_mapText (d : Declaration) : (d.mapText onHead onLines).opener? = d.opener? := by
  cases d with
  | leaf kind head lines => rfl
  | scope opener head members => rfl

theorem kind_fixedPart (d : Declaration) : d.fixedPart.kind = d.kind := by
  rcases d with ⟨_ | _ | _, head, lines⟩ | ⟨_ | _, head, members⟩ <;> rfl

theorem opener?_fixedPart (d : Declaration) : d.fixedPart.opener? = d.opener? := by
  rcases d with ⟨_ | _ | _, head, lines⟩ | ⟨opener, head, members⟩ <;> rfl

theorem signature_fixedPart (d : Declaration) : d.fixedPart.signature = d.signature := by
  rcases d with ⟨_ | _ | _, head, lines⟩ | ⟨opener, head, members⟩ <;> rfl

/-- The sort makes no declaration that was not there, whether it ends or stops. -/
theorem exists_fixedPart_eq_of_mem_sort {options : SortOptions}
    (h : c' ∈ (d.sort options).1.postorder) : ∃ c ∈ d.postorder, c.fixedPart = c'.fixedPart := by
  have hmem := (map_fixedPart_postorder_sort_perm options d).mem_iff.1 (List.mem_map_of_mem h)
  exact List.mem_map.1 hmem

end Declaration

namespace SourceFile

open Declaration

variable {file : SourceFile}

/-- Whether every declaration of a file is signed. -/
def Signed (file : SourceFile) : Prop := ∀ d ∈ file.root.postorder, d.Signed

theorem Signed.mapText {onPreamble : List String → List String} {onHead : Head → Head}
    {onLines : LeafKind → List String → List String} (h : file.Signed)
    (hsigned : ∀ c c' : Declaration, c.Signed → c'.kind = c.kind → c'.opener? = c.opener? →
      c'.signature = (onHead c.head).signature → c'.Signed) :
    (file.mapText onPreamble onHead onLines).Signed := by
  intro c' hc'
  rw [SourceFile.mapText, postorder_mapText] at hc'
  obtain ⟨c, hc, rfl⟩ := List.mem_map.1 hc'
  exact hsigned c _ (h c hc) (kind_mapText c) (opener?_mapText c)
    (congrArg Head.signature (head_mapText c))

/-- **No pass takes a name away**, not even a sort that fails. -/
theorem Signed.apply (h : file.Signed) (pass : Pass) : (pass.apply file).1.Signed := by
  cases pass with
  | sort options =>
    intro c' hc'
    obtain ⟨c, hc, hfixed⟩ := exists_fixedPart_eq_of_mem_sort hc'
    refine (h c hc).of_signature_eq ?_ ?_ ?_
    · rw [← kind_fixedPart, ← hfixed, kind_fixedPart]
    · rw [← opener?_fixedPart, ← hfixed, opener?_fixedPart]
    · rw [← signature_fixedPart, ← hfixed, signature_fixedPart]
  | visibility modifier =>
    exact h.mapText fun c c' hc hk ho hs => hc.of_insertVisibility hk ho hs
  | comments => exact h.mapText fun c c' hc hk ho hs => hc.of_signature_eq hk ho hs
  | cases => exact h.mapText fun c c' hc hk ho hs => hc.of_signature_eq hk ho hs

/-- What some passes make of a file one after the other, each of what the last one left. -/
def through (passes : List Pass) (file : SourceFile) : SourceFile :=
  passes.foldl (fun file pass => (pass.apply file).1) file

/-- **A signed file is signed after any passes.** -/
theorem Signed.through (h : file.Signed) (passes : List Pass) : (file.through passes).Signed := by
  induction passes generalizing file with
  | nil => exact h
  | cons pass passes ih => exact ih (h.apply pass)

end SourceFile

theorem signed_of_parse {lines : List String} {file : SourceFile}
    (h : SourceFile.parse lines = .ok file) : file.Signed :=
  fun d hd => (formed_of_parse h d hd).signed

/-! ## Sorts that fail -/

namespace Declaration

variable {order : CategoryOrder} {options : SortOptions} {c m d : Declaration}

/-- The declarations inside a tree, without its root. -/
def inner (d : Declaration) : List Declaration := d.ownMembers.flatMap postorder

theorem inner_subset_postorder (h : m ∈ d.inner) : m ∈ d.postorder := by
  cases d with
  | leaf kind head lines => cases h
  | scope opener head members =>
    obtain ⟨c, hc, hm⟩ := List.mem_flatMap.1 h
    exact mem_postorder_scope.2 (Or.inl ⟨c, hc, hm⟩)

/-- What is inside a tree is a member of a declaration of it. -/
theorem mem_inner_iff : m ∈ d.inner ↔ ∃ c ∈ d.postorder, m ∈ c.ownMembers := by
  induction d using ind with
  | leaf kind head lines =>
    constructor
    · intro h
      cases h
    · rintro ⟨c, hc, hm⟩
      rw [mem_postorder_leaf.1 hc] at hm
      cases hm
  | scope opener head members ih =>
    rw [inner, List.mem_flatMap]
    constructor
    · rintro ⟨d, hd, hm⟩
      cases d with
      | leaf kind head' lines =>
        rw [mem_postorder_leaf.1 hm]
        exact ⟨_, self_mem_postorder _, hd⟩
      | scope opener' head' members' =>
        rcases mem_postorder_scope.1 hm with ⟨d', hd', hm⟩ | rfl
        · obtain ⟨c, hc, hm⟩ := (ih _ hd).1 (List.mem_flatMap.2 ⟨d', hd', hm⟩)
          exact ⟨c, mem_postorder_scope.2 (Or.inl ⟨_, hd, hc⟩), hm⟩
        · exact ⟨_, self_mem_postorder _, hd⟩
    · rintro ⟨c, hc, hm⟩
      rcases mem_postorder_scope.1 hc with ⟨d, hd, hc⟩ | rfl
      · exact ⟨d, hd, inner_subset_postorder ((ih d hd).2 ⟨c, hc, hm⟩)⟩
      · exact ⟨m, hm, self_mem_postorder m⟩

theorem Signed.hasKey_eq (h : d.Signed) : d.hasKey order = (order.rank? d.category).isSome := by
  rw [hasKey, h.named, Bool.and_true, rank?_eq]
  cases order.categories.contains d.category <;> rfl

/-- **The sort of a signed tree fails for a category without a rank alone**, and it does so if any
declaration inside the tree has one. -/
theorem sort_snd_of_signed (h : ∀ c ∈ d.postorder, c.Signed) (options : SortOptions) :
    (∀ e, (d.sort options).2 = some e →
      ∃ m ∈ d.inner, options.order.rank? m.category = none ∧ e = .unranked m.category) ∧
    ((d.sort options).2 ≠ none ↔ ∃ m ∈ d.inner, options.order.rank? m.category = none) := by
  have hkey : ∀ m ∈ d.inner, m.hasKey options.order = (options.order.rank? m.category).isSome :=
    fun m hm => (h m (inner_subset_postorder hm)).hasKey_eq
  refine ⟨fun e he => ?_, ?_⟩
  · obtain ⟨s, m, hs, hfind, hfault⟩ := sort_eq_error_iff.1 (Prod.ext rfl he)
    have hmem : s ∈ d.postorder :=
      List.mem_of_find?_eq_some (hs.find?_postorder (isSortable_eq_false hfind))
    have hinner : m ∈ d.inner := mem_inner_iff.2 ⟨s, hmem, List.mem_of_find?_eq_some hfind⟩
    have hno : m.hasKey options.order = false := by simpa using List.find?_some hfind
    have hrank : options.order.rank? m.category = none := by
      rw [hkey m hinner] at hno
      exact Option.not_isSome_iff_eq_none.1 (by rw [hno]; exact Bool.false_ne_true)
    refine ⟨m, hinner, hrank, ?_⟩
    rw [rank?_eq] at hrank
    rw [← hfault, keyFault, if_neg fun hc => by rw [if_pos hc] at hrank; cases hrank]
  · rw [ne_eq, sort_snd_eq_none_iff]
    constructor
    · intro hnot
      obtain ⟨c, hc⟩ := Classical.not_forall.1 hnot
      obtain ⟨hc, hfalse⟩ := Classical.not_imp.1 hc
      rw [isSortable_iff] at hfalse
      obtain ⟨m, hm⟩ := Classical.not_forall.1 hfalse
      obtain ⟨hm, hno⟩ := Classical.not_imp.1 hm
      have hinner := mem_inner_iff.2 ⟨c, hc, hm⟩
      rw [hkey m hinner] at hno
      exact ⟨m, hinner, Option.not_isSome_iff_eq_none.1 hno⟩
    · rintro ⟨m, hinner, hrank⟩ hall
      obtain ⟨c, hc, hm⟩ := mem_inner_iff.1 hinner
      have hyes := isSortable_iff.1 (hall c hc) m hm
      rw [hkey m hinner, hrank] at hyes
      cases hyes

end Declaration

end HouseStyle
