import HouseStyle.Proofs.Machine.DeclarationWeight
import HouseStyle.Proofs.Machine.DeclarationWriter
import HouseStyle.Proofs.Machine.Runs

/-!
# Passes on declarations in a machine

The passes walk over the tree and change heads and raw lines.  A modifier is put in at the byte that
the indentation of the signature says; comments are changed by the indices of their runs.  The sort
compares members and takes nothing by its index.

* `mapText?_eq`: a walk over a tree.
* `insertVisibility?_eq`: a modifier in a signature.
* `applyPass?_eq`: **no file of signed declarations stops a pass.**
-/

namespace HouseStyle.Machine

open Text Declaration

/-! ## Walks -/

section Walk

variable {onHead? : Head → Option Head} {onHead : Head → Head}
  {onLines? : LeafKind → List String → Option (List String)}
  {onLines : LeafKind → List String → List String}

mutual

/-- The tree with every head and the raw lines of every leaf changed. -/
def mapText? (onHead? : Head → Option Head)
    (onLines? : LeafKind → List String → Option (List String)) :
    Declaration → Option Declaration
  | .leaf kind head lines => do
    let head ← onHead? head
    let lines ← onLines? kind lines
    return .leaf kind head lines
  | .scope opener head members => do
    let members ← mapTextAll? onHead? onLines? members
    let head ← onHead? head
    return .scope opener head members

/-- The trees with every head and the raw lines of every leaf changed. -/
def mapTextAll? (onHead? : Head → Option Head)
    (onLines? : LeafKind → List String → Option (List String)) :
    List Declaration → Option (List Declaration)
  | [] => some []
  | d :: ds => do
    let d ← mapText? onHead? onLines? d
    let ds ← mapTextAll? onHead? onLines? ds
    return d :: ds

end

theorem mapTextAll?_eq {ds : List Declaration}
    (h : ∀ d ∈ ds, mapText? onHead? onLines? d = some (d.mapText onHead onLines)) :
    mapTextAll? onHead? onLines? ds = some (ds.map (mapText onHead onLines)) := by
  induction ds with
  | nil => rw [mapTextAll?]; rfl
  | cons d ds ih =>
    rw [mapTextAll?, h d List.mem_cons_self, ih fun c hc => h c (List.mem_cons_of_mem d hc)]
    rfl

/-- A walk over a tree is stopped only by what is done on the way. -/
theorem mapText?_eq {d : Declaration}
    (hhead : ∀ c ∈ d.postorder, onHead? c.head = some (onHead c.head))
    (hlines : ∀ kind head lines, .leaf kind head lines ∈ d.postorder →
      onLines? kind lines = some (onLines kind lines)) :
    mapText? onHead? onLines? d = some (d.mapText onHead onLines) := by
  induction d using ind with
  | leaf kind head lines =>
    have hself := self_mem_postorder (.leaf kind head lines)
    have hown : onHead? head = some (onHead head) := hhead _ hself
    rw [mapText?, hown, hlines kind head lines hself, mapText]
    rfl
  | scope opener head members ih =>
    have hown : onHead? head = some (onHead head) := hhead _ (self_mem_postorder _)
    have hmembers := mapTextAll?_eq fun m hm =>
      ih m hm (fun c hc => hhead c (mem_postorder_scope.2 (Or.inl ⟨m, hm, hc⟩)))
        fun kind head lines hc => hlines kind head lines (mem_postorder_scope.2 (Or.inl ⟨m, hm, hc⟩))
    rw [mapText?, hown, hmembers, mapText_scope]
    rfl

end Walk

/-! ## Modifiers -/

section Modifiers

variable {modifier : Visibility} {signature : String}

/-- The signature with the modifier behind its indentation, unless it declares one. -/
def insertVisibility? (modifier : Visibility) (signature : String) : Option String :=
  match Visibility.of? signature with
  | some _ => some signature
  | none => do
    let place ← indentation? signature
    let cut ← cut? signature.toList place
    return String.ofList (cut.1 ++ modifier.keyword.toList ++ ' ' :: cut.2)

theorem insertVisibility?_eq (h : isBlank signature = false) :
    insertVisibility? modifier signature = some (insertVisibility modifier signature) := by
  unfold insertVisibility? insertVisibility
  cases Visibility.of? signature with
  | some v => rfl
  | none =>
    rw [indentation?_of_not_isBlank h]
    simp only [Option.bind_eq_bind, Option.bind_some, cut?_indentation]
    rfl

end Modifiers

/-! ## Passes -/

/-- The lines with the first line of each run of comments capitalized. -/
def capitalizeRuns? (lines : List String) : Option (List String) :=
  changeRuns? isComment (changeHead? fun line => some (capitalizeComment line)) lines

/-- The raw lines of a leaf with its cases in order, if it is a method. -/
def sortCasesOf? (kind : LeafKind) (lines : List String) : Option (List String) :=
  match kind with
  | .method => normalizeCases? lines
  | .enum | .field => some lines

/-- The head with an access modifier in its signature. -/
def withVisibility? (modifier : Visibility) (head : Head) : Option Head := do
  let signature ← insertVisibility? modifier head.signature
  return { head with signature }

/-- The head with the first line of each run of comments capitalized. -/
def capitalizeHead? (head : Head) : Option Head := do
  let header ← capitalizeRuns? head.header
  return { head with header }

/-- The file after a pass, with the error that ended it, if one did. -/
def applyPass? (pass : Pass) (file : SourceFile) : Option (SourceFile × Option SortError) :=
  match pass with
  | .sort options => some (file.sort options)
  | .visibility modifier => do
    let root ← mapText? (withVisibility? modifier) (fun _ lines => some lines) file.root
    return (⟨file.preamble, root⟩, none)
  | .comments => do
    let preamble ← capitalizeRuns? file.preamble
    let root ← mapText? capitalizeHead? (fun _ lines => capitalizeRuns? lines) file.root
    return (⟨preamble, root⟩, none)
  | .cases => do
    let root ← mapText? some sortCasesOf? file.root
    return (⟨file.preamble, root⟩, none)

theorem capitalizeRuns?_eq {lines : List String} (h : lines.length < wordValues) :
    capitalizeRuns? lines = some (capitalizeRuns lines) := by
  rw [capitalizeRuns?, changeRuns?_eq h (fun run => by cases run <;> rfl)
    (changes_changeHead? fun _ => rfl)]
  rfl

section Passes

variable {file : SourceFile} {kind : LeafKind} {lines : List String}

theorem capitalizeRuns?_of_weight (h : weight lines < sizeLimit) :
    capitalizeRuns? lines = some (capitalizeRuns lines) := by
  refine capitalizeRuns?_eq (Nat.lt_of_le_of_lt length_le_weight (Nat.lt_trans h ?_))
  decide

theorem sortCasesOf?_eq (h : 2 * weight lines < sizeLimit) :
    sortCasesOf? kind lines = some (if kind = .method then normalizeCases lines else lines) := by
  cases kind with
  | enum | field => rfl
  | method =>
    have hlines : weight lines < sizeLimit := by omega
    have hlength : lines.length ≤ weight lines := length_le_weight
    refine normalizeCases?_eq (by omega) (fits_of_weight_lt hlines) fun l hl => ?_
    have hl := size_lt_weight hl
    unfold Fits
    cases hsort : sortLabels l with
    | none =>
      rw [Option.getD_none]
      omega
    | some l' =>
      have hsize := size_sortLabels_le hsort
      rw [Option.getD_some]
      omega

/-- **No file of signed declarations stops a pass.** -/
theorem applyPass?_eq (hsigned : file.Signed) (hbulk : 2 * fileBulk file < sizeLimit) (pass : Pass) :
    applyPass? pass file = some (pass.apply file) := by
  have hroot : 2 * bulk file.root < sizeLimit := by
    rw [fileBulk] at hbulk
    omega
  cases pass with
  | sort options => rfl
  | visibility modifier =>
    have hwalk : mapText? (withVisibility? modifier) (fun _ lines => some lines) file.root =
        some (file.root.mapText (Head.withVisibility modifier) fun _ lines => lines) := by
      refine mapText?_eq (fun c hc => ?_) fun _ _ _ _ => rfl
      have hblank : isBlank c.head.signature = false := (hsigned c hc).isBlank_signature
      rw [withVisibility?, insertVisibility?_eq hblank]
      rfl
    rw [applyPass?, hwalk]
    rfl
  | comments =>
    have htexts := fun c (hc : c ∈ file.root.postorder) => weight_texts_le hc
    have hpreamble : capitalizeRuns? file.preamble = some (capitalizeRuns file.preamble) := by
      refine capitalizeRuns?_of_weight ?_
      rw [fileBulk] at hbulk
      omega
    have hwalk : mapText? capitalizeHead? (fun _ lines => capitalizeRuns? lines) file.root =
        some file.capitalizeComments.root := by
      refine mapText?_eq (fun c hc => ?_) fun kind head lines hc => ?_
      · have hheader : weight c.head.header ≤ weight c.texts := by
          cases c <;> rw [texts, weight_append] <;> exact Nat.le_add_right _ _
        have hc := htexts c hc
        rw [capitalizeHead?, capitalizeRuns?_of_weight (by omega)]
        rfl
      · have hc := htexts _ hc
        rw [texts, weight_append, weight_cons] at hc
        exact capitalizeRuns?_of_weight (by omega)
    rw [applyPass?, hpreamble, hwalk]
    rfl
  | cases =>
    have hwalk : mapText? some sortCasesOf? file.root = some file.sortCases.root := by
      refine mapText?_eq (fun _ _ => rfl) fun kind head lines hc => ?_
      have hc := weight_texts_le hc
      rw [texts, weight_append, weight_cons] at hc
      have hlines : 2 * weight lines < sizeLimit := by omega
      rw [sortCasesOf?_eq hlines]
      cases kind <;> rfl
    rw [applyPass?, hwalk]
    rfl

end Passes

end HouseStyle.Machine
