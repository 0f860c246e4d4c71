import HouseStyle.Proofs.Declaration.Names
import HouseStyle.Proofs.Machine.Line

/-!
# Writing declarations in a machine

Before each member and each line of a body the writer looks at the one in front of it, by its index.
The line that closes a declaration is as many spaces as its signature has, and a closing brace.

* `gapBefore?_eq`: the look at the neighbour in front.
* `Writable`: what is known of a declaration that is written.
* `compose?_eq`: **no tree of writable declarations stops the writer.**
-/

namespace HouseStyle.Machine

open Text Declaration

/-! ## The writer -/

/-- Whether a blank line stands between two neighbours. -/
def separate? : Neighbor → Neighbor → Option Bool
  | .plain a, .plain b => some (a != b)
  | .line a, .line b => do
    if isComment b && !isComment a then
      let above ← indentation? a
      let below ← indentation? b
      return decide (below ≤ above)
    else return false
  | _, _ => some true

/-- The blank lines in front of the element with the given index. -/
def gapBefore? {α : Type} (neighbor : α → Neighbor) (all : List α) (i : Nat) (x : α) :
    Option (List String) :=
  if 0 < i then do
    let last ← sub? i 1
    let above ← (all[last]? : Option α)
    let apart ← separate? (neighbor above) (neighbor x)
    return if apart then [""] else []
  else some []

/-- The lines of a method body from an index on, with blank lines between them. -/
def composeBody? (all : List String) (i : Nat) : List String → Option (List String)
  | [] => some []
  | line :: lines => do
    let gap ← gapBefore? .line all i line
    let more ← composeBody? all (i + 1) lines
    return gap ++ line :: more

/-- The line that closes a declaration with this signature, unless it ends with one of the given
characters. -/
def closing? (endings : List Char) (signature : String) (dent : Nat) : Option (List String) :=
  if endsWithAny endings signature then some []
  else do
    let line ← closingLine? dent "\x7d"
    return [line]

/-- The lines below the head of a leaf. -/
def composeLeaf? (kind : LeafKind) (signature : String) (dent : Nat) (lines : List String) :
    Option (List String) :=
  match kind with
  | .enum => do
    let last ← closing? ['\x7d'] signature dent
    return lines ++ last
  | .field => some lines
  | .method => do
    let body ← composeBody? lines 0 lines
    let last ← closing? [';', '\x7d'] signature dent
    return body ++ last

/-- The lines that close a scope. -/
def composeClosing? (opener : Option String) (signature : String) (dent : Nat) :
    Option (List String) :=
  match opener with
  | none => closing? ['\x7d'] signature dent
  | some opener => do
    let dent ← indentation? opener
    let line ← closingLine? dent "\x7d;"
    return [line]

mutual

/-- The lines of a declaration. -/
def compose? : Declaration → Option (List String)
  | .leaf kind head lines => do
    let dent ← indentation? head.signature
    let body ← composeLeaf? kind head.signature dent lines
    return head.header ++ head.signature :: body
  | .scope opener head members => do
    let dent ← indentation? head.signature
    let inner ← composeMembers? members 0 members
    let last ← composeClosing? opener head.signature dent
    return head.header ++ head.signature :: (opener.toList ++ inner ++ last)

/-- The lines of members from an index on, with blank lines between them. -/
def composeMembers? (all : List Declaration) (i : Nat) : List Declaration → Option (List String)
  | [] => some []
  | d :: ds => do
    let gap ← gapBefore? neighbor all i d
    let lines ← compose? d
    let more ← composeMembers? all (i + 1) ds
    return gap ++ lines ++ more

end

/-- The lines of a file. -/
def composeFile? (file : SourceFile) : Option (List String) := do
  let root ← compose? file.root
  return file.preamble ++ root

/-! ## Neighbours -/

section Neighbors

variable {α : Type} {nb : α → Neighbor} {x : α} {before after : List α}

/-- Whether a neighbour is as small as a text has to be. -/
def NeighborFits : Neighbor → Prop
  | .line text => Fits text
  | .structural | .plain _ => True

theorem separate?_eq {a b : Neighbor} (ha : NeighborFits a) (hb : NeighborFits b) :
    separate? a b = some (separate a b) := by
  cases a with
  | line a =>
    cases b with
    | line b =>
      rw [separate?, separate]
      split
      · next hc =>
        rw [hc, Bool.true_and, indentation?_eq, indentation?_eq]
        simp only [Option.bind_eq_bind, Option.bind_some, Option.pure_def]
        rw [Option.some_inj, Bool.eq_iff_iff, decide_eq_true_eq]
        exact word_le_word (Fits.bounded hb) (Fits.bounded ha)
      · next hc => rw [Bool.eq_false_iff.2 hc, Bool.false_and, Option.pure_def]
    | structural | plain b => rfl
  | structural => cases b <;> rfl
  | plain a => cases b <;> rfl

/-- The neighbour in front of an element is the last one of those in front. -/
theorem gapBefore?_eq (nb : α → Neighbor) (hx : NeighborFits (nb x)) (hbefore : ∀ y ∈ before, NeighborFits (nb y)) :
    gapBefore? nb (before ++ x :: after) before.length x =
      some (gap (before.getLast?.map nb) (nb x)) := by
  unfold gapBefore? gap
  cases hlast : before.getLast? with
  | none =>
    rw [List.getLast?_eq_none_iff.1 hlast]
    rfl
  | some last =>
    obtain ⟨front, rfl⟩ := List.getLast?_eq_some_iff.1 hlast
    have hget : (front ++ [last] ++ x :: after)[front.length]? = some last := by simp
    have hindex : (front ++ [last]).length - 1 = front.length := by simp
    rw [if_pos (by simp), sub?_eq (by simp), hindex]
    simp only [Option.bind_eq_bind, Option.bind_some, hget,
      separate?_eq (hbefore last (by simp)) hx]
    rfl

end Neighbors

/-! ## Declarations -/

/-- What is known of a declaration that is written: the lines whose indentation its closing lines
have are not blank, and no line is too long. -/
structure Writable (d : Declaration) : Prop where
  signature : isBlank d.signature = false
  opener : ∀ opener ∈ d.opener?, isBlank opener = false
  fits : ∀ l ∈ d.texts, Fits l

section Declarations

variable {d : Declaration} {kind : LeafKind} {head : Head} {lines : List String}
  {opener : Option String} {members : List Declaration}

theorem composeBody?_eq (h : ∀ l ∈ lines, Fits l) (front : List String)
    (hfront : ∀ l ∈ front, Fits l) :
    composeBody? (front ++ lines) front.length lines =
      some (composeBody (front.getLast?.map .line) lines) := by
  induction lines generalizing front with
  | nil => rfl
  | cons line lines ih =>
    have hline := h line List.mem_cons_self
    have hmore := ih (fun l hl => h l (List.mem_cons_of_mem line hl)) (front ++ [line])
      fun l hl => by
        rcases List.mem_append.1 hl with hl | hl
        · exact hfront l hl
        · exact List.mem_singleton.1 hl ▸ hline
    rw [List.append_assoc, List.singleton_append, List.length_append, List.length_singleton,
      List.getLast?_concat, Option.map_some] at hmore
    rw [composeBody?, gapBefore?_eq .line hline hfront, hmore, composeBody]
    rfl

theorem closing?_eq {endings : List Char} {signature : String} (h : Fits signature) :
    closing? endings signature (leadingSpaces signature) = some (closing endings signature) := by
  unfold closing? closing
  split
  · rfl
  · rw [closingLine?_eq h.leadingSpaces_lt]
    rfl

theorem composeLeaf?_eq {signature : String} (hs : Fits signature) (h : ∀ l ∈ lines, Fits l) :
    composeLeaf? kind signature (leadingSpaces signature) lines =
      some (composeLeaf kind signature lines) := by
  have hbody := composeBody?_eq h [] (by simp)
  cases kind with
  | enum => simp only [composeLeaf?, closing?_eq hs]; rfl
  | field => rfl
  | method =>
    rw [List.nil_append, List.length_nil, List.getLast?_nil, Option.map_none] at hbody
    simp only [composeLeaf?, hbody, closing?_eq hs]
    rfl

theorem composeClosing?_eq {signature : String} (hs : Fits signature)
    (hblank : ∀ o ∈ opener, isBlank o = false) (ho : ∀ o ∈ opener, Fits o) :
    composeClosing? opener signature (leadingSpaces signature) =
      some (composeClosing opener signature) := by
  cases opener with
  | none => exact closing?_eq hs
  | some opener =>
    simp only [composeClosing?, indentation?_of_not_isBlank (hblank opener rfl),
      Option.bind_eq_bind, Option.bind_some, closingLine?_eq (ho opener rfl).leadingSpaces_lt]
    rfl

theorem neighborFits_neighbor : NeighborFits d.neighbor := by
  rcases d with ⟨_ | _ | _, head, lines⟩ | ⟨opener, head, members⟩ <;> trivial

theorem composeMembers?_eq {ds : List Declaration} (h : ∀ d ∈ ds, compose? d = some d.compose)
    (front : List Declaration) :
    composeMembers? (front ++ ds) front.length ds =
      some (composeMembers (front.getLast?.map neighbor) ds) := by
  induction ds generalizing front with
  | nil => rw [composeMembers?, composeMembers]
  | cons d ds ih =>
    have hmore := ih (fun c hc => h c (List.mem_cons_of_mem d hc)) (front ++ [d])
    rw [List.append_assoc, List.singleton_append, List.length_append, List.length_singleton,
      List.getLast?_concat, Option.map_some] at hmore
    rw [composeMembers?, gapBefore?_eq neighbor neighborFits_neighbor fun _ _ => neighborFits_neighbor,
      h d List.mem_cons_self, hmore, composeMembers]
    rfl

/-- **No tree of writable declarations stops the writer.** -/
theorem compose?_eq (h : ∀ c ∈ d.postorder, Writable c) : compose? d = some d.compose := by
  induction d using ind with
  | leaf kind head lines =>
    have hd := h _ (self_mem_postorder _)
    have hblank : isBlank head.signature = false := hd.signature
    have hsignature : Fits head.signature := hd.fits _ (by simp [texts])
    rw [compose?, indentation?_of_not_isBlank hblank, Option.bind_eq_bind, Option.bind_some,
      composeLeaf?_eq hsignature fun l hl => hd.fits l (by simp [texts, hl]), compose]
    rfl
  | scope opener head members ih =>
    have hd := h _ (self_mem_postorder _)
    have hblank : isBlank head.signature = false := hd.signature
    have hsignature : Fits head.signature := hd.fits _ (by simp [texts])
    have hmembers : ∀ m ∈ members, compose? m = some m.compose := fun m hm =>
      ih m hm fun c hc => h c (mem_postorder_scope.2 (Or.inl ⟨m, hm, hc⟩))
    have hinner := composeMembers?_eq hmembers []
    rw [List.nil_append, List.length_nil, List.getLast?_nil, Option.map_none] at hinner
    have hlast : composeClosing? opener head.signature (leadingSpaces head.signature) =
        some (composeClosing opener head.signature) :=
      composeClosing?_eq hsignature hd.opener fun o ho =>
        hd.fits o (by simp [texts, Option.mem_def.1 ho])
    rw [compose?, indentation?_of_not_isBlank hblank, Option.bind_eq_bind, Option.bind_some,
      hinner, hlast, compose]
    rfl

theorem composeFile?_eq {file : SourceFile} (h : ∀ c ∈ file.root.postorder, Writable c) :
    composeFile? file = some file.compose := by
  rw [composeFile?, compose?_eq h]
  rfl

end Declarations

end HouseStyle.Machine
