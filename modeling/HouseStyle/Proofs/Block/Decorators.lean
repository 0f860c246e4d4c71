import HouseStyle.Proofs.Block.Reread
import HouseStyle.Proofs.Block.Sort

/-!
# Decorators and their blocks

A decorator leads to the first block below it, past comments and other decorators, if that block has
its indentation.  Decorators read with a block lead to that block.  Those that a comment separates
from their block are statements, and what they lead to depends on the nodes below them.

* `passages`: a file as a text, cut into statements, decorators and signatures.
* `target?`, `decorations`: where the decorators of a text lead.
* `decorators`, `leadsTo?`: the decorators of a list that are statements, and where they lead.
* `isLed`: lists in which the blocks that statements lead to are the first ones of their runs.
* `decorations_perm`: **no decorator leads outside its list.**
* `codeLines_passages`: the passages of a tree are what is written of it.
-/

namespace HouseStyle.Block

open Text

/-! ## Definitions -/

/-- Some lines of a file, and the block whose signature they are. -/
structure Passage where
  lines : List String
  block? : Option Node
  deriving DecidableEq

/-- Whether a decorator leads past the lines. -/
def Passage.isPassed (p : Passage) : Bool :=
  Node.isComment (.statement p.lines) || isMarked (firstOf p.lines)

/-- The decorators of a block. They have one indentation and nothing else between them, so that they
lead to the same block. -/
def headerPassages (header : List String) : List Passage :=
  if header.isEmpty then [] else [⟨header, none⟩]

mutual

/-- The text of a node: the lines of a statement; or decorators, signature and body. -/
def Node.passages : Node → List Passage
  | .statement lines => [⟨lines, none⟩]
  | .block kind header signature body =>
    headerPassages header ++
      ⟨signature, some (.block kind header signature body)⟩ :: Block.passages body

/-- The text of some nodes. -/
def passages : List Node → List Passage
  | [] => []
  | node :: nodes => node.passages ++ passages nodes

end

/-- The block that a decorator of the given indentation leads to, in the text below it. -/
def target? (dent : Indentation) : List Passage → Option Node
  | [] => none
  | p :: ps =>
    if p.isPassed then target? dent ps
    else if indentation (firstOf p.lines) = dent then p.block? else none

/-- The decorators of a text, each with the block it leads to. -/
def decorations : List Passage → List (List String × Option Node)
  | [] => []
  | p :: ps =>
    if isMarked (firstOf p.lines) then
      (p.lines, target? (indentation (firstOf p.lines)) ps) :: decorations ps
    else decorations ps

/-- Whether a decorator leads past the node. -/
def Node.isPassed (node : Node) : Bool := node.isComment || node.isDecorator

/-- The block among the nodes below a decorator that the decorator leads to. -/
def leadsTo? (dent : Indentation) : List Node → Option Node
  | [] => none
  | node :: nodes =>
    if node.isPassed then leadsTo? dent nodes
    else if node.isBlock && node.indentation == dent then some node else none

/-- Whether the first block below a decorator has its indentation and comes before its neighbours. -/
def isHeld (dent : Indentation) : List Node → Bool
  | [] => true
  | node :: nodes =>
    if node.isPassed then isHeld dent nodes
    else !node.isBlock || node.indentation == dent &&
      (nodes.takeWhile Node.isBlock).all fun next => (compareNodes node next).isLE

/-- The decorators of a list that belong to no block, each with the nodes below it. -/
def decorators : List Node → List (Node × List Node)
  | [] => []
  | node :: nodes =>
    if node.isDecorator then (node, nodes) :: decorators nodes else decorators nodes

/-- Whether the blocks that those decorators lead to come first in their runs. -/
def isLed (nodes : List Node) : Bool :=
  (decorators nodes).all fun d => isHeld d.1.indentation d.2

/-- Those decorators, each with the block it leads to. -/
def looseDecorations (nodes : List Node) : List (List String × Option Node) :=
  (decorators nodes).map fun d => (composeNode d.1, leadsTo? d.1.indentation d.2)

/-- Whether what follows a block, comments apart, is no deeper than the block. -/
def isLevel : List Node → Bool
  | [] => true
  | node :: nodes =>
    (!node.isBlock || (nodes.find? fun n => !n.isComment).all fun next =>
      next.indentation.atMost node.indentation) && isLevel nodes

/-- The decorators of a block and those in its body. -/
def Node.ownDecorations : Node → List (List String × Option Node)
  | .statement _ => []
  | .block kind header signature body =>
    (headerPassages header).map (fun p => (p.lines, some (.block kind header signature body))) ++
      decorations (Block.passages body)

/-- What is known of every list of a tree. -/
structure Orderly (nodes : List Node) : Prop where
  level : isLevel nodes = true
  led : isLed nodes = true
  /-- Bodies are deeper than their blocks. -/
  deeper : ∀ kind header signature body, .block kind header signature body ∈ nodes →
    ∀ n ∈ body, n.isComment = false →
      isWithin (some (leadingSpaces (firstOf signature))) n.firstLine = true

/-- Whether no decorator deeper than `dent` leads into the text. -/
def Blind (dent : Option Nat) (ps : List Passage) : Prop :=
  ∀ line, isWithin dent line = true → target? (indentation line) ps = none

/-! ## Targets -/

theorem isPassed_signature {kind : Kind} {signature : List String} {block? : Option Node}
    (hk : kind? (firstOf signature) = some kind) : Passage.isPassed ⟨signature, block?⟩ = false := by
  rw [Passage.isPassed, isMarked_of_kind? hk, Bool.or_false]
  match signature, hk with
  | [], _ => rfl
  | [line], hk => exact isComment_of_kind? hk
  | _ :: _ :: _, _ => rfl

theorem target?_headerPassages {header : List String} (dent : Indentation) (ps : List Passage)
    (hm : ∀ line ∈ header.head?, isMarked line = true) :
    target? dent (headerPassages header ++ ps) = target? dent ps := by
  cases header with
  | nil => rfl
  | cons line header =>
    have hpassed : Passage.isPassed ⟨line :: header, none⟩ = true := by
      rw [Passage.isPassed, show isMarked (firstOf (line :: header)) = true from hm line rfl,
        Bool.or_true]
    change target? dent (⟨line :: header, none⟩ :: ps) = _
    rw [target?, if_pos hpassed]

/-- Where no node stops a decorator, it leads to where it leads behind the nodes. -/
theorem target?_passages {dent : Indentation} {ps : List Passage} (hps : target? dent ps = none)
    {nodes : List Node} (hf : ∀ n ∈ nodes, Formed n) :
    target? dent (passages nodes ++ ps) = leadsTo? dent nodes := by
  induction nodes with
  | nil => exact hps
  | cons node nodes ih =>
    obtain ⟨hnode, hnodes⟩ := List.forall_mem_cons.1 hf
    rw [passages, List.append_assoc, leadsTo?]
    cases hnode with
    | @statement lines hl hk =>
      rw [Node.passages, List.singleton_append, target?, ih hnodes]
      have hsame : Passage.isPassed ⟨lines, none⟩ = Node.isPassed (.statement lines) := rfl
      rw [hsame, ite_self]
      rfl
    | @block kind header signature body hl hk hn hh hb =>
      have hformed : Formed (.block kind header signature body) := .block hl hk hn hh hb
      have hindent : Node.indentation (.block kind header signature body) =
          indentation (firstOf signature) := by
        rw [hformed.indentation_block, indentation_of_not_isBlank (isBlank_of_kind? hk)]
      rw [Node.passages, List.append_assoc, target?_headerPassages _ _ fun line h => (hh line h).1,
        List.cons_append, target?, isPassed_signature hk, hindent]
      simp [Node.isPassed, Node.isComment, Node.isDecorator, Node.isBlock]

theorem leadsTo?_eq_none_of_isHeld {dent level : Indentation} {nodes : List Node}
    (h : isHeld level nodes = true) (hne : level ≠ dent) : leadsTo? dent nodes = none := by
  induction nodes with
  | nil => rfl
  | cons node nodes ih =>
    rw [isHeld] at h
    rw [leadsTo?]
    by_cases hp : node.isPassed = true
    · rw [if_pos hp] at h ⊢
      exact ih h
    · rw [if_neg hp] at h ⊢
      refine if_neg fun hlead => ?_
      rw [Bool.and_eq_true, beq_iff_eq] at hlead
      rw [hlead.1, Bool.not_true, Bool.false_or, Bool.and_eq_true, beq_iff_eq] at h
      exact hne (h.1.symm.trans hlead.2)

theorem ne_of_deeper {a b : Indentation} {level : Nat} (ha : a.atMost (.spaces level) = true)
    (hb : b.deeper (.spaces level) = true) : a ≠ b := by
  rintro rfl
  rw [Indentation.deeper, ha] at hb
  cases hb

theorem isLed_cons (node : Node) (nodes : List Node) : isLed (node :: nodes) =
    ((!node.isDecorator || isHeld node.indentation nodes) && isLed nodes) := by
  rw [isLed, decorators]
  cases node.isDecorator <;> rfl

theorem looseDecorations_cons (node : Node) (nodes : List Node) :
    looseDecorations (node :: nodes) =
      if node.isDecorator then
        (composeNode node, leadsTo? node.indentation nodes) :: looseDecorations nodes
      else looseDecorations nodes := by
  rw [looseDecorations, decorators]
  cases node.isDecorator <;> rfl

theorem leadsTo?_eq_none {dent : Indentation} {level : Nat} {nodes : List Node}
    (hled : isLed nodes = true)
    (hlevel : ∀ next ∈ nodes.find? (fun n => !n.isComment),
      next.indentation.atMost (.spaces level) = true)
    (hd : dent.deeper (.spaces level) = true) : leadsTo? dent nodes = none := by
  induction nodes with
  | nil => rfl
  | cons node nodes ih =>
    rw [isLed_cons, Bool.and_eq_true] at hled
    rw [leadsTo?]
    cases hc : node.isComment with
    | true =>
      rw [List.find?_cons_of_neg (by simp [hc])] at hlevel
      rw [if_pos (by rw [Node.isPassed, hc, Bool.true_or])]
      exact ih hled.2 hlevel
    | false =>
      rw [List.find?_cons_of_pos (by simp [hc])] at hlevel
      have hne : node.indentation ≠ dent := ne_of_deeper (hlevel node rfl) hd
      by_cases hdecorator : node.isDecorator = true
      · -- the block behind this decorator has its indentation
        rw [if_pos (by rw [Node.isPassed, hdecorator, Bool.or_true])]
        rw [hdecorator, Bool.not_true, Bool.false_or] at hled
        exact leadsTo?_eq_none_of_isHeld hled.1 hne
      · rw [if_neg (by simp [Node.isPassed, hc, hdecorator]), if_neg (by simp [hne])]

theorem blind_nil (dent : Option Nat) : Blind dent [] := fun _ _ => rfl

/-! ## The text of a tree -/

theorem flatMap_headerPassages (header : List String) :
    (headerPassages header).flatMap Passage.lines = header := by
  cases header with
  | nil => rfl
  | cons line header => exact List.append_nil _

/-- The passages of a tree are what is written of it. -/
theorem codeLines_passages (topLevel : Bool) (before : Option Node) (nodes : List Node) :
    codeLines ((passages nodes).flatMap Passage.lines) =
      codeLines (composeAfter topLevel before nodes) := by
  have hblank : ∀ n, codeLines (List.replicate n "") = [] := fun n =>
    codeLines_eq_nil_iff.2 fun l hl => (List.mem_replicate.1 hl).2 ▸ isBlank_empty
  induction nodes using nodes_induction generalizing topLevel before with
  | nil => rw [passages, composeAfter]; rfl
  | statement lines nodes ih =>
    rw [passages, Node.passages, composeAfter, composeNode, List.flatMap_append,
      List.flatMap_singleton, codeLines_append, codeLines_append, codeLines_append, hblank, ih,
      List.nil_append]
  | block kind header signature body nodes ihb ihr =>
    rw [passages, Node.passages, composeAfter, composeNode, List.flatMap_append,
      List.flatMap_append, List.flatMap_cons, flatMap_headerPassages]
    simp only [codeLines_append, List.append_assoc]
    rw [hblank, ihb false none, ihr topLevel (some (.block kind header signature body)),
      List.nil_append]

/-! ## The decorators of a tree -/

theorem decorations_headerPassages {header signature : List String} {kind : Kind}
    {block? : Option Node} (ps : List Passage) (hk : kind? (firstOf signature) = some kind)
    (hh : ∀ line ∈ header.head?,
      isMarked line = true ∧ indentation (firstOf signature) = indentation line) :
    decorations (headerPassages header ++ ⟨signature, block?⟩ :: ps) =
      (headerPassages header).map (fun p => (p.lines, block?)) ++ decorations ps := by
  have hsignature : decorations (⟨signature, block?⟩ :: ps) = decorations ps := by
    rw [decorations, if_neg (by simp [isMarked_of_kind? hk])]
  cases header with
  | nil => exact hsignature
  | cons line header =>
    obtain ⟨hm, hi⟩ := hh line rfl
    have hmarked : isMarked (firstOf (line :: header)) = true := hm
    have htarget : target? (indentation (firstOf (line :: header))) (⟨signature, block?⟩ :: ps) =
        block? := by
      rw [target?, if_neg (by simp [isPassed_signature hk])]
      exact if_pos hi
    change decorations (⟨line :: header, none⟩ :: ⟨signature, block?⟩ :: ps) = _
    rw [decorations, if_pos hmarked, hsignature, htarget]
    rfl

section

variable {node : Node} {nodes : List Node}

theorem Orderly.tail (h : Orderly (node :: nodes)) : Orderly nodes where
  level := ((Bool.and_eq_true _ _).mp h.level).2
  led := ((Bool.and_eq_true _ _).mp (isLed_cons node nodes ▸ h.led)).2
  deeper kind header signature body hb :=
    h.deeper kind header signature body (List.mem_cons_of_mem _ hb)

theorem orderly_tail (h : ∀ l ∈ Node.lists (node :: nodes), Orderly l) :
    ∀ l ∈ Node.lists nodes, Orderly l := by
  intro l hl
  rw [lists_eq, List.mem_append, List.mem_flatMap, List.mem_singleton] at hl
  rcases hl with ⟨n, hn, hl⟩ | rfl
  · exact h l (mem_lists_of_mem_listsWithin (List.mem_cons_of_mem _ hn) hl)
  · exact (h _ (self_mem_lists _)).tail

/-- No decorator of a body leads behind the block. -/
theorem blind_below_block {dent : Option Nat} {ps : List Passage} {kind : Kind}
    {header signature : List String} {body : List Node}
    (hf : ∀ n ∈ .block kind header signature body :: nodes, Formed n)
    (ho : ∀ l ∈ Node.lists (.block kind header signature body :: nodes), Orderly l)
    (hwithin : isWithin dent (Node.firstLine (.block kind header signature body)) = true)
    (hps : Blind dent ps) :
    Blind (some (leadingSpaces (firstOf signature))) (passages nodes ++ ps) := by
  obtain ⟨hnode, hnodes⟩ := List.forall_mem_cons.1 hf
  have hled : isLed nodes = true := (orderly_tail ho _ (self_mem_lists _)).led
  have hlevel : ∀ next ∈ nodes.find? (fun n => !n.isComment),
      next.indentation.atMost (.spaces (leadingSpaces (firstOf signature))) = true := by
    intro next hnext
    have hall := ((Bool.and_eq_true _ _).mp (ho _ (self_mem_lists _)).level).1
    rw [hnode.indentation_block, hnext] at hall
    exact hall
  intro deep hdeep
  have hstops : target? (indentation deep) ps = none :=
    hps deep (isWithin_trans hwithin hnode.indentation_block hdeep)
  rw [target?_passages hstops hnodes]
  exact leadsTo?_eq_none hled hlevel hdeep

end

/-- **No decorator leads outside its list**: the decorators of a text are those that belong to no
block, each with its block in its list, and those of the blocks. -/
theorem decorations_perm {nodes : List Node} :
    ∀ {dent : Option Nat} {ps : List Passage}, (∀ n ∈ nodes, Formed n) →
      (∀ l ∈ Node.lists nodes, Orderly l) →
      (∀ n ∈ nodes, n.isComment = false → isWithin dent n.firstLine = true) → Blind dent ps →
      (decorations (passages nodes ++ ps)).Perm
        (looseDecorations nodes ++ nodes.flatMap Node.ownDecorations ++ decorations ps) := by
  induction nodes using nodes_induction with
  | nil =>
    intro dent ps _ _ _ _
    rw [passages]
    exact List.Perm.refl _
  | statement lines nodes ih =>
    intro dent ps hf ho hwithin hps
    obtain ⟨hnode, hnodes⟩ := List.forall_mem_cons.1 hf
    obtain ⟨hfirst, hrest⟩ := List.forall_mem_cons.1 hwithin
    have hinner := ih hnodes (orderly_tail ho) hrest hps
    have hmark : Node.isDecorator (.statement lines) = isMarked (firstOf lines) := rfl
    rw [passages, Node.passages, List.append_assoc, List.singleton_append, decorations,
      looseDecorations_cons, hmark, List.flatMap_cons, Node.ownDecorations, List.nil_append]
    by_cases hm : isMarked (firstOf lines) = true
    · have hcode : Node.isComment (.statement lines) = false := by
        rw [← hnode.isComment_firstLine]
        exact isComment_of_isMarked hm
      have hstops : target? (indentation (firstOf lines)) ps = none := hps _ (hfirst hcode)
      rw [if_pos hm, if_pos hm, composeNode, target?_passages hstops hnodes]
      exact hinner.cons _
    · rw [if_neg hm, if_neg hm]
      exact hinner
  | block kind header signature body nodes ihb ihr =>
    intro dent ps hf ho hwithin hps
    obtain ⟨hnode, hnodes⟩ := List.forall_mem_cons.1 hf
    obtain ⟨hfirst, hrest⟩ := List.forall_mem_cons.1 hwithin
    have hdeeper := (ho _ (self_mem_lists _)).deeper kind header signature body List.mem_cons_self
    have hlists : ∀ l ∈ Node.lists body, Orderly l := fun l hl =>
      ho l (mem_lists_of_mem_listsWithin List.mem_cons_self (listsWithin_block .. ▸ hl))
    have hblind := blind_below_block hf ho (hfirst rfl) hps
    have hinner := ihr hnodes (orderly_tail ho) hrest hps
    cases hnode with
    | block hl hk hn hh hb =>
      -- the decorators of the body lead where they lead in the body alone
      have hbody := ihb hb hlists hdeeper hblind
      have halone := ihb hb hlists hdeeper (blind_nil _)
      have hsplit : (decorations (passages body ++ (passages nodes ++ ps))).Perm
          (decorations (passages body) ++ (looseDecorations nodes ++
            (nodes.flatMap Node.ownDecorations ++ decorations ps))) := by
        rw [List.append_nil, decorations, List.append_nil] at halone
        rw [List.append_assoc] at hinner
        exact hbody.trans (halone.symm.append hinner)
      rw [passages, Node.passages, List.append_assoc, List.append_assoc, List.cons_append,
        decorations_headerPassages _ hk hh, looseDecorations_cons,
        if_neg (by simp [Node.isDecorator]),
        List.flatMap_cons, Node.ownDecorations, List.append_assoc, List.append_assoc,
        List.append_assoc]
      refine (hsplit.append_left _).trans ?_
      rw [← List.append_assoc (List.map _ _)]
      refine (List.perm_append_comm_assoc _ _ _).trans ?_
      rw [List.append_assoc]

end HouseStyle.Block
