import HouseStyle.Proofs.Machine.BlockWeight

/-!
# Writing blocks in a machine

The lines written so far are a list that grows.  Before each node the writer takes the node in front
of it and the node itself by their indices, and makes the list longer by a number of blank lines.

* `blankLines?_eq`: the blank lines in front of a node.
* `writeNodes?_eq`: **what is written is put behind what was written before.**
-/

namespace HouseStyle.Machine

open Text Block

/-! ## The writer -/

/-- The number of blank lines in front of the node with an index. -/
def blankLines? (topLevel : Bool) (all : List Node) (i : Nat) : Option Nat :=
  if i = 0 then some 0
  else do
    let last ← sub? i 1
    let above ← (all[last]? : Option Node)
    let node ← (all[i]? : Option Node)
    if above.isComment then return 0
    else
      let rest ← slice? all i all.length
      if above.isBlock || leadsToBlock rest then return spacing topLevel
      else if node.isComment then
        let outer ← indentation? above.firstLine
        let inner ← indentation? node.firstLine
        return if inner ≤ outer then 1 else 0
      else return 0

/-- The lines with blank lines behind them up to a given number of lines. -/
def resize (out : List String) (length : Nat) : List String :=
  out.take length ++ List.replicate (length - out.length) ""

mutual

/-- The lines written so far and those of a node. -/
def writeNode? (out : List String) : Node → Option (List String)
  | .statement lines => some (out ++ lines)
  | .block _ header signature body =>
    writeNodes? false body 0 (out ++ header ++ signature) body

/-- The lines written so far and those of the nodes of a list from an index on. -/
def writeNodes? (topLevel : Bool) (all : List Node) (i : Nat) (out : List String) :
    List Node → Option (List String)
  | [] => some out
  | node :: nodes => do
    let blank ← blankLines? topLevel all i
    let length ← word? (out.length + blank)
    let out ← writeNode? (resize out length) node
    writeNodes? topLevel all (i + 1) out nodes

end

/-- The lines of a file of blocks. -/
def composeNodes? (nodes : List Node) : Option (List String) := writeNodes? true nodes 0 [] nodes

/-! ## What it writes -/

variable {topLevel : Bool} {node : Node} {nodes before : List Node} {out : List String}

theorem resize_add (out : List String) (count : Nat) :
    resize out (out.length + count) = out ++ List.replicate count "" := by
  rw [resize, List.take_of_length_le (Nat.le_add_right _ _), Nat.add_sub_cancel_left]

/-- A node is told from the one in front of it by the order of their indentations. -/
theorem blankLines?_eq (topLevel : Bool) (nodes : List Node) (hnode : Fits node.firstLine)
    (hbefore : ∀ n ∈ before, Fits n.firstLine) :
    blankLines? topLevel (before ++ node :: nodes) before.length =
      some (blankLines topLevel before.getLast? (node :: nodes)) := by
  unfold blankLines? blankLines
  cases hlast : before.getLast? with
  | none =>
    rw [List.getLast?_eq_none_iff.1 hlast]
    rfl
  | some above =>
    obtain ⟨front, rfl⟩ := List.getLast?_eq_some_iff.1 hlast
    have habove : (front ++ [above] ++ node :: nodes)[front.length]? = some above := by simp
    have hown : (front ++ [above] ++ node :: nodes)[(front ++ [above]).length]? = some node := by
      simp
    have hindex : (front ++ [above]).length - 1 = front.length := by simp
    have hdrop : (front ++ [above] ++ node :: nodes).drop (front ++ [above]).length =
        (node :: nodes) ++ [] := by rw [List.drop_left, List.append_nil]
    have hrest := slice?_eq_of_drop (by simp) hdrop
    rw [← List.length_append] at hrest
    have horder : word (Text.indentation node.firstLine) ≤ word (Text.indentation above.firstLine) ↔
        (node.indentation.atMost above.indentation) = true :=
      word_le_word hnode.bounded (hbefore above (by simp)).bounded
    rw [if_neg (by simp), sub?_eq (by simp), hindex]
    simp only [Option.bind_eq_bind, Option.bind_some, habove, hown, hrest, indentation?_eq, horder]
    cases above.isComment <;> cases above.isBlock || leadsToBlock (node :: nodes) <;>
      cases node.isComment <;> simp

/-- From some node of a list on, what is written is put behind what was written before. -/
theorem writeNodes?_eq_append (hnodes : ∀ n ∈ nodes, ∀ out : List String,
      out.length + (composeNode n).length < wordValues →
        writeNode? out n = some (out ++ composeNode n))
    (hfits : ∀ n ∈ nodes, Fits n.firstLine) (hbefore : ∀ n ∈ before, Fits n.firstLine)
    (out : List String)
    (hout : out.length + (composeAfter topLevel before.getLast? nodes).length < wordValues) :
    writeNodes? topLevel (before ++ nodes) before.length out nodes =
      some (out ++ composeAfter topLevel before.getLast? nodes) := by
  induction nodes generalizing before out with
  | nil => rw [writeNodes?, composeAfter, List.append_nil]
  | cons node nodes ih =>
    obtain ⟨hwrite, hnodes⟩ := List.forall_mem_cons.1 hnodes
    obtain ⟨hnode, hfits⟩ := List.forall_mem_cons.1 hfits
    have hthrough : ∀ n ∈ before ++ [node], Fits n.firstLine :=
      List.forall_mem_append.2 ⟨hbefore, List.forall_mem_singleton.2 hnode⟩
    have hblank := blankLines?_eq topLevel nodes hnode hbefore
    rw [composeAfter] at hout ⊢
    generalize blankLines topLevel before.getLast? (node :: nodes) = blank at hblank hout ⊢
    rw [List.length_append, List.length_append, List.length_replicate] at hout
    have hwrite := hwrite (out ++ List.replicate blank "")
      (by rw [List.length_append, List.length_replicate]; omega)
    have hmore := ih hnodes hfits hthrough (out ++ List.replicate blank "" ++ composeNode node)
      (by
        rw [List.getLast?_concat, List.length_append, List.length_append, List.length_replicate]
        omega)
    rw [List.append_assoc before, List.singleton_append, List.length_append, List.length_singleton,
      List.getLast?_concat] at hmore
    rw [writeNodes?, hblank, Option.bind_eq_bind, Option.bind_some, word?_eq (by omega)]
    simp only [Option.bind_eq_bind, Option.bind_some, resize_add, hwrite, hmore]
    simp only [List.append_assoc]

theorem writeNodes?_eq (hnodes : ∀ n ∈ nodes, ∀ out : List String, nodeBulk n < sizeLimit →
      out.length + (composeNode n).length < wordValues →
        writeNode? out n = some (out ++ composeNode n))
    (hbulk : nodesBulk nodes < sizeLimit)
    (hout : out.length + (composeAfter topLevel none nodes).length < wordValues) :
    writeNodes? topLevel nodes 0 out nodes = some (out ++ composeAfter topLevel none nodes) := by
  have hle : ∀ n ∈ nodes, nodeBulk n < sizeLimit := fun n hn =>
    Nat.lt_of_le_of_lt (nodeBulk_le_nodesBulk hn) hbulk
  have hfits : ∀ n ∈ nodes, Fits n.firstLine := fun n hn =>
    Nat.lt_trans size_firstLine_lt (hle n hn)
  have hnone : ∀ n ∈ ([] : List Node), Fits n.firstLine := fun _ hn => nomatch hn
  exact writeNodes?_eq_append (fun n hn out => hnodes n hn out (hle n hn)) hfits hnone out hout

/-- **What is written is put behind what was written before**, as long as the number of lines is a
word. -/
theorem writeNode?_eq (hbulk : nodeBulk node < sizeLimit)
    (hout : out.length + (composeNode node).length < wordValues) :
    writeNode? out node = some (out ++ composeNode node) := by
  induction node using node_induction generalizing out with
  | statement lines => rw [writeNode?, composeNode]
  | block kind header signature body ih =>
    have hbody : nodesBulk body < sizeLimit := by
      rw [nodeBulk] at hbulk
      omega
    have hlines : (out ++ header ++ signature).length +
        (composeAfter false none body).length < wordValues := by
      rw [composeNode, List.length_append, List.length_append] at hout
      rw [List.length_append, List.length_append]
      omega
    rw [writeNode?, writeNodes?_eq (fun n hn _ => ih n hn) hbody hlines, composeNode]
    simp only [List.append_assoc]

/-- **No list of nodes stops the writer.** -/
theorem composeNodes?_eq (hbulk : nodesBulk nodes < sizeLimit) :
    composeNodes? nodes = some (compose true nodes) := by
  have hweight := weight_compose_le_nodesBulk true nodes
  have hlength : (compose true nodes).length ≤ weight (compose true nodes) := length_le_weight
  have hlimit : sizeLimit < wordValues := by decide
  have hlines : ([] : List String).length + (composeAfter true none nodes).length < wordValues := by
    rw [compose] at hlength hweight
    rw [List.length_nil]
    omega
  exact writeNodes?_eq (fun _ _ _ => writeNode?_eq) hbulk hlines

end HouseStyle.Machine
