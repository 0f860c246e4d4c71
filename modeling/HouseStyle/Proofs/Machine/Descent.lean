import HouseStyle.Proofs.Block.Places
import HouseStyle.Proofs.Declaration.Places
import HouseStyle.Proofs.Machine.Operations

/-!
# Recursive descent

The readers call each other on the lines that are left, and `readMember` and `readNode` carry along the proof
that there are fewer of them.  Here they run without it.  Nothing says that the calls come to an end; a call
is only told how deep it may go, a loop going one step deeper each time round, and one that would have to go
further is `stuck`.  As every step takes lines away, twice their number and two steps are enough.

* `Declaration.Descent.member`, `Block.Descent.nodes`: the readers with a depth.
* `Declaration.Descent.reads`, `Block.Descent.reads`: **deep enough they end on all lines**, with what the
  readers read.
* `readers_advance`: **a reader hands on a cursor behind the one it was given.**
-/

namespace HouseStyle

open Text Machine

/-! ## Declarations -/

namespace Declaration.Descent

/-- The rest of a declaration of a shape, after its head, with a reader of members. -/
def body (members : Place → Nat → String → List String → Steps ParseError (List Declaration × List String))
    (shape : Shape) (place : Place) (head : Head) (below : List String) :
    Steps ParseError (Declaration × List String) :=
  match shape, below with
  | .openClass, below => do
    let inner ← members place (leadingSpaces head.signature) "\x7d" below
    return (.scope none head inner.1, inner.2)
  | .fieldClass, [] => throw (place.error .unrecognized)
  | .fieldClass, opener :: below => do
    let inner ← members ⟨below.length + 1, opener⟩ (leadingSpaces opener) "\x7d;" below
    return (.scope (some opener) head inner.1, inner.2)
  | shape, below => ended (readLeaf shape place head below)

mutual

/-- The declaration at the start of the lines, and the lines after it. -/
def member : Nat → List String → Steps ParseError (Declaration × List String)
  | 0, _ => stuck
  | depth + 1, ls =>
    match afterHeader ls with
    | [] => throw (endOfInput ls)
    | signature :: below =>
      match classify signature below.head? with
      | none => throw (Place.error ⟨below.length + 1, signature⟩ .unrecognized)
      | some shape => do
        let read ← body (members depth) shape ⟨below.length + 1, signature⟩ ⟨headerLines ls, signature⟩ below
        ended (named ⟨below.length + 1, signature⟩ read.1 read.2)

/-- The members up to the line that closes their scope, and the lines after that line. -/
def members : Nat → Place → Nat → String → List String →
    Steps ParseError (List Declaration × List String)
  | 0, _, _, _, _ => stuck
  | _ + 1, opened, _, _, [] => throw (opened.error .unclosed)
  | depth + 1, opened, dent, closer, line :: rest =>
    if closes line dent closer then return ([], rest)
    else if (Text.indentation line).atMost (.spaces dent) then
      throw (.atLine (rest.length + 1) line .misindented)
    else if (afterHeader (line :: rest)).isEmpty then throw (opened.error .unclosed)
    else do
      let first ← member depth (line :: rest)
      let more ← members depth opened dent closer first.2
      return (first.1 :: more.1, more.2)

end

variable {ls below : List String} {depth : Nat}

/-- Whether the members at the start of some lines are read at a depth as without one. -/
def ReadsMembers (depth : Nat) (ls : List String) : Prop :=
  ∀ opened dent closer, members depth opened dent closer ls = ended (readAll opened dent closer ls)

theorem body_eq (shape : Shape) (place : Place) (head : Head)
    (hmembers : ∀ ls, ls.length ≤ below.length → ReadsMembers depth ls) :
    body (members depth) shape place head below = ended (readBody shape place head below) := by
  cases shape with
  | openClass =>
    rw [body, hmembers below (Nat.le_refl _), readBody]
    cases readAll place (leadingSpaces head.signature) "\x7d" below <;> rfl
  | fieldClass =>
    cases below with
    | nil => rw [body, readBody, throw_eq_ended]
    | cons opener below =>
      rw [body, hmembers below (Nat.le_succ _), readBody]
      cases readAll ⟨below.length + 1, opener⟩ (leadingSpaces opener) "\x7d;" below <;> rfl
  | _ => simp only [body, readBody]

theorem member_eq (hmembers : ∀ ls', ls'.length < ls.length → ReadsMembers depth ls') :
    member (depth + 1) ls = ended (read ls) := by
  have hle := length_afterHeader_le ls
  rw [member]
  cases ha : afterHeader ls with
  | nil => rw [read_of_afterHeader_nil ha, throw_eq_ended]
  | cons signature below =>
    rw [ha, List.length_cons] at hle
    rw [read_of_afterHeader_cons ha]
    cases hc : classify signature below.head? with
    | none => simp only [hc, throw_eq_ended]
    | some shape =>
      have hbody := body_eq shape ⟨below.length + 1, signature⟩ ⟨headerLines ls, signature⟩
        fun ls' hls' => hmembers ls' (Nat.lt_of_le_of_lt hls' hle)
      simp only [hc, hbody]
      cases readBody shape ⟨below.length + 1, signature⟩ ⟨headerLines ls, signature⟩ below <;> rfl

theorem members_eq (hmember : member depth ls = ended (read ls))
    (hmembers : ∀ ls', ls'.length < ls.length → ReadsMembers depth ls') :
    ReadsMembers (depth + 1) ls := by
  intro opened dent closer
  cases ls with
  | nil => rw [members, readAll_nil, throw_eq_ended]
  | cons line rest =>
    rw [members, readAll_cons, hmember]
    split
    · rfl
    split
    · rfl
    split
    · rfl
    cases hread : read (line :: rest) with
    | error e => rfl
    | ok first =>
      obtain ⟨d, after⟩ := first
      have hmore := hmembers after (length_lt_of_read hread) opened dent closer
      simp only [ended_ok_bind, hmore]
      cases readAll opened dent closer after <;> rfl

/-- **Deep enough the reader of declarations ends on all lines.** -/
theorem reads (depth : Nat) (ls : List String) :
    (2 * ls.length < depth → member depth ls = ended (read ls)) ∧
      (2 * ls.length + 1 < depth → ReadsMembers depth ls) := by
  -- members are read again from fewer lines, which makes up for the step down to one of them
  induction depth generalizing ls with
  | zero => exact ⟨nofun, nofun⟩
  | succ depth ih =>
    exact ⟨fun h => member_eq fun ls' hlt => (ih ls').2 (by omega),
      fun h => members_eq ((ih ls).1 (by omega)) fun ls' hlt => (ih ls').2 (by omega)⟩

end Declaration.Descent

/-! ## Blocks -/

namespace Block.Descent

/-- The decorators of the given indentation at the start of the lines, blank lines between them skipped, and
the lines after them. -/
def decorators : Nat → Indentation → List String → Steps ParseError (List String × List String)
  | 0, _, _ => stuck
  | _ + 1, _, [] => return ([], [])
  | depth + 1, dent, line :: below =>
    if isMarked line && indentation line == dent then
      match logicalLine line below with
      | none => throw (unfinished line below)
      | some (decorator, rest) => do
        let more ← decorators depth dent (skipBlank rest)
        return (decorator ++ more.1, more.2)
    else return ([], line :: below)

/-- The block that a line opens, decorators first. -/
def opening (depth : Nat) (line : String) (below : List String) : Steps ParseError (Option Opening) :=
  if isMarked line then do
    match ← decorators depth (indentation line) (line :: below) with
    | (_, []) => return none
    | (header, opened :: rest) =>
      if indentation opened == indentation line then
        return (kind? opened).map fun kind => ⟨kind, header, opened, rest⟩
      else return none
  else return (kind? line).map fun kind => ⟨kind, [], line, below⟩

mutual

/-- The nodes deeper than `dent` at the start of the lines, and the lines after them. -/
def nodes : Nat → Option Nat → List String → Steps ParseError (List Node × List String)
  | 0, _, _ => stuck
  | depth + 1, dent, lines =>
    match skipBlank lines with
    | [] => return ([], [])
    | line :: below =>
      if continues dent line below then do
        let first ← node depth line below
        let more ← nodes depth dent first.2
        return (first.1 :: more.1, more.2)
      else return ([], line :: below)

/-- The node that begins with a line, and the lines after it. -/
def node : Nat → String → List String → Steps ParseError (Node × List String)
  | 0, _, _ => stuck
  | depth + 1, line, below => do
    match ← opening depth line below with
    | none =>
      match logicalLine line below with
      | none => throw (unfinished line below)
      | some (lines, rest) => return (.statement lines, rest)
    | some opening =>
      match logicalLine opening.line opening.below with
      | none => throw (unfinished opening.line opening.below)
      | some (signature, rest) =>
        match opening.kind.name? opening.line with
        | none => throw ⟨opening.below.length + 1, opening.line, .unnamed opening.kind⟩
        | some _ => do
          let body ← nodes depth (some (leadingSpaces opening.line)) rest
          return (.block opening.kind opening.header signature body.1, body.2)

end

variable {line : String} {lines below : List String} {depth : Nat}

theorem decorators_eq (dent : Indentation) (depth : Nat) (lines : List String) (h : lines.length < depth) :
    decorators depth dent lines = ended (readDecorators dent lines) := by
  induction depth generalizing lines with
  | zero => cases h
  | succ depth ih =>
    fun_cases readDecorators dent lines with
    | case1 => rw [decorators, pure_eq_ended]
    | case2 line below hm hl =>
      rw [decorators, if_pos hm]
      simp only [hl, throw_eq_ended]
    | case3 line below hm decorator after hl hlt =>
      rw [decorators, if_pos hm]
      simp only [hl, ih (skipBlank after) (Nat.lt_of_lt_of_le hlt (Nat.le_of_lt_succ h))]
      cases readDecorators dent (skipBlank after) <;> rfl
    | case4 line below hm => rw [decorators, if_neg hm, pure_eq_ended]

theorem opening_eq (h : (line :: below).length < depth) :
    opening depth line below = ended (opening? line below) := by
  unfold opening opening?
  split
  · rw [decorators_eq (indentation line) depth (line :: below) h]
    cases readDecorators (indentation line) (line :: below) with
    | error e => rfl
    | ok p =>
      obtain ⟨header, rest⟩ := p
      cases rest with
      | nil => rfl
      | cons opened rest =>
        simp only [ended_ok_bind]
        split <;> rfl
  · rfl

/-- Whether the nodes at the start of some lines are read at a depth as without one. -/
def ReadsNodes (depth : Nat) (lines : List String) : Prop :=
  ∀ dent, nodes depth dent lines = ended (read dent lines)

theorem node_eq (h : (line :: below).length < depth)
    (hnodes : ∀ lines, lines.length ≤ below.length → ReadsNodes depth lines) :
    node (depth + 1) line below = ended (readOne line below) := by
  rw [node, opening_eq h, readOne_eq]
  cases ho : opening? line below with
  | error e => rfl
  | ok found =>
    cases found with
    | none =>
      simp only [ended_ok_bind]
      cases logicalLine line below <;> rfl
    | some o =>
      simp only [ended_ok_bind]
      cases hl : logicalLine o.line o.below with
      | none => rfl
      | some p =>
        obtain ⟨signature, rest⟩ := p
        -- neither the decorators nor the signature give lines back
        have hle := Nat.le_trans (length_rest_logicalLine hl) (length_below_opening ho)
        have hbody := hnodes rest hle (some (leadingSpaces o.line))
        cases o.kind.name? o.line with
        | none => rfl
        | some name =>
          simp only [hbody]
          cases read (some (leadingSpaces o.line)) rest <;> rfl

theorem nodes_eq
    (hnode : ∀ line below, below.length < lines.length →
      node depth line below = ended (readOne line below))
    (hnodes : ∀ lines', lines'.length < lines.length → ReadsNodes depth lines') :
    ReadsNodes (depth + 1) lines := by
  intro dent
  have hle := (skipBlank_sublist lines).length_le
  rw [nodes, read_eq]
  cases hs : skipBlank lines with
  | nil => rfl
  | cons line below =>
    rw [hs, List.length_cons] at hle
    simp only [hnode line below hle]
    split
    · cases hone : readOne line below with
      | error e => rfl
      | ok p =>
        obtain ⟨first, after⟩ := p
        have hmore := hnodes after (Nat.lt_of_le_of_lt (length_rest_readOne hone) hle) dent
        simp only [ended_ok_bind, hmore]
        cases read dent after <;> rfl
    · rfl

/-- **Deep enough the reader of blocks ends on all lines.** -/
theorem reads (depth : Nat) :
    (∀ line below, 2 * (line :: below).length < depth →
      node depth line below = ended (readOne line below)) ∧
      ∀ lines, 2 * lines.length + 1 < depth → ReadsNodes depth lines := by
  -- a node takes its first line, which makes up for the step down to its body
  induction depth with
  | zero => exact ⟨nofun, nofun⟩
  | succ depth ih =>
    simp only [List.length_cons] at ih ⊢
    refine ⟨fun line below h => node_eq (by rw [List.length_cons]; omega) fun lines hle =>
      ih.2 lines (by omega), fun lines h => ?_⟩
    exact nodes_eq (fun line below hlt => ih.1 line below (by omega)) fun lines' hlt =>
      ih.2 lines' (by omega)

end Block.Descent

/-! ## Cursors -/

theorem exists_cursor {lines rest : List String} {start : Nat} (hstart : start ≤ lines.length)
    (h : rest <:+ lines.drop start) :
    ∃ next, start ≤ next ∧ next + rest.length = lines.length ∧ rest = lines.drop next := by
  have hle := h.length_le
  rw [List.length_drop] at hle
  exact ⟨lines.length - rest.length, by omega, by omega,
    (drop_of_suffix (h.trans (List.drop_suffix _ _))).symm⟩

/-- **A reader hands on a cursor behind the one it was given.**  If a declaration or a node is read from the
lines at a cursor, the lines that are left are those at a cursor further on; nodes may be none, and those at
the margin reach to the end.  On any lines the readers end, with the same outcome at every depth that is
greater than twice the number of lines and one. -/
theorem readers_advance (lines : List String) :
    (∀ start d rest, Declaration.read (lines.drop start) = .ok (d, rest) →
      ∃ next, start < next ∧ next ≤ lines.length ∧ rest = lines.drop next) ∧
    (∀ start line below node rest, lines.drop start = line :: below →
      Block.readOne line below = .ok (node, rest) →
      ∃ next, start < next ∧ next ≤ lines.length ∧ rest = lines.drop next) ∧
    (∀ start ≤ lines.length, ∀ dent nodes rest, Block.read dent (lines.drop start) = .ok (nodes, rest) →
      ∃ next, start ≤ next ∧ next ≤ lines.length ∧ rest = lines.drop next ∧
        (dent = none → next = lines.length)) ∧
    ∀ depth, 2 * lines.length + 1 < depth →
      Declaration.Descent.member depth lines = ended (Declaration.read lines) ∧
      (∀ opened dent closer, Declaration.Descent.members depth opened dent closer lines =
        ended (Declaration.readAll opened dent closer lines)) ∧
      (∀ dent, Block.Descent.nodes depth dent lines = ended (Block.read dent lines)) ∧
      ∀ line below, lines = line :: below →
        Block.Descent.node depth line below = ended (Block.readOne line below) := by
  refine ⟨fun start d rest h => ?_, fun start line below node rest hd h => ?_,
    fun start hstart dent nodes rest h => ?_, fun depth hdepth => ⟨?_, ?_, ?_, ?_⟩⟩
  · have hlt := Declaration.length_lt_of_read h
    rw [List.length_drop] at hlt
    obtain ⟨next, hle, hnext, hrest⟩ := exists_cursor (by omega) (Declaration.suffix_of_read h)
    exact ⟨next, by omega, by omega, hrest⟩
  · have hlen := congrArg List.length hd
    have hle := Block.length_rest_readOne h
    rw [List.length_drop, List.length_cons] at hlen
    obtain ⟨next, -, hnext, hrest⟩ := exists_cursor (by omega) (hd ▸ Block.suffix_of_readOne h)
    exact ⟨next, by omega, by omega, hrest⟩
  · have hreads := Block.reads_of_read h
    obtain ⟨next, hle, hnext, hrest⟩ := exists_cursor hstart hreads.suffix
    refine ⟨next, hle, by omega, hrest, ?_⟩
    rintro rfl
    rw [Block.rest_of_reads_none hreads, List.length_nil] at hnext
    exact hnext
  · exact (Declaration.Descent.reads depth lines).1 (Nat.lt_of_succ_lt hdepth)
  · exact (Declaration.Descent.reads depth lines).2 hdepth
  · exact (Block.Descent.reads depth).2 lines hdepth
  · rintro line below rfl
    exact (Block.Descent.reads depth).1 line below (Nat.lt_of_succ_lt hdepth)

/-- A method in front of a brace that closes nothing. -/
def strayBrace : List String := ["@Override", "int size() \x7b", "  return 1;", "\x7d", "\x7d"]

/-- A decorator above a statement that goes on in the next line. -/
def strayDecorator : List String := ["@note", "", "x = (1,", "  2)"]

/-- The brace is left behind the method; the decorator is a statement of its own, and the next one is read
from the line below it to the end. -/
theorem readers_advance_stray :
    (Declaration.read (strayBrace.drop 0) =
        .ok (.leaf .method ⟨["@Override"], "int size() \x7b"⟩ ["  return 1;"], ["\x7d"]) ∧
      ∃ next, 0 < next ∧ next ≤ strayBrace.length ∧ ["\x7d"] = strayBrace.drop next) ∧
    (Block.readOne "@note" ["", "x = (1,", "  2)"] =
        .ok (.statement ["@note"], ["", "x = (1,", "  2)"]) ∧
      ∃ next, 0 < next ∧ next ≤ strayDecorator.length ∧
        ["", "x = (1,", "  2)"] = strayDecorator.drop next) ∧
    (Block.read none (strayDecorator.drop 1) = .ok ([.statement ["x = (1,", "  2)"]], []) ∧
      ∃ next, 1 ≤ next ∧ next ≤ strayDecorator.length ∧ [] = strayDecorator.drop next ∧
        (none = (none : Option Nat) → next = strayDecorator.length)) ∧
    Declaration.Descent.member 12 strayBrace = ended (Declaration.read strayBrace) ∧
    Block.Descent.nodes 10 none strayDecorator = ended (Block.read none strayDecorator) := by
  have hmethod : Declaration.read (strayBrace.drop 0) =
      .ok (.leaf .method ⟨["@Override"], "int size() \x7b"⟩ ["  return 1;"], ["\x7d"]) := by
    decide +kernel
  have hone : Block.readOne "@note" ["", "x = (1,", "  2)"] =
      .ok (.statement ["@note"], ["", "x = (1,", "  2)"]) := by
    decide +kernel
  have hall : Block.read none (strayDecorator.drop 1) = .ok ([.statement ["x = (1,", "  2)"]], []) := by
    decide +kernel
  obtain ⟨hmembers, -, -, hdeclarations⟩ := readers_advance strayBrace
  obtain ⟨-, hnode, hnodes, hblocks⟩ := readers_advance strayDecorator
  exact ⟨⟨hmethod, hmembers 0 _ _ hmethod⟩, ⟨hone, hnode 0 _ _ _ _ rfl hone⟩,
    ⟨hall, hnodes 1 (by decide) none _ _ hall⟩, (hdeclarations 12 (by decide)).1,
    (hblocks 10 (by decide)).2.2.1 none⟩

end HouseStyle
