import HouseStyle.Block.Parser
import HouseStyle.Proofs.Block.LogicalLine
import HouseStyle.Proofs.Reading

/-!
# Reading blocks as a relation

`Reads dent lines nodes rest` says that the nodes at the start of the lines, as far as they are
deeper than `dent`, are `nodes`, and that `rest` is left.  It has one rule for each thing the reader
does, so that facts about all trees that are read go by induction on it.

* `Reads`: the rules.
* `read_eq_ok_iff`: the reader succeeds exactly as the rules say.
* `opening?_eq_some`: what is known of a block that a line opens.
-/

namespace HouseStyle.Block

open Text

/-- What the nodes at the start of some lines are, and which lines are left. -/
inductive Reads : Option Nat → List String → List Node → List String → Prop
  | nil {dent : Option Nat} {lines : List String} (h : skipBlank lines = []) :
      Reads dent lines [] []
  | stop {dent : Option Nat} {lines : List String} {line : String} {below : List String}
      (h : skipBlank lines = line :: below) (hc : continues dent line below = false) :
      Reads dent lines [] (line :: below)
  | statement {dent : Option Nat} {lines : List String} {line : String}
      {below physical after rest : List String} {nodes : List Node}
      (h : skipBlank lines = line :: below) (hc : continues dent line below = true)
      (ho : opening? line below = .ok none) (hl : logicalLine line below = some (physical, after))
      (hr : Reads dent after nodes rest) :
      Reads dent lines (.statement physical :: nodes) rest
  | block {dent : Option Nat} {lines : List String} {line : String}
      {below signature after middle rest : List String} {o : Opening} {body nodes : List Node}
      (h : skipBlank lines = line :: below) (hc : continues dent line below = true)
      (ho : opening? line below = .ok (some o))
      (hl : logicalLine o.line o.below = some (signature, after))
      (hn : (o.kind.name? o.line).isSome = true)
      (hb : Reads (some (leadingSpaces o.line)) after body middle)
      (hr : Reads dent middle nodes rest) :
      Reads dent lines (.block o.kind o.header signature body :: nodes) rest

/-! ## Steps of the reader -/

/-- The node that begins with a line that is not blank, and the lines after it. -/
def readOne (line : String) (below : List String) : Except ParseError (Node × List String) :=
  (readNode line below).map fun (node, rest) => (node, rest.1)

theorem read_eq (dent : Option Nat) (lines : List String) :
    read dent lines = match skipBlank lines with
      | [] => .ok ([], [])
      | line :: below =>
        if continues dent line below then
          match readOne line below with
          | .error e => .error e
          | .ok (node, after) =>
            match read dent after with
            | .error e => .error e
            | .ok (nodes, final) => .ok (node :: nodes, final)
        else .ok ([], line :: below) := by
  unfold read readOne
  rw [readNodes]
  split
  · next hs => rw [hs]; rfl
  · next line below hs =>
    simp only [hs]
    split
    · cases readNode line below with
      | error e => rfl
      | ok p =>
        obtain ⟨node, after⟩ := p
        simp only [Except.map]
        cases readNodes dent after.1 <;> rfl
    · rfl

theorem readOne_eq (line : String) (below : List String) :
    readOne line below = match opening? line below with
      | .error e => .error e
      | .ok none =>
        match logicalLine line below with
        | none => .error (unfinished line below)
        | some (lines, rest) => .ok (.statement lines, rest)
      | .ok (some o) =>
        match logicalLine o.line o.below with
        | none => .error (unfinished o.line o.below)
        | some (signature, rest) =>
          match o.kind.name? o.line with
          | none => .error ⟨o.below.length + 1, o.line, .unnamed o.kind⟩
          | some _ =>
            match read (some (leadingSpaces o.line)) rest with
            | .error e => .error e
            | .ok (body, final) => .ok (.block o.kind o.header signature body, final) := by
  unfold readOne read
  rw [readNode]
  split
  · next e ho => rw [ho]; rfl
  · next ho =>
    simp only [ho]
    split
    · next hl => rw [hl]; rfl
    · next lines rest hl => simp only [hl]; rfl
  · next o ho =>
    simp only [ho]
    split
    · next hl => rw [hl]; rfl
    · next signature rest hl =>
      simp only [hl]
      cases o.kind.name? o.line with
      | none => rfl
      | some name => cases readNodes (some (leadingSpaces o.line)) rest <;> rfl

theorem length_rest_readOne {line : String} {below rest : List String} {node : Node}
    (h : readOne line below = .ok (node, rest)) : rest.length ≤ below.length := by
  obtain ⟨⟨_, after⟩, -, he⟩ := exists_of_map_eq_ok h
  cases he
  exact after.2

theorem skipBlank_sublist (lines : List String) : (skipBlank lines).Sublist lines :=
  List.dropWhile_sublist _

/-- A node is a statement where nothing opens, else a block with a name, which holds what is read
below its signature. -/
theorem readOne_eq_ok {line : String} {below after : List String} {node : Node}
    (h : readOne line below = .ok (node, after)) :
    (∃ physical, opening? line below = .ok none ∧
      logicalLine line below = some (physical, after) ∧ node = .statement physical) ∨
    ∃ o signature middle body, opening? line below = .ok (some o) ∧
      logicalLine o.line o.below = some (signature, middle) ∧
      (o.kind.name? o.line).isSome = true ∧
      read (some (leadingSpaces o.line)) middle = .ok (body, after) ∧
      node = .block o.kind o.header signature body := by
  rw [readOne_eq] at h
  split at h
  · cases h
  · next ho =>
    split at h
    · cases h
    next physical after' hl =>
    cases h
    exact Or.inl ⟨physical, ho, hl, rfl⟩
  · next o ho =>
    split at h
    · cases h
    next signature middle hl =>
    split at h
    · cases h
    next name hname =>
    split at h
    · cases h
    next body after' hbody =>
    cases h
    exact Or.inr ⟨o, signature, middle, body, ho, hl, by rw [hname]; rfl, hbody, rfl⟩

/-- The reader follows the rules. -/
theorem reads_of_read {dent : Option Nat} {lines rest : List String} {nodes : List Node}
    (h : read dent lines = .ok (nodes, rest)) : Reads dent lines nodes rest := by
  -- the lines left get fewer with every line that is read
  induction hn : lines.length using Nat.strongRecOn
    generalizing dent lines nodes rest with
  | ind n ih =>
    subst hn
    rw [read_eq] at h
    have hle := (skipBlank_sublist lines).length_le
    cases hs : skipBlank lines with
    | nil =>
      rw [hs] at h
      cases h
      exact .nil hs
    | cons line below =>
      rw [hs, List.length_cons] at hle
      simp only [hs] at h
      split at h
      · next hc =>
        split at h
        · cases h
        next node after hnode =>
        have hafter := length_rest_readOne hnode
        split at h
        · cases h
        next nodes' final hnodes =>
        cases h
        have hrest : Reads dent after nodes' rest := ih _ (by omega) hnodes rfl
        rcases readOne_eq_ok hnode with ⟨physical, ho, hl, rfl⟩ |
          ⟨o, signature, middle, body, ho, hl, hname, hbody, rfl⟩
        · exact .statement hs hc ho hl hrest
        · have hbelow := length_below_opening ho
          have hsignature := length_rest_logicalLine hl
          exact .block hs hc ho hl hname (ih _ (by omega) hbody rfl) hrest
      · next hc =>
        cases h
        exact .stop hs (Bool.eq_false_iff.2 hc)

/-- What the rules say is read. -/
theorem Reads.read_ok {dent : Option Nat} {lines rest : List String} {nodes : List Node}
    (h : Reads dent lines nodes rest) : read dent lines = .ok (nodes, rest) := by
  induction h with
  | nil h => rw [read_eq, h]
  | stop h hc => simp [read_eq, h, hc]
  | @statement _ _ line below physical after _ _ h hc ho hl _ ih =>
    have hnode : readOne line below = .ok (.statement physical, after) := by
      rw [readOne_eq, ho]
      simp only [hl]
    rw [read_eq, h]
    simp only [hc, if_true, hnode, ih]
  | @block _ _ line below signature _ middle _ o body _ h hc ho hl hn _ _ ihb ihr =>
    obtain ⟨name, hname⟩ := Option.isSome_iff_exists.1 hn
    have hnode : readOne line below = .ok (.block o.kind o.header signature body, middle) := by
      rw [readOne_eq, ho]
      simp only [hl, hname, ihb]
    rw [read_eq, h]
    simp only [hc, if_true, hnode, ihr]

/-- **The reader succeeds exactly as the rules say.** -/
theorem read_eq_ok_iff {dent : Option Nat} {lines rest : List String} {nodes : List Node} :
    read dent lines = .ok (nodes, rest) ↔ Reads dent lines nodes rest :=
  ⟨reads_of_read, Reads.read_ok⟩

/-! ## Openings -/

/-- Whether the first of the lines opens a block at the indentation. -/
def opensAt (dent : Indentation) : List String → Bool
  | [] => false
  | opened :: _ => indentation opened == dent && (kind? opened).isSome

/-- A line opens a block either itself or below the decorators that begin with it. -/
theorem opening?_eq_some_iff {line : String} {below : List String} {o : Opening} :
    opening? line below = .ok (some o) ↔ kind? o.line = some o.kind ∧
      (isMarked line = false ∧ o.header = [] ∧ o.line = line ∧ o.below = below ∨
        isMarked line = true ∧ indentation o.line = indentation line ∧
          readDecorators (indentation line) (line :: below) = .ok (o.header, o.line :: o.below)) := by
  obtain ⟨kind, header, opened, rest⟩ := o
  unfold opening?
  cases hm : isMarked line
  · simp only [Bool.false_eq_true, if_false, Except.ok.injEq, Option.map_eq_some_iff,
      Opening.mk.injEq, false_and, or_false]
    constructor
    · rintro ⟨k, hk, rfl, rfl, rfl, rfl⟩
      exact ⟨hk, trivial, rfl, rfl, rfl⟩
    · rintro ⟨hk, -, rfl, rfl, rfl⟩
      exact ⟨kind, hk, rfl, rfl, rfl, rfl⟩
  · simp only [if_true, reduceCtorEq, false_and, false_or, true_and]
    rcases readDecorators (indentation line) (line :: below) with e | ⟨header', _ | ⟨opened', rest'⟩⟩
    · simp
    · simp
    · simp only [Except.ok.injEq, Prod.mk.injEq, List.cons.injEq]
      split
      · next hi =>
        simp only [Except.ok.injEq, Option.map_eq_some_iff, Opening.mk.injEq]
        constructor
        · rintro ⟨k, hk, rfl, rfl, rfl, rfl⟩
          exact ⟨hk, eq_of_beq hi, rfl, rfl, rfl⟩
        · rintro ⟨hk, -, rfl, rfl, rfl⟩
          exact ⟨kind, hk, rfl, rfl, rfl, rfl⟩
      · next hi =>
        simp only [Except.ok.injEq, reduceCtorEq, false_iff]
        rintro ⟨-, hi', -, rfl, -⟩
        exact hi (beq_iff_eq.2 hi')

/-- A line begins a statement if neither it nor what follows its decorators opens a block. -/
theorem opening?_eq_none_iff {line : String} {below : List String} :
    opening? line below = .ok none ↔
      isMarked line = false ∧ kind? line = none ∨
        isMarked line = true ∧ ∃ header rest,
          readDecorators (indentation line) (line :: below) = .ok (header, rest) ∧
            opensAt (indentation line) rest = false := by
  unfold opening?
  cases hm : isMarked line
  · simp
  · simp only [if_true, reduceCtorEq, false_and, false_or, true_and]
    rcases readDecorators (indentation line) (line :: below) with e | ⟨header', _ | ⟨opened', rest'⟩⟩
    · simp
    · simp only [Except.ok.injEq, Prod.mk.injEq, and_assoc]
      simp [opensAt]
    · simp only [Except.ok.injEq, Prod.mk.injEq, and_assoc]
      cases hi : indentation opened' == indentation line <;> simp [opensAt, hi]

theorem isPrefixOf_of_behindKeyword? {keyword : String} {text rest : List Char}
    (h : behindKeyword? keyword text = some rest) : keyword.toList <+: text := by
  unfold behindKeyword? at h
  split at h
  · split at h
    · next hp =>
      rw [Bool.and_eq_true] at hp
      exact List.isPrefixOf_iff_prefix.1 hp.1
    · cases h
  · cases h

theorem head?_of_kind? {line : String} {kind : Kind} (h : kind? line = some kind) :
    ∃ c ∈ ['a', 'c', 'd'], (unindented line).head? = some c := by
  have hhead : ∀ {keyword : String} {rest : List Char} {c : Char},
      behindKeyword? keyword (unindented line) = some rest → keyword.toList.head? = some c →
      (unindented line).head? = some c := by
    intro keyword rest c hb hc
    obtain ⟨tail, ht⟩ := isPrefixOf_of_behindKeyword? hb
    rw [← ht, List.head?_append, hc, Option.some_or]
  unfold kind? at h
  dsimp only at h
  split at h
  · next hclass =>
    obtain ⟨rest, hr⟩ := Option.isSome_iff_exists.1 hclass
    exact ⟨'c', by simp, hhead hr rfl⟩
  split at h
  · next hdef =>
    cases ha : behindKeyword? "async" (unindented line) with
    | some rest => exact ⟨'a', by simp, hhead ha rfl⟩
    | none =>
      rw [ha] at hdef
      obtain ⟨rest, hr⟩ := Option.isSome_iff_exists.1 hdef
      exact ⟨'d', by simp, hhead hr rfl⟩
  · cases h

theorem isBlank_of_kind? {line : String} {kind : Kind} (h : kind? line = some kind) :
    isBlank line = false := by
  obtain ⟨c, hc, hhead⟩ := head?_of_kind? h
  refine isBlank_eq_false_of_head hhead ?_
  rcases (by simpa using hc : c = 'a' ∨ c = 'c' ∨ c = 'd') with rfl | rfl | rfl <;> rfl

theorem isMarked_of_kind? {line : String} {kind : Kind} (h : kind? line = some kind) :
    isMarked line = false := by
  obtain ⟨c, hc, hhead⟩ := head?_of_kind? h
  refine startsWith_eq_false_of_head (c := '@') rfl hhead ?_
  rintro rfl
  exact absurd hc (by decide)

end HouseStyle.Block
