import HouseStyle.Proofs.Block.Formed
import HouseStyle.Proofs.Block.Places
import HouseStyle.Proofs.Machine.LogicalLine
import HouseStyle.Proofs.Machine.Weight

/-!
# Reading blocks in a machine

The reader keeps a cursor in all lines of the file.  It takes the line at a cursor, the line in front
of one, ranges of lines, and all lines from a cursor on; where it hands the cursor on to another
step, the cursor has to have moved, or the run would never end.

* `nodes?`, `node?`: the nodes deeper than an indentation, and one node.
* `placed`: what a reading of the lines left means for a cursor.
* `statementEnd?_eq`, `decorators?_eq`, `opens?_eq`: the steps of the reader.
* `nodes?_eq`: **the cursor reads what the lines left say**, so no file stops the reader.
-/

namespace HouseStyle.Machine

open Text Block

/-! ## The reader -/

/-- The kind of a block, the decorators above it, and the cursor of the line that opens it. -/
structure Entry where
  kind : Block.Kind
  header : List String
  place : Nat

section Reader

variable (lines : List String)

/-- The error of a statement that begins at a cursor and never ends. -/
def unfinished? {α : Type} (first : Nat) : Steps Block.ParseError α := do
  let line ← (lines[first]? : Option String)
  let number ← word? (first + 1)
  throw ⟨number, line, .unfinished⟩

/-- The cursor at which nothing is open any more. -/
def openEnd? (first : Nat) (state : ByteContinuation) (stop : Nat) : Steps Block.ParseError Nat :=
  if state.isOpen then
    match _h : lines[stop]? with
    | none => unfinished? lines first
    | some line => do
      let state ← proceed? state line
      let _ ← word? (stop + 1)
      openEnd? first state (stop + 1)
  else return stop
termination_by lines.length - stop
decreasing_by
  have := (List.getElem?_eq_some_iff.1 _h).1
  omega

/-- The cursor behind the last line in front of a cursor that is not blank, but not in front of
`below`. -/
def withoutBlank? (below stop : Nat) : Option Nat :=
  if _h : below < stop then do
    let last ← sub? stop 1
    let line ← (lines[last]? : Option String)
    if isBlank line then withoutBlank? below (stop - 1) else return stop
  else return stop
termination_by stop
decreasing_by omega

/-- The cursor behind the statement at a cursor. -/
def statementEnd? (first : Nat) : Steps Block.ParseError Nat := do
  let line ← (lines[first]? : Option String)
  let state ← proceed? ⟨0, none, false⟩ line
  let below ← word? (first + 1)
  let stop ← openEnd? lines first state below
  withoutBlank? lines below stop

/-- The cursor behind the blank lines at a cursor. -/
def skipBlank? (start : Nat) : Option Nat := advance? (fun line => some (isBlank line)) lines start

/-- The decorators of an indentation at a cursor, and the cursor behind them. -/
def decorators? (dent next : Nat) : Steps Block.ParseError (List String × Nat) :=
  match _h : lines[next]? with
  | none => return ([], next)
  | some line =>
    if isMarked line then do
      let depth ← indentation? line
      if depth = dent then
        let stop ← statementEnd? lines next
        let decorator ← slice? lines next stop
        let after ← skipBlank? lines stop
        if _on : next < after then
          let more ← decorators? dent after
          return (decorator ++ more.1, more.2)
        else stuck
      else return ([], next)
    else return ([], next)
termination_by lines.length - next
decreasing_by
  have := (List.getElem?_eq_some_iff.1 _h).1
  omega

/-- The block that begins at a cursor, if one does. -/
def opens? (i : Nat) : Steps Block.ParseError (Option Entry) := do
  let line ← (lines[i]? : Option String)
  if isMarked line then
    let dent ← indentation? line
    let found ← decorators? lines dent i
    match lines[found.2]? with
    | none => return none
    | some opened =>
      let depth ← indentation? opened
      if depth = dent then return (kind? opened).map fun kind => ⟨kind, found.1, found.2⟩
      else return none
  else return (kind? line).map fun kind => ⟨kind, [], i⟩

/-- Whether the line at a cursor belongs to a block opened at an indentation. -/
def continues? (i : Nat) (dent : Option Nat) : Option Bool :=
  match dent with
  | none => some true
  | some dent => do
    let left ← slice? lines i lines.length
    let line ← (lines[i]? : Option String)
    let depth ← indentation? ((left.find? fun l => ! isBlank l && ! isComment l).getD line)
    return decide (dent < depth)

mutual

/-- The nodes deeper than an indentation at a cursor, and the cursor behind them. -/
def nodes? (dent : Option Nat) (start : Nat) : Steps Block.ParseError (List Node × Nat) := do
  let i ← skipBlank? lines start
  if i = lines.length then return ([], i)
  else if ← continues? lines i dent then
    if _h : start ≤ i ∧ i < lines.length then
      let first ← node? i
      if _h : i < first.2 ∧ first.2 ≤ lines.length then
        let more ← nodes? dent first.2
        return (first.1 :: more.1, more.2)
      else stuck
    else stuck
  else return ([], i)
termination_by 2 * (lines.length - start) + 1

/-- The node at a cursor, and the cursor behind it. -/
def node? (i : Nat) : Steps Block.ParseError (Node × Nat) := do
  match ← opens? lines i with
  | none =>
    let stop ← statementEnd? lines i
    let physical ← slice? lines i stop
    return (.statement physical, stop)
  | some entry =>
    let stop ← statementEnd? lines entry.place
    let signature ← slice? lines entry.place stop
    let opened ← (lines[entry.place]? : Option String)
    let number ← word? (entry.place + 1)
    match entry.kind.name? (firstOf signature) with
    | none => throw ⟨number, opened, .unnamed entry.kind⟩
    | some _ =>
      let dent ← indentation? opened
      if _h : i < stop ∧ stop ≤ lines.length then
        let body ← nodes? (some dent) stop
        return (.block entry.kind entry.header signature body.1, body.2)
      else stuck
termination_by 2 * (lines.length - i)

end

/-- The nodes of a file. -/
def fileNodes? : Steps Block.ParseError (List Node) := do
  let read ← nodes? lines none 0
  return read.1

end Reader

/-! ## Cursors -/

/-- What a reading of the lines left says about the cursor and the place of an error. -/
def placed {α : Type} (lines : List String) (outcome : Except Block.ParseError (α × List String)) :
    Except Block.ParseError (α × Nat) :=
  (outcome.map fun p => (p.1, lines.length - p.2.length)).mapError (·.locate lines.length)

@[simp] theorem placed_ok {α : Type} {lines : List String} (a : α) (rest : List String) :
    placed lines (.ok (a, rest)) = .ok (a, lines.length - rest.length) := rfl

@[simp] theorem placed_error {α : Type} {lines : List String} (e : Block.ParseError) :
    placed (α := α) lines (.error e) = .error (e.locate lines.length) := rfl

section Cursor

variable {lines inner rest below block : List String} {line : String} {i stop : Nat}
  {state : Continuation}

theorem locate_eq (hd : lines.drop i = line :: below) (text : String) (fault : Block.Fault) :
    (Block.ParseError.mk (below.length + 1) text fault).locate lines.length =
      ⟨i + 1, text, fault⟩ := by
  have hlen := congrArg List.length hd
  rw [List.length_drop, List.length_cons] at hlen
  have hplace : lines.length + 1 - (below.length + 1) = i + 1 := by omega
  rw [Block.ParseError.locate, hplace]

theorem withoutBlank?_eq (hd : lines.drop i = inner ++ rest) :
    withoutBlank? lines i (i + inner.length) =
      some (i + (dropTrailing isBlank inner).length) := by
  induction inner using List.reverseRecOn generalizing rest with
  | nil =>
    rw [withoutBlank?, dif_neg (by simp)]
    rfl
  | append_singleton front last ih =>
    rw [List.append_assoc] at hd
    have hget := getElem?_of_drop (drop_add_of_drop hd)
    have hstop : i + (front ++ [last]).length - 1 = i + front.length := by
      rw [List.length_append, List.length_singleton]
      omega
    rw [withoutBlank?, dif_pos (by simp), sub?_eq (by simp; omega), hstop]
    simp only [Option.bind_eq_bind, Option.bind_some, hget]
    split
    · next hblank =>
      rw [ih hd, dropTrailing_append_of_all (by simpa using hblank)]
    · next hblank =>
      rw [dropTrailing_eq_self (by simpa using hblank)]
      rfl

variable (hweight : weight lines < sizeLimit)

include hweight

theorem succ_lt_wordValues_of_drop (hd : lines.drop i = line :: below) : i + 1 < wordValues := by
  have hi := lt_length_of_drop hd
  have hle : lines.length ≤ weight lines := length_le_weight
  unfold sizeLimit at hweight
  unfold wordValues
  omega

theorem fits_of_drop (hd : lines.drop i = line :: below) : Fits line :=
  fits_of_weight_lt hweight line (List.mem_of_getElem? (getElem?_of_drop hd))

/-! ## Statements -/

theorem unfinished?_eq {α : Type} (hd : lines.drop i = line :: below) :
    unfinished? (α := α) lines i = ended (.error ((unfinished line below).locate lines.length)) := by
  rw [unfinished?, getElem?_of_drop hd, word?_eq (succ_lt_wordValues_of_drop hweight hd), unfinished,
    locate_eq hd]
  rfl

/-- The cursor goes on as long as something is open. -/
theorem openEnd?_eq (hmarked : Marked state.quote) (hdepth : state.depth + weight rest < sizeLimit)
    (hd : lines.drop stop = rest) :
    openEnd? lines i (byteContinuation state) stop =
      (continued state rest).elim (unfinished? lines i) fun p => ended (.ok (stop + p.1.length)) := by
  induction rest generalizing state stop with
  | nil =>
    rw [openEnd?, isOpen_byteContinuation, continued]
    split
    · split
      · rfl
      · next h => rw [getElem?_of_drop_nil hd] at h; cases h
    · rfl
  | cons line below ih =>
    have hword := succ_lt_wordValues_of_drop hweight hd
    have hproceed := proceed?_eq (fits_of_drop hweight hd) hmarked
      (by rw [weight_cons] at hdepth; unfold sizeLimit at hdepth; unfold wordValues; omega)
    have hmore : (state.advance line).depth ≤ state.depth + size line.toList := depth_advance_le
    have ih := ih (marked_advance line hmarked) (by rw [weight_cons] at hdepth; omega)
      (drop_succ_of_drop hd)
    rw [openEnd?, isOpen_byteContinuation, continued]
    split
    · next hopen =>
      split
      · next h => rw [getElem?_of_drop hd] at h; cases h
      · next h =>
        obtain rfl := Option.some.inj ((getElem?_of_drop hd).symm.trans h)
        simp only [hproceed, word?_eq hword, liftM_some, ended_ok_bind, ih]
        cases continued (state.advance line) below with
        | none => rfl
        | some p => simp [Nat.add_assoc, Nat.add_comm 1]
    · rfl

theorem statementEnd?_eq (hd : lines.drop i = line :: below) :
    statementEnd? lines i = (logicalLine line below).elim
      (ended (.error ((unfinished line below).locate lines.length)))
      fun p => ended (.ok (i + p.1.length)) := by
  have hbelow := drop_succ_of_drop hd
  have hsub : weight (line :: below) ≤ weight lines :=
    weight_sublist (hd ▸ List.drop_sublist i lines)
  rw [weight_cons] at hsub
  have hproceed : proceed? ⟨0, none, false⟩ line =
      some (byteContinuation (Continuation.advance {} line)) := by
    refine @proceed?_eq {} line (fits_of_drop hweight hd) marked_none ?_
    show 0 + size line.toList < wordValues
    unfold sizeLimit at hweight
    unfold wordValues
    omega
  have hdepth : (Continuation.advance {} line).depth ≤ 0 + size line.toList := depth_advance_le
  have hopen := openEnd?_eq (i := i) hweight (marked_first line)
    (by omega : (Continuation.advance {} line).depth + weight below < sizeLimit) hbelow
  rw [statementEnd?, getElem?_of_drop hd]
  simp only [liftM_some, ended_ok_bind, hproceed,
    word?_eq (succ_lt_wordValues_of_drop hweight hd), hopen, logicalLine]
  cases hc : continued (Continuation.advance {} line) below with
  | none =>
    simp only [Option.elim_none, Option.map_none, unfinished?_eq hweight hd, ended_error_bind]
  | some p =>
    obtain ⟨inner, rest⟩ := p
    have hinner : lines.drop (i + 1) = inner ++ rest := hbelow.trans (continued_append hc).symm
    have hcount : i + 1 + (dropTrailing isBlank inner).length =
        i + (line :: dropTrailing isBlank inner).length := by
      rw [List.length_cons]
      omega
    simp only [Option.elim_some, Option.map_some, ended_ok_bind, withoutBlank?_eq hinner,
      liftM_some, hcount]

/-! ## Decorators -/

omit hweight in
theorem skipBlank?_eq (hlength : lines.length < wordValues) (hi : i ≤ lines.length) :
    skipBlank? lines i = some (lines.length - (skipBlank (lines.drop i)).length) := by
  have hsplit := List.takeWhile_append_dropWhile (p := isBlank) (l := lines.drop i)
  have hadvance := advance?_eq (i := i) (p := isBlank) hlength fun _ _ => rfl
  rw [skipBlank?, hadvance, skipBlank, length_sub_of_drop hi hsplit.symm]

theorem length_lt_wordValues : lines.length < wordValues :=
  Nat.lt_of_le_of_lt length_le_weight (Nat.lt_trans hweight (by decide))

omit hweight in
theorem decorators?_of_nil {dent : Nat} (hd : lines.drop i = []) :
    decorators? lines dent i = return ([], i) := by
  rw [decorators?]
  split
  · rfl
  · next h => rw [getElem?_of_drop_nil hd] at h; cases h

omit hweight in
/-- One step over the decorators of an indentation. -/
theorem decorators?_of_drop {dent : Nat} (hd : lines.drop i = line :: below) :
    decorators? lines dent i =
      if isMarked line then do
        let depth ← indentation? line
        if depth = dent then
          let stop ← statementEnd? lines i
          let decorator ← slice? lines i stop
          let after ← skipBlank? lines stop
          if i < after then
            let more ← decorators? lines dent after
            return (decorator ++ more.1, more.2)
          else stuck
        else return ([], i)
      else return ([], i) := by
  rw [decorators?]
  split
  · next h => rw [getElem?_of_drop hd] at h; cases h
  · next h =>
    obtain rfl := Option.some.inj ((getElem?_of_drop hd).symm.trans h)
    rfl

theorem decorators?_eq {dent : Indentation} (hdent : Bounded dent) (ls : List String) :
    ∀ i ≤ lines.length, lines.drop i = ls →
      decorators? lines (word dent) i = ended (placed lines (readDecorators dent ls)) := by
  fun_induction readDecorators dent ls with
  | case1 =>
    intro i hi hd
    rw [decorators?_of_nil hd, placed_ok, length_sub_length_of_drop hi hd]
    rfl
  | case2 line below hm hl =>
    intro i hi hd
    rw [Bool.and_eq_true, beq_iff_eq] at hm
    have hend := statementEnd?_eq hweight hd
    rw [hl, Option.elim_none] at hend
    rw [decorators?_of_drop hd]
    simp only [hm.1, if_true, indentation?_eq, liftM_some, ended_ok_bind, hm.2, hend,
      ended_error_bind, placed_error]
  | case3 line below hm decorator after hl hlt ih =>
    intro i hi hd
    rw [Bool.and_eq_true, beq_iff_eq] at hm
    have hsplit : lines.drop i = decorator ++ after := hd.trans (append_of_logicalLine hl).symm
    have hafter := drop_add_of_drop hsplit
    have hcursor := length_sub_of_drop hi hsplit
    have hend := statementEnd?_eq hweight hd
    rw [hl, Option.elim_some] at hend
    have hskip := skipBlank?_eq (length_lt_wordValues hweight)
      (by omega : i + decorator.length ≤ lines.length)
    have hsuffix : skipBlank after <:+ lines :=
      (skipBlank_suffix after).trans (hafter ▸ List.drop_suffix _ lines)
    have hmore := ih (lines.length - (skipBlank after).length) (Nat.sub_le _ _)
      (drop_of_suffix hsuffix)
    have hlen := congrArg List.length hd
    rw [List.length_drop] at hlen
    have hon : i < lines.length - (skipBlank after).length := by omega
    rw [hafter] at hskip
    rw [decorators?_of_drop hd]
    simp only [hm.1, if_true, indentation?_eq, liftM_some, ended_ok_bind, hm.2, hend,
      slice?_eq_of_drop hi hsplit, hskip, if_pos hon, hmore]
    cases readDecorators dent (skipBlank after) <;> rfl
  | case4 line below hm =>
    intro i hi hd
    have hline := fits_of_drop hweight hd
    rw [Bool.and_eq_true, beq_iff_eq] at hm
    rw [decorators?_of_drop hd, placed_ok, length_sub_length_of_drop hi hd]
    split
    · next hmarked =>
      have hne : ¬ word (indentation line) = word dent := fun he =>
        hm ⟨hmarked, (word_inj hline.bounded hdent).1 he⟩
      simp only [indentation?_eq, liftM_some, ended_ok_bind, if_neg hne, pure_eq_ended]
    · rfl

/-! ## Openings -/

/-- A block that a line opens, with the cursor of the line. -/
def entryOf (lines : List String) (o : Opening) : Entry :=
  ⟨o.kind, o.header, lines.length - (o.below.length + 1)⟩

theorem opens?_eq (hi : i ≤ lines.length) (hd : lines.drop i = line :: below) :
    opens? lines i = ended (((opening? line below).map (·.map (entryOf lines))).mapError
      (·.locate lines.length)) := by
  have hline := fits_of_drop hweight hd
  rw [opens?, getElem?_of_drop hd]
  simp only [liftM_some, ended_ok_bind, opening?]
  split
  · have hread := decorators?_eq hweight hline.bounded (line :: below) i hi hd
    simp only [indentation?_eq, liftM_some, ended_ok_bind, hread]
    cases hr : readDecorators (indentation line) (line :: below) with
    | error e => rfl
    | ok p =>
      obtain ⟨header, rest⟩ := p
      obtain ⟨decorators, -, htakes⟩ := takes_readDecorators hr
      obtain ⟨taken, htaken, -⟩ := htakes.spread
      have hsuffix : rest <:+ line :: below := ⟨taken, htaken.symm⟩
      have hrest := drop_of_suffix (hsuffix.trans (hd ▸ List.drop_suffix i lines))
      simp only [placed_ok, ended_ok_bind]
      cases rest with
      | nil =>
        rw [getElem?_of_drop_nil hrest]
        rfl
      | cons opened rest =>
        have hopened := fits_of_drop hweight hrest
        simp only [getElem?_of_drop hrest, word_inj hopened.bounded hline.bounded, beq_iff_eq]
        split
        · cases kind? opened <;> rfl
        · rfl
  · have hcursor : lines.length - (below.length + 1) = i := length_sub_length_of_drop hi hd
    simp only [pure_eq_ended, Except.map, Except.mapError]
    cases kind? line with
    | none => rfl
    | some kind => simp [entryOf, hcursor]

theorem continues?_eq {dent : Option Nat} (hdent : ∀ n ∈ dent, n < sizeLimit)
    (hd : lines.drop i = line :: below) :
    continues? lines i dent = some (continues dent line below) := by
  cases dent with
  | none => rfl
  | some dent =>
    have hi := lt_length_of_drop hd
    have hlen := congrArg List.length hd
    rw [List.length_drop] at hlen
    have hslice := slice?_eq_of_drop (Nat.le_of_lt hi) (hd.trans (List.append_nil _).symm)
    have hstop : i + (line :: below).length = lines.length := by omega
    have hmem : ∀ l ∈ line :: below, l ∈ lines := fun l hl => List.mem_of_mem_drop (hd ▸ hl)
    have hcode : Fits (((line :: below).find? fun l => ! isBlank l && ! isComment l).getD line) := by
      cases hfind : (line :: below).find? fun l => ! isBlank l && ! isComment l with
      | none => exact fits_of_drop hweight hd
      | some code =>
        exact fits_of_weight_lt hweight code (hmem code (List.mem_of_find?_eq_some hfind))
    rw [hstop] at hslice
    rw [continues?, hslice, getElem?_of_drop hd]
    simp only [Option.bind_eq_bind, Option.bind_some, indentation?_eq, Option.pure_def, continues]
    rw [Option.some_inj, Bool.eq_iff_iff, decide_eq_true_eq]
    exact lt_word_iff hcode (hdent dent rfl)

/-! ## Nodes -/

/-- Whether nodes are read from a cursor on as the lines left say. -/
def ReadsNodes (lines : List String) (i : Nat) : Prop :=
  ∀ dent : Option Nat, (∀ n ∈ dent, n < sizeLimit) →
    nodes? lines dent i = ended (placed lines (read dent (lines.drop i)))

/-- A node is read as the lines left say if nodes behind its cursor are. -/
theorem node?_step (hi : i ≤ lines.length) (hd : lines.drop i = line :: below)
    (hnodes : ∀ j, i < j → j ≤ lines.length → ReadsNodes lines j) :
    node? lines i = ended (placed lines (readOne line below)) := by
  rw [node?, opens?_eq hweight hi hd, readOne_eq]
  cases ho : opening? line below with
  | error e => rfl
  | ok opening =>
    cases opening with
    | none =>
      have hend := statementEnd?_eq hweight hd
      simp only [Except.map, Option.map_none, Except.mapError, ended_ok_bind, hend]
      cases hl : logicalLine line below with
      | none => rfl
      | some p =>
        obtain ⟨physical, rest⟩ := p
        have hsplit : lines.drop i = physical ++ rest := hd.trans (append_of_logicalLine hl).symm
        simp only [Option.elim_some, ended_ok_bind, slice?_eq_of_drop hi hsplit, liftM_some,
          pure_eq_ended, placed_ok, length_sub_of_drop hi hsplit]
    | some o =>
      have hsuffix : o.line :: o.below <:+ lines :=
        (suffix_of_opening? ho).trans (hd ▸ List.drop_suffix i lines)
      have hopened := drop_of_suffix hsuffix
      rw [List.length_cons] at hopened
      have hend := statementEnd?_eq hweight hopened
      have hline : isBlank o.line = false := isBlank_of_kind? (opening?_eq_some_iff.1 ho).1
      simp only [Except.map, Option.map_some, Except.mapError, ended_ok_bind, entryOf, hend]
      cases hl : logicalLine o.line o.below with
      | none => rfl
      | some p =>
        obtain ⟨signature, rest⟩ := p
        have hplace := Nat.sub_le lines.length (o.below.length + 1)
        have hsplit : lines.drop (lines.length - (o.below.length + 1)) = signature ++ rest :=
          hopened.trans (append_of_logicalLine hl).symm
        simp only [Option.elim_some, ended_ok_bind, slice?_eq_of_drop hplace hsplit, liftM_some,
          getElem?_of_drop hopened, word?_eq (succ_lt_wordValues_of_drop hweight hopened),
          firstOf_of_logicalLine hl]
        cases o.kind.name? o.line with
        | none =>
          simp only [throw_eq_ended, placed_error, locate_eq hopened]
        | some name =>
          have hle := (suffix_of_opening? ho).length_le
          have hlen := congrArg List.length hd
          have hcut := congrArg List.length hsplit
          have hpos : signature ≠ [] := fun hnil => by
            have hhead := head?_of_logicalLine hl
            rw [hnil] at hhead
            cases hhead
          have hsize := List.length_pos_of_ne_nil hpos
          rw [List.length_drop, List.length_append] at hcut
          rw [List.length_cons, List.length_cons] at hle
          rw [List.length_drop, List.length_cons] at hlen
          have hon : i < lines.length - (o.below.length + 1) + signature.length ∧
              lines.length - (o.below.length + 1) + signature.length ≤ lines.length := by omega
          have hdent : ∀ n ∈ some (leadingSpaces o.line), n < sizeLimit := fun n hn => by
            obtain rfl := Option.some.inj hn
            exact (fits_of_drop hweight hopened).leadingSpaces_lt
          have hbody := hnodes _ hon.1 hon.2 _ hdent
          rw [drop_add_of_drop hsplit] at hbody
          simp only [indentation?_of_not_isBlank hline, liftM_some, ended_ok_bind, dif_pos hon,
            hbody]
          cases read (some (leadingSpaces o.line)) rest <;> rfl

/-- Nodes are read as the lines left say if the node at the cursor and the nodes behind it are. -/
theorem nodes?_step (hi : i ≤ lines.length)
    (hnode : ∀ j, i ≤ j → ∀ line below, lines.drop j = line :: below →
      node? lines j = ended (placed lines (readOne line below)))
    (hnodes : ∀ j, i < j → j ≤ lines.length → ReadsNodes lines j) : ReadsNodes lines i := by
  intro dent hdent
  have hsuffix : skipBlank (lines.drop i) <:+ lines :=
    (skipBlank_suffix _).trans (List.drop_suffix i lines)
  have hle := (skipBlank_sublist (lines.drop i)).length_le
  have hdrop := drop_of_suffix hsuffix
  rw [List.length_drop] at hle
  rw [nodes?, skipBlank?_eq (length_lt_wordValues hweight) hi, read_eq]
  simp only [liftM_some, ended_ok_bind]
  cases hs : skipBlank (lines.drop i) with
  | nil =>
    rw [List.length_nil, Nat.sub_zero, if_pos rfl]
    rfl
  | cons line below =>
    rw [hs] at hdrop hle
    have hlt := lt_length_of_drop hdrop
    rw [if_neg (Nat.ne_of_lt hlt)]
    simp only [continues?_eq hweight hdent hdrop, liftM_some, ended_ok_bind]
    split
    · have hon : i ≤ lines.length - (line :: below).length ∧
          lines.length - (line :: below).length < lines.length := by omega
      rw [dif_pos hon, hnode _ hon.1 line below hdrop]
      cases hone : readOne line below with
      | error e => rfl
      | ok p =>
        obtain ⟨node, after⟩ := p
        have hshort := length_rest_readOne hone
        have hafter := drop_of_suffix ((suffix_of_readOne hone).trans (hdrop ▸ List.drop_suffix _ lines))
        have hnext : lines.length - (line :: below).length < lines.length - after.length ∧
            lines.length - after.length ≤ lines.length := by
          rw [List.length_cons] at hle ⊢
          omega
        have hmore := hnodes _ (Nat.lt_of_le_of_lt hon.1 hnext.1) hnext.2 dent hdent
        rw [hafter] at hmore
        simp only [placed_ok, ended_ok_bind, dif_pos hnext, hmore]
        cases read dent after <;> rfl
    · rfl

/-- **The cursor reads what the lines left say.** -/
theorem nodes?_eq (hi : i ≤ lines.length) : ReadsNodes lines i := by
  -- every step hands a cursor on that is nearer to the end
  induction hk : lines.length - i using Nat.strongRecOn generalizing i with
  | ind k ih =>
    have hnodes : ∀ j, i < j → j ≤ lines.length → ReadsNodes lines j := fun j hij hj =>
      ih (lines.length - j) (by omega) hj rfl
    refine nodes?_step hweight hi (fun j hij line below hd => ?_) hnodes
    have hj := lt_length_of_drop hd
    exact node?_step hweight (Nat.le_of_lt hj) hd fun j' hj' =>
      hnodes j' (Nat.lt_of_le_of_lt hij hj')

/-- **No file of blocks stops the reader**, and it reads the file as it is. -/
theorem fileNodes?_eq : fileNodes? lines = ended (Block.parse lines) := by
  have hread := nodes?_eq hweight (Nat.zero_le lines.length) none nofun
  rw [List.drop_zero] at hread
  rw [fileNodes?, hread, Block.parse]
  cases read none lines <;> rfl

end Cursor

end HouseStyle.Machine
