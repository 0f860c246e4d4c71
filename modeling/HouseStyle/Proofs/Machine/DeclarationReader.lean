import HouseStyle.Proofs.Declaration.Places
import HouseStyle.Proofs.Machine.Line

/-!
# Reading declarations in a machine

The reader keeps a cursor in the lines that are not blank.  It takes the line at the cursor, ranges
of lines between two cursors, and the line in front of the end; where it hands the cursor on to
another step, the cursor has to have moved, or the run would never end.

* `member?`, `members?`: one declaration, and the members of a scope.
* `seen`: what a reading of the lines left means for a cursor.
* `member?_eq`: **the cursor reads what the lines left say.**
* `file?_eq`: **no file stops the reader**, and it reads the file as it is.
-/

namespace HouseStyle.Machine

open Text Declaration

/-- A line with its number in the file. -/
structure Line where
  number : Nat
  text : String

/-- The error of a fault of the line. -/
def Line.error (line : Line) (fault : Fault) : ParseError := .atLine line.number line.text fault

/-- The lines of a file that are not blank. -/
def numbered? (lines : List String) : Option (List Line) := do
  let all ← lines.zipIdx.mapM fun line => do
    let number ← word? (line.2 + 1)
    return Line.mk number line.1
  return all.filter (! isBlank ·.text)

/-! ## The reader -/

section Reader

variable (lines : List Line)

/-- The texts between two cursors. -/
def texts? (start stop : Nat) : Option (List String) := do
  let range ← slice? lines start stop
  return range.map Line.text

/-- The cursor behind a header. -/
def headerEnd? (start : Nat) : Option Nat := do
  let i ← advance? (fun line => some (isComment line.text)) lines start
  advance? (fun line => some (isMarked line.text)) lines i

/-- The lines up to the one that closes a construct, and the cursor behind that one. -/
def linesUntil? (opened : Line) (dent start : Nat) : Steps ParseError (List String × Nat) := do
  let stop ← advance? (fun line => return ! (← closes? line.text dent "\x7d")) lines start
  match lines[stop]? with
  | none => throw (opened.error .unclosed)
  | some _ =>
    let inner ← texts? lines start stop
    let next ← word? (stop + 1)
    return (inner, next)

/-- The rest of a declaration without members. -/
def leaf? (shape : Shape) (opened : Line) (head : Head) (dent start : Nat) :
    Steps ParseError (Declaration × Nat) :=
  match shape with
  | .enum =>
    if head.signature.toList.getLast? == some '\x7d' then return (.leaf .enum head [], start)
    else do
      let inner ← linesUntil? lines opened dent start
      return (.leaf .enum head inner.1, inner.2)
  | .emptyClass => return (.scope none head [], start)
  | .abstractMethod | .emptyMethod => return (.leaf .method head [], start)
  | .openMethod => do
    let inner ← linesUntil? lines opened dent start
    return (.leaf .method head inner.1, inner.2)
  | .field => return (.leaf .field head [], start)
  | .multilineField => do
    let stop ← advance? (fun line => return decide (dent < (← indentation? line.text))) lines start
    let value ← texts? lines start stop
    return (.leaf .field head value, stop)
  | .openClass | .fieldClass => throw (opened.error .unrecognized)

/-- A declaration that was read and the cursor behind it, provided that it shows its name. -/
def named? (opened : Line) (read : Declaration × Nat) : Steps ParseError (Declaration × Nat) :=
  match read.1.name? with
  | none => throw (opened.error (.unnamed read.1.kind))
  | some _ => return read

/-- The error of an input that ends behind the header between two cursors. -/
def endOfInput? (start stop : Nat) : Steps ParseError (Declaration × Nat) :=
  if start < stop then do
    let last ← sub? stop 1
    let line ← (lines[last]? : Option Line)
    throw (line.error .unclosed)
  else throw .missingDeclaration

mutual

/-- The declaration at a cursor, and the cursor behind it. -/
def member? (start : Nat) : Steps ParseError (Declaration × Nat) := do
  let stop ← headerEnd? lines start
  let header ← texts? lines start stop
  match lines[stop]? with
  | none => endOfInput? lines start stop
  | some opened =>
    let head : Head := ⟨header, opened.text⟩
    let dent ← indentation? opened.text
    let below ← word? (stop + 1)
    match classify opened.text (lines[below]?.map Line.text) with
    | none => throw (opened.error .unrecognized)
    | some shape =>
      let body ← show Steps ParseError (Declaration × Nat) from match shape with
        | .openClass =>
          if _h : start < below ∧ below ≤ lines.length then do
            let inner ← members? opened dent "\x7d" below
            return (.scope none head inner.1, inner.2)
          else stuck
        | .fieldClass => do
          let opener ← (lines[below]? : Option Line)
          let first ← word? (below + 1)
          let dent ← indentation? opener.text
          if _h : start < first ∧ first ≤ lines.length then
            let inner ← members? opener dent "\x7d;" first
            return (.scope (some opener.text) head inner.1, inner.2)
          else stuck
        | shape => leaf? lines shape opened head dent below
      named? opened body
termination_by 2 * (lines.length - start)

/-- The members at a cursor up to the line that closes their scope, and the cursor behind it. -/
def members? (opened : Line) (dent : Nat) (closer : String) (start : Nat) :
    Steps ParseError (List Declaration × Nat) := do
  match lines[start]? with
  | none => throw (opened.error .unclosed)
  | some line =>
    if ← closes? line.text dent closer then
      let next ← word? (start + 1)
      return ([], next)
    else
      let depth ← indentation? line.text
      if depth ≤ dent then throw (line.error .misindented)
      else
        let stop ← headerEnd? lines start
        match lines[stop]? with
        | none => throw (opened.error .unclosed)
        | some _ =>
          let first ← member? start
          if _h : start < first.2 ∧ first.2 ≤ lines.length then
            let more ← members? opened dent closer first.2
            return (first.1 :: more.1, more.2)
          else stuck
termination_by 2 * (lines.length - start) + 1

end

/-- A file of declarations. -/
def file? (source : List String) : Steps ParseError SourceFile := do
  let lines ← numbered? source
  let start ← advance? (fun line => some (isPreamble line.text)) lines 0
  let preamble ← texts? lines 0 start
  if start = lines.length then throw .missingDeclaration
  else
    let root ← member? lines start
    match lines[root.2]? with
    | some line => throw (line.error .trailing)
    | none => return ⟨preamble, root.1⟩

end Reader

/-! ## The lines left at a cursor -/

/-- The texts of the lines from a cursor on. -/
def textsFrom (lines : List Line) (i : Nat) : List String := (lines.drop i).map Line.text

/-- What a reading of the lines left says about the cursor and the place of an error. -/
def seen {α : Type} (lines : List Line) (outcome : Except ParseError (α × List String)) :
    Except ParseError (α × Nat) :=
  (outcome.map fun p => (p.1, lines.length - p.2.length)).mapError
    (·.locate (lines.map Line.number))

@[simp] theorem seen_ok {α : Type} {lines : List Line} (a : α) (rest : List String) :
    seen lines (.ok (a, rest)) = .ok (a, lines.length - rest.length) := rfl

@[simp] theorem seen_error {α : Type} {lines : List Line} (e : ParseError) :
    seen (α := α) lines (.error e) = .error (e.locate (lines.map Line.number)) := rfl

/-- What is known of the lines that are read: there are not too many, none is too long and none is
blank. -/
structure Room (lines : List Line) : Prop where
  length : lines.length < sizeLimit
  fits : ∀ line ∈ lines, Fits line.text
  code : ∀ line ∈ lines, isBlank line.text = false

section Cursor

variable {lines : List Line} {i : Nat} {text : String} {rest : List String}

theorem length_textsFrom (lines : List Line) (i : Nat) :
    (textsFrom lines i).length = lines.length - i := by
  rw [textsFrom, List.length_map, List.length_drop]

theorem getElem?_of_textsFrom_nil (h : textsFrom lines i = []) : lines[i]? = none :=
  getElem?_of_drop_nil (List.map_eq_nil_iff.1 h)

theorem exists_of_textsFrom_cons (h : textsFrom lines i = text :: rest) :
    ∃ line, lines[i]? = some line ∧ line.text = text ∧ textsFrom lines (i + 1) = rest ∧
      i < lines.length := by
  obtain ⟨line, more, hd, rfl, rfl⟩ := List.map_eq_cons_iff.1 h
  exact ⟨line, getElem?_of_drop hd, rfl, by rw [textsFrom, drop_succ_of_drop hd],
    lt_length_of_drop hd⟩

theorem locate_error {line : Line} (h : lines[i]? = some line) (fault : Fault) :
    (ParseError.atLine (lines.length - i) line.text fault).locate (lines.map Line.number) =
      line.error fault := by
  have hlt := (List.getElem?_eq_some_iff.1 h).1
  have hplace : lines.length - (lines.length - i) = i := by omega
  rw [ParseError.locate, List.length_map, hplace, List.getD_eq_getElem?_getD, List.getElem?_map, h]
  rfl

theorem locate_place {line : Line} (h : lines[i]? = some line) (hrest : textsFrom lines (i + 1) = rest)
    (fault : Fault) : ((Place.mk (rest.length + 1) line.text).error fault).locate
      (lines.map Line.number) = line.error fault := by
  have hlt := (List.getElem?_eq_some_iff.1 h).1
  have hleft : rest.length + 1 = lines.length - i := by
    rw [← hrest, length_textsFrom]
    omega
  rw [Place.error, hleft]
  exact locate_error h fault

variable (room : Room lines)

include room

theorem Room.lt_wordValues (hi : i ≤ lines.length) : i + 2 < wordValues := by
  have hlen := room.length
  unfold sizeLimit at hlen
  unfold wordValues
  omega

theorem Room.advance?_eq {test : Line → Option Bool} {p : String → Bool}
    (hp : ∀ line ∈ lines, test line = some (p line.text)) :
    advance? test lines i = some (i + ((textsFrom lines i).takeWhile p).length) := by
  rw [Machine.advance?_eq (Nat.lt_trans room.length (by decide))
    fun line hl => hp line (List.mem_of_mem_drop hl), textsFrom, List.takeWhile_map,
    List.length_map]
  rfl

omit room in
theorem textsFrom_add {a b : List String} (h : textsFrom lines i = a ++ b) :
    textsFrom lines (i + a.length) = b := by
  obtain ⟨a', b', hd, rfl, rfl⟩ := List.map_eq_append_iff.1 h
  rw [textsFrom, List.length_map, drop_add_of_drop hd]

omit room in
theorem texts?_eq {a b : List String} (hi : i ≤ lines.length)
    (h : textsFrom lines i = a ++ b) : texts? lines i (i + a.length) = some a := by
  obtain ⟨a', b', hd, rfl, rfl⟩ := List.map_eq_append_iff.1 h
  rw [texts?, List.length_map, slice?_eq_of_drop hi hd]
  rfl

omit room in
theorem add_length_le {a b : List String} (hi : i ≤ lines.length)
    (h : textsFrom lines i = a ++ b) : i + a.length + b.length = lines.length := by
  have hlen := congrArg List.length h
  rw [length_textsFrom, List.length_append] at hlen
  omega

/-! ## Steps of the reader -/

theorem headerEnd?_eq : headerEnd? lines i = some (i + (headerLines (textsFrom lines i)).length) := by
  have hcomments := List.takeWhile_append_dropWhile (p := isComment) (l := textsFrom lines i)
  rw [headerEnd?, room.advance?_eq (p := isComment) fun _ _ => rfl, Option.bind_eq_bind,
    Option.bind_some, room.advance?_eq (p := isMarked) fun _ _ => rfl,
    textsFrom_add hcomments.symm, headerLines, List.length_append, Nat.add_assoc]

variable {opened : Line} {place : Place} {dent : Nat}
  (hplace : ∀ fault, (place.error fault).locate (lines.map Line.number) = opened.error fault)
  (hdent : dent < sizeLimit)

include hplace hdent

theorem linesUntil?_eq (hi : i ≤ lines.length) :
    linesUntil? lines opened dent i = ended (seen lines (readLines place dent (textsFrom lines i))) := by
  have hclose : ∀ line ∈ lines, (do return ! (← closes? line.text dent "\x7d") : Option Bool) =
      some (! closes line.text dent "\x7d") := fun line _ => by
    rw [closes?_eq hdent (by decide)]
    rfl
  have hsplit := List.takeWhile_append_dropWhile (p := (! closes · dent "\x7d"))
    (l := textsFrom lines i)
  have hlen := add_length_le hi hsplit.symm
  have hbelow := textsFrom_add hsplit.symm
  rw [linesUntil?, room.advance?_eq (p := (! closes · dent "\x7d")) hclose, readLines]
  cases hd : (textsFrom lines i).dropWhile (! closes · dent "\x7d") with
  | nil =>
    rw [hd] at hbelow
    simp only [liftM_some, ended_ok_bind, getElem?_of_textsFrom_nil hbelow, throw_eq_ended,
      seen_error, hplace]
  | cons text rest =>
    rw [hd, List.length_cons] at hlen
    rw [hd] at hbelow
    obtain ⟨line, hget, rfl, -, -⟩ := exists_of_textsFrom_cons hbelow
    have hnext := room.lt_wordValues (Nat.le_of_lt (List.getElem?_eq_some_iff.1 hget).1)
    have hcursor : lines.length - rest.length =
        i + ((textsFrom lines i).takeWhile (! closes · dent "\x7d")).length + 1 := by omega
    simp only [liftM_some, ended_ok_bind, hget, texts?_eq hi hsplit.symm,
      word?_eq (Nat.lt_of_succ_lt hnext), pure_eq_ended, seen_ok, hcursor]

theorem leaf?_eq (shape : Shape) {head : Head} (hi : i ≤ lines.length)
    (hhead : leadingSpaces head.signature = dent) :
    leaf? lines shape opened head dent i =
      ended (seen lines (readLeaf shape place head (textsFrom lines i))) := by
  have hstays : lines.length - (textsFrom lines i).length = i := by rw [length_textsFrom]; omega
  have hinner := linesUntil?_eq room hplace hdent hi
  unfold leaf? readLeaf
  rw [hhead]
  cases shape with
  | enum =>
    simp only []
    split
    · simp only [pure_eq_ended, seen_ok, hstays]
    · rw [hinner]
      cases readLines place dent (textsFrom lines i) <;> rfl
  | openMethod =>
    simp only [hinner]
    cases readLines place dent (textsFrom lines i) <;> rfl
  | multilineField =>
    have hdeep : ∀ line ∈ lines, (do return decide (dent < (← indentation? line.text)) : Option Bool) =
        some (isInside dent line.text) := fun line hl => by
      rw [indentation?_eq, Option.bind_eq_bind, Option.bind_some, Option.pure_def, Option.some_inj,
        Bool.eq_iff_iff, decide_eq_true_eq, lt_word_iff (room.fits line hl) hdent]
    have hsplit := List.takeWhile_append_dropWhile (p := isInside dent) (l := textsFrom lines i)
    have hlen := add_length_le hi hsplit.symm
    have hcursor : lines.length - ((textsFrom lines i).dropWhile (isInside dent)).length =
        i + ((textsFrom lines i).takeWhile (isInside dent)).length := by omega
    simp only [room.advance?_eq hdeep, liftM_some, ended_ok_bind, texts?_eq hi hsplit.symm,
      pure_eq_ended, seen_ok, hcursor]
  | openClass | fieldClass => simp only [throw_eq_ended, seen_error, hplace]
  | emptyClass | abstractMethod | emptyMethod | field => simp only [pure_eq_ended, seen_ok, hstays]

omit hdent

omit room in
theorem named?_eq {d : Declaration} {rest : List String} :
    named? opened (d, lines.length - rest.length) = ended (seen lines (named place d rest)) := by
  unfold named? named
  cases d.name? with
  | none => rw [throw_eq_ended, seen_error, hplace]
  | some name => rw [pure_eq_ended, seen_ok]

omit hplace

/-! ## Declarations and members -/

omit room in
theorem head?_textsFrom : (textsFrom lines i).head? = lines[i]?.map Line.text := by
  rw [textsFrom, List.head?_map, List.head?_drop]

omit room in
/-- What is left after a reading is what stands at the cursor that goes with it. -/
theorem textsFrom_of_suffix {rest : List String} (hi : i ≤ lines.length)
    (h : rest <:+ textsFrom lines i) : textsFrom lines (lines.length - rest.length) = rest := by
  obtain ⟨before, hbefore⟩ := h
  have hlen := add_length_le hi hbefore.symm
  have hcursor : lines.length - rest.length = i + before.length := by omega
  rw [hcursor, textsFrom_add hbefore.symm]

/-- Whether members are read from a cursor on as the lines left say. -/
def ReadsMembers (lines : List Line) (i : Nat) : Prop :=
  ∀ {opened : Line} {place : Place} {dent : Nat} {closer : String},
    (∀ fault, (place.error fault).locate (lines.map Line.number) = opened.error fault) →
    dent < sizeLimit → size closer.toList ≤ 2 →
    members? lines opened dent closer i =
      ended (seen lines (readAll place dent closer (textsFrom lines i)))

omit room in
/-- An input that ends behind a header is at fault in its last line. -/
theorem endOfInput?_eq (hi : i ≤ lines.length) {stop : Nat} (hstop : stop = lines.length) :
    endOfInput? lines i stop =
      ended (seen lines (.error (endOfInput (textsFrom lines i)))) := by
  have hlen := length_textsFrom lines i
  unfold endOfInput? endOfInput
  cases hlast : (textsFrom lines i).getLast? with
  | none =>
    rw [List.getLast?_eq_none_iff] at hlast
    rw [hlast, List.length_nil] at hlen
    rw [if_neg (by omega)]
    rfl
  | some last =>
    obtain ⟨before, hbefore⟩ := List.getLast?_eq_some_iff.1 hlast
    rw [hbefore, List.length_append, List.length_singleton] at hlen
    obtain ⟨line, hget, rfl, -, -⟩ := exists_of_textsFrom_cons (textsFrom_add hbefore)
    have hindex : stop - 1 = i + before.length := by omega
    have hplace : lines.length - (i + before.length) = 1 := by omega
    have herror := locate_error hget .unclosed
    rw [hplace] at herror
    rw [if_pos (by omega), sub?_eq (by omega), hindex]
    simp only [liftM_some, ended_ok_bind, hget, throw_eq_ended, seen_error, herror]

/-- A declaration is read as the lines left say if members behind its cursor are. -/
theorem member?_step (hi : i ≤ lines.length)
    (hmembers : ∀ j, i < j → j ≤ lines.length → ReadsMembers lines j) :
    member? lines i = ended (seen lines (read (textsFrom lines i))) := by
  have hsplit := headerLines_append_afterHeader (textsFrom lines i)
  have hstop := textsFrom_add hsplit.symm
  have hlen := add_length_le hi hsplit.symm
  rw [member?, headerEnd?_eq room]
  simp only [liftM_some, ended_ok_bind, texts?_eq hi hsplit.symm]
  cases ha : afterHeader (textsFrom lines i) with
  | nil =>
    rw [ha] at hstop hlen
    rw [read_of_afterHeader_nil ha, getElem?_of_textsFrom_nil hstop]
    exact endOfInput?_eq hi hlen
  | cons signature below =>
    rw [ha, List.length_cons] at hlen
    rw [ha] at hstop
    obtain ⟨opened, hget, rfl, hbelow, hlt⟩ := exists_of_textsFrom_cons hstop
    have hnext := room.lt_wordValues (Nat.le_of_lt hlt)
    have hopened := List.mem_of_getElem? hget
    have hplace := locate_place hget hbelow
    have hdent := (room.fits opened hopened).leadingSpaces_lt
    rw [read_of_afterHeader_cons ha, hget]
    simp only [indentation?_of_not_isBlank (room.code opened hopened),
      word?_eq (Nat.lt_of_succ_lt hnext), liftM_some, ended_ok_bind, ← head?_textsFrom, hbelow]
    cases hc : classify opened.text below.head? with
    | none => simp only [throw_eq_ended, seen_error, hplace]
    | some shape =>
      have hhead : leadingSpaces (Head.mk (headerLines (textsFrom lines i)) opened.text).signature =
          leadingSpaces opened.text := rfl
      have hleaf := leaf?_eq room hplace hdent shape (Nat.succ_le_of_lt hlt) hhead
      rw [hbelow] at hleaf
      cases shape with
      | openClass =>
        have hinner := hmembers (i + (headerLines (textsFrom lines i)).length + 1) (by omega)
          (by omega) hplace hdent (by decide : size "\x7d".toList ≤ 2)
        simp only [readBody]
        rw [dif_pos ⟨by omega, by omega⟩, hinner, hbelow]
        cases readAll ⟨below.length + 1, opened.text⟩ (leadingSpaces opened.text) "\x7d" below with
        | error e => rfl
        | ok inner => exact named?_eq hplace
      | fieldClass =>
        cases below with
        | nil =>
          have hfits := fits_of_classify hc
          simp [Shape.fits] at hfits
        | cons opener inner =>
          rw [List.length_cons] at hlen
          obtain ⟨opener, hget', rfl, hinner, hlt'⟩ := exists_of_textsFrom_cons hbelow
          have hopener := List.mem_of_getElem? hget'
          have hplace' := locate_place hget' hinner
          have hread := hmembers (i + (headerLines (textsFrom lines i)).length + 1 + 1) (by omega)
            (by omega) hplace' (room.fits opener hopener).leadingSpaces_lt
            (by decide : size "\x7d;".toList ≤ 2)
          simp only [hget', indentation?_of_not_isBlank (room.code opener hopener),
            word?_eq hnext, liftM_some, ended_ok_bind, readBody]
          rw [dif_pos ⟨by omega, by omega⟩, hread, hinner]
          cases readAll ⟨inner.length + 1, opener.text⟩ (leadingSpaces opener.text) "\x7d;" inner with
          | error e => rfl
          | ok members => exact named?_eq hplace
      | _ =>
        simp only [readBody, hleaf]
        cases readLeaf _ _ _ below with
        | error e => rfl
        | ok d => exact named?_eq hplace

/-- Members are read as the lines left say if the declaration at the cursor and the members behind it
are. -/
theorem members?_step (hi : i ≤ lines.length)
    (hmember : member? lines i = ended (seen lines (read (textsFrom lines i))))
    (hmembers : ∀ j, i < j → j ≤ lines.length → ReadsMembers lines j) : ReadsMembers lines i := by
  intro opened place dent closer hplace hdent hcloser
  rw [members?]
  cases ht : textsFrom lines i with
  | nil =>
    rw [getElem?_of_textsFrom_nil ht, readAll_nil]
    simp only [throw_eq_ended, seen_error, hplace]
  | cons text rest =>
    obtain ⟨line, hget, rfl, hrest, hlt⟩ := exists_of_textsFrom_cons ht
    have hline := List.mem_of_getElem? hget
    rw [hget, readAll_cons]
    simp only [closes?_eq hdent hcloser, liftM_some, ended_ok_bind]
    split
    · -- the closing line
      have hcursor : lines.length - rest.length = i + 1 := by
        rw [← hrest, length_textsFrom]
        omega
      have hnext := room.lt_wordValues (Nat.le_of_lt hlt)
      simp only [word?_eq (Nat.lt_of_succ_lt hnext), liftM_some, ended_ok_bind, pure_eq_ended,
        seen_ok, hcursor]
    simp only [indentation?_eq, liftM_some, ended_ok_bind,
      word_le_iff (room.fits line hline) hdent]
    split
    · -- a line that is not deep enough
      have herror := locate_place hget hrest .misindented
      rw [Place.error] at herror
      simp only [throw_eq_ended, seen_error, herror]
    simp only [headerEnd?_eq room, liftM_some, ended_ok_bind, ht]
    have hsplit := headerLines_append_afterHeader (line.text :: rest)
    have hstop := textsFrom_add (ht.trans hsplit.symm)
    cases ha : afterHeader (line.text :: rest) with
    | nil =>
      rw [ha] at hstop
      rw [getElem?_of_textsFrom_nil hstop, List.isEmpty_nil, if_pos rfl]
      simp only [throw_eq_ended, seen_error, hplace]
    | cons signature below =>
      rw [ha] at hstop
      obtain ⟨signature, hget', -, -, -⟩ := exists_of_textsFrom_cons hstop
      rw [hget', List.isEmpty_cons, if_neg Bool.false_ne_true]
      simp only [hmember, ht]
      cases hread : read (line.text :: rest) with
      | error e => rfl
      | ok p =>
        obtain ⟨d, after⟩ := p
        have hshorter := length_lt_of_read hread
        have hafter := textsFrom_of_suffix hi (ht ▸ suffix_of_read hread)
        have hlen := length_textsFrom lines i
        rw [← ht, hlen] at hshorter
        have hon : i < lines.length - after.length ∧ lines.length - after.length ≤ lines.length := by
          omega
        have hmore := hmembers _ hon.1 hon.2 hplace hdent hcloser
        simp only [seen_ok, ended_ok_bind, dif_pos hon, hmore, hafter]
        cases readAll place dent closer after <;> rfl

/-- **The cursor reads what the lines left say.** -/
theorem reads (hi : i ≤ lines.length) :
    member? lines i = ended (seen lines (read (textsFrom lines i))) ∧ ReadsMembers lines i := by
  -- every step hands a cursor on that is nearer to the end
  induction hk : lines.length - i using Nat.strongRecOn generalizing i with
  | ind k ih =>
    have hmembers : ∀ j, i < j → j ≤ lines.length → ReadsMembers lines j := fun j hij hj =>
      (ih (lines.length - j) (by omega) hj rfl).2
    have hmember := member?_step room hi hmembers
    exact ⟨hmember, members?_step room hi hmember hmembers⟩

end Cursor

/-! ## Files -/

section File

variable {source : List String}

/-- The lines of a file that are not blank, with their numbers. -/
def numbered (source : List String) : List Line :=
  (source.zipIdx.map fun line => Line.mk (line.2 + 1) line.1).filter (! isBlank ·.text)

theorem numbered?_eq (h : source.length < sizeLimit) :
    numbered? source = some (numbered source) := by
  have hnumber : ∀ line ∈ source.zipIdx, (do
      let number ← word? (line.2 + 1)
      return Line.mk number line.1) = some (Line.mk (line.2 + 1) line.1) := fun line hl => by
    have hlt := List.snd_lt_of_mem_zipIdx hl
    rw [word?_eq (by unfold sizeLimit at h; unfold wordValues; omega)]
    rfl
  rw [numbered?, mapM_eq_some hnumber]
  rfl

theorem map_text_numbered (source : List String) :
    (numbered source).map Line.text = codeLines source := by
  have hfst : source.zipIdx.map Prod.fst = source := List.zipIdx_map_fst 0 source
  rw [numbered, List.filter_map, List.map_map, codeLines]
  conv_rhs => rw [← hfst, List.filter_map]
  rfl

theorem map_number_numbered : (numbered source).map Line.number = codeLineNumbers source := by
  rw [numbered, List.filter_map, List.map_map, codeLineNumbers]
  rfl

theorem room_numbered (hlength : source.length < sizeLimit) (hfits : ∀ l ∈ source, Fits l) :
    Room (numbered source) := by
  have hmem : ∀ line ∈ numbered source, line.text ∈ codeLines source := fun line hl =>
    map_text_numbered source ▸ List.mem_map_of_mem hl
  refine ⟨?_, fun line hl => ?_, fun line hl => isBlank_of_mem_codeLines (hmem line hl)⟩
  · have hlen := congrArg List.length (map_text_numbered source)
    have hle := List.length_filter_le (! isBlank ·) source
    rw [List.length_map, codeLines] at hlen
    omega
  · exact hfits _ (List.mem_filter.1 (hmem line hl)).1

/-- **No file stops the reader**, and it reads the file as it is. -/
theorem file?_eq (hlength : source.length < sizeLimit) (hfits : ∀ l ∈ source, Fits l) :
    file? source = ended (SourceFile.parse source) := by
  have room := room_numbered hlength hfits
  have htexts : textsFrom (numbered source) 0 = codeLines source := by
    rw [textsFrom, List.drop_zero, map_text_numbered]
  have hsplit := List.takeWhile_append_dropWhile (p := isPreamble)
    (l := textsFrom (numbered source) 0)
  have hrest := textsFrom_add hsplit.symm
  have hlen := add_length_le (Nat.zero_le _) hsplit.symm
  have hstart : 0 + ((textsFrom (numbered source) 0).takeWhile isPreamble).length ≤
      (numbered source).length := by omega
  have hroot := (reads room hstart).1
  rw [file?, numbered?_eq hlength, SourceFile.parse, SourceFile.read, ← htexts,
    ← map_number_numbered]
  simp only [liftM_some, ended_ok_bind, room.advance?_eq (p := isPreamble) fun _ _ => rfl,
    texts?_eq (Nat.zero_le _) hsplit.symm]
  cases hd : (textsFrom (numbered source) 0).dropWhile isPreamble with
  | nil =>
    rw [hd, List.length_nil, Nat.add_zero] at hlen
    rw [if_pos hlen]
    rfl
  | cons text rest =>
    rw [hd, List.length_cons] at hlen
    rw [hrest, hd] at hroot
    rw [if_neg (by omega), hroot]
    cases hread : read (text :: rest) with
    | error e => simp only [hread, seen_error, ended_error_bind, Except.mapError]
    | ok p =>
      obtain ⟨d, after⟩ := p
      have hafter := textsFrom_of_suffix hstart (hrest.trans hd ▸ suffix_of_read hread)
      simp only [hread, seen_ok, ended_ok_bind]
      cases after with
      | nil => rw [getElem?_of_textsFrom_nil hafter]; rfl
      | cons line more =>
        obtain ⟨line, hget, rfl, hmore, -⟩ := exists_of_textsFrom_cons hafter
        rw [hget]
        exact congrArg (fun e => ended (.error e)) (locate_place hget hmore .trailing).symm

end File

end HouseStyle.Machine
