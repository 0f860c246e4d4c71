import HouseStyle.Proofs.Declaration.MapText
import Mathlib.Logic.Relation

/-!
# Nesting and indentation

Members are told from the closing line of their scope by their first line, which is the first line of
the header where a member has one.  That line stands deeper than the closing line, or the file is
refused.  The signature below a header may stand anywhere.

* `NestsAt`, `NestsHeaded`: members whose first lines or signatures stand deeper than the line that
  closes their scope, and members with a header whose signatures do.
* `Waiting`, `Waiting.Step`: the places in a file where a member may begin.
* `Waiting.fails_of_read_eq_error`: why a declaration is not read.
* `Waiting.read_eq_misindented_iff`: a scope is refused for its indentation exactly at the lines that
  begin a member too far left.
* `nests_iff_of_parse`: **a file nests exactly if its members with a header do.**
-/

namespace HouseStyle

open Text

namespace Declaration

/-! ## Members of a tree -/

/-- Whether one line of each member stands deeper than the line that closes their scope. -/
def NestsAt (line : Declaration → String) : Declaration → Prop
  | .leaf .. => True
  | .scope opener head members =>
    ∀ m ∈ members, closingSpaces opener head < leadingSpaces (line m)

/-- Whether the members with a header have signatures deeper than the line that closes their scope. -/
def NestsHeaded : Declaration → Prop
  | .leaf .. => True
  | .scope opener head members =>
    ∀ m ∈ members, m.header ≠ [] → closingSpaces opener head < leadingSpaces m.signature

instance (line : Declaration → String) : DecidablePred (NestsAt line)
  | .leaf .. => inferInstanceAs (Decidable True)
  | .scope opener head members =>
    inferInstanceAs (Decidable (∀ m ∈ members, closingSpaces opener head < leadingSpaces (line m)))

instance : DecidablePred NestsHeaded
  | .leaf .. => inferInstanceAs (Decidable True)
  | .scope opener head members => inferInstanceAs (Decidable
      (∀ m ∈ members, m.header ≠ [] → closingSpaces opener head < leadingSpaces m.signature))

theorem Formed.isBlank_firstLine {d : Declaration} (h : d.Formed) : isBlank d.firstLine = false := by
  have hmem := d.firstLine_mem_headLines
  rw [headLines, List.mem_append, List.mem_singleton] at hmem
  rcases hmem with hheader | hsignature
  · exact h.isBlank_header _ hheader
  · rw [hsignature]
    exact h.isBlank_signature

theorem nestsAt_firstLine {root : Declaration} (h : ∀ d ∈ root.postorder, d.Formed) :
    ∀ d ∈ root.postorder, d.NestsAt firstLine := by
  intro d hd
  cases d with
  | leaf kind head lines => trivial
  | scope opener head members =>
    intro m hm
    have hblank := (h m (mem_postorder_of_mem_members hd hm)).isBlank_firstLine
    obtain ⟨shape, -, hforms⟩ := (h _ hd).shaped
    cases hforms with
    | emptyClass => cases hm
    | openClass hinside => exact (isInside_iff hblank).1 (hinside m hm)
    | fieldClass hinside => exact (isInside_iff hblank).1 (hinside m hm)

theorem nestsAt_signature_iff {d : Declaration} (h : d.NestsAt firstLine) :
    d.NestsAt signature ↔ d.NestsHeaded := by
  cases d with
  | leaf kind head lines => exact Iff.rfl
  | scope opener head members =>
    refine ⟨fun hn m hm _ => hn m hm, fun hn m hm => ?_⟩
    by_cases hheader : m.header = []
    · have hfirst := h m hm
      rwa [firstLine, hheader] at hfirst
    · exact hn m hm hheader

/-! ## Where a member may begin -/

/-- A scope that is not closed yet, and the unread lines, where its next member begins or its closing
line stands. -/
structure Waiting where
  opened : Place
  dent : Nat
  closer : String
  lines : List String

namespace Waiting

/-- The members from there to the closing line, and the lines after that line. -/
def read (w : Waiting) : Except ParseError (List Declaration × List String) :=
  readAll w.opened w.dent w.closer w.lines

/-- Whether the declaration at the start of the lines opens the scope. -/
inductive Opens (ls : List String) : Waiting → Prop
  | openClass {signature : String} {below : List String} (ha : afterHeader ls = signature :: below)
      (hc : classify signature below.head? = some .openClass) :
      Opens ls ⟨⟨below.length + 1, signature⟩, leadingSpaces signature, "\x7d", below⟩
  | fieldClass {signature opener : String} {inner : List String}
      (ha : afterHeader ls = signature :: opener :: inner)
      (hc : classify signature (some opener) = some .fieldClass) :
      Opens ls ⟨⟨inner.length + 1, opener⟩, leadingSpaces opener, "\x7d;", inner⟩

/-- Whether a line begins a member. -/
def begins (w : Waiting) (line : String) : Bool :=
  ! closes line w.dent w.closer && isInside w.dent line

/-- Whether a line is refused: it neither closes the scope nor begins a member. -/
def refuses (w : Waiting) (line : String) : Bool :=
  ! closes line w.dent w.closer && ! isInside w.dent line

/-- From a place where a member begins, reading goes on below that member and inside it. -/
inductive Step (w : Waiting) : Waiting → Prop
  | next {line : String} {below rest : List String} {m : Declaration} (hl : w.lines = line :: below)
      (hb : w.begins line = true) (hm : Declaration.read w.lines = .ok (m, rest)) :
      Step w { w with lines := rest }
  | inside {line : String} {below : List String} {w' : Waiting} (hl : w.lines = line :: below)
      (hb : w.begins line = true) (ho : Opens w.lines w') : Step w w'

variable {w w' : Waiting} {line : String} {below : List String} {e : ParseError}

theorem begins_iff : w.begins line = true ↔
    closes line w.dent w.closer = false ∧ isInside w.dent line = true := by
  rw [begins, Bool.and_eq_true, Bool.not_eq_true']

theorem refuses_iff : w.refuses line = true ↔
    closes line w.dent w.closer = false ∧ isInside w.dent line = false := by
  rw [refuses, Bool.and_eq_true, Bool.not_eq_true', Bool.not_eq_true']

theorem read_of_refuses (hl : w.lines = line :: below) (hr : w.refuses line = true) :
    w.read = .error (.atLine (below.length + 1) line .misindented) := by
  obtain ⟨hc, hi⟩ := refuses_iff.1 hr
  rw [read, hl]
  exact readAll_eq_error_iff.2 (.misindented hc hi)

theorem Opens.read_eq_error {ls : List String} (ho : Opens ls w) (he : w.read = .error e) :
    Declaration.read ls = .error e := by
  cases ho with
  | openClass ha hc =>
    change readAll _ _ _ _ = _ at he
    rw [read_of_afterHeader_cons ha, hc]
    simp only [readBody]
    rw [he]
    rfl
  | fieldClass ha hc =>
    change readAll _ _ _ _ = _ at he
    rw [read_of_afterHeader_cons ha, List.head?_cons, hc]
    simp only [readBody]
    rw [he]
    rfl

theorem Opens.afterHeader_ne_nil {ls : List String} (ho : Opens ls w) : afterHeader ls ≠ [] := by
  cases ho with
  | openClass ha _ | fieldClass ha _ => exact ha ▸ List.cons_ne_nil _ _

theorem Opens.length_lt {ls : List String} (ho : Opens ls w) : w.lines.length < ls.length := by
  have hle := length_afterHeader_le ls
  cases ho with
  | openClass ha _ | fieldClass ha _ =>
    rw [ha] at hle
    simp only [List.length_cons] at hle ⊢
    omega

/-- What one step leads to is refused only with what it starts from. -/
theorem Step.read_eq_error (h : Step w w') (he : w'.read = .error e) : w.read = .error e := by
  cases h with
  | next hl hb hm =>
    obtain ⟨hc, hi⟩ := begins_iff.1 hb
    rw [hl] at hm
    rw [read, hl]
    exact readAll_eq_error_iff.2 (.later hc hi hm he)
  | inside hl hb ho =>
    obtain ⟨hc, hi⟩ := begins_iff.1 hb
    rw [hl] at ho
    rw [read, hl]
    exact readAll_eq_error_iff.2 (.member hc hi ho.afterHeader_ne_nil (ho.read_eq_error he))

theorem read_eq_error_of_run (h : Relation.ReflTransGen Step w w') (he : w'.read = .error e) :
    w.read = .error e := by
  induction h using Relation.ReflTransGen.head_induction_on with
  | refl => exact he
  | head hstep _ ih => exact hstep.read_eq_error ih

/-! ## Lines that are refused -/

theorem readLines_eq_error {opened : Place} {dent : Nat} {ls : List String}
    (h : readLines opened dent ls = .error e) : e = opened.error .unclosed := by
  unfold readLines at h
  split at h
  · exact (Except.error.inj h).symm
  · cases h

/-- Why a declaration is not read. -/
inductive Fails (ls : List String) : ParseError → Prop
  /-- No signature follows a header. -/
  | endOfInput (ha : afterHeader ls = []) : Fails ls (endOfInput ls)
  /-- The signature fits no shape. -/
  | unrecognized {signature : String} {below : List String}
      (ha : afterHeader ls = signature :: below) (hc : classify signature below.head? = none) :
      Fails ls (Place.error ⟨below.length + 1, signature⟩ .unrecognized)
  /-- Its closing line is missing. -/
  | unclosed {signature : String} {below : List String} (ha : afterHeader ls = signature :: below) :
      Fails ls (Place.error ⟨below.length + 1, signature⟩ .unclosed)
  /-- The signature does not show the name. -/
  | unnamed {signature : String} {below : List String} (ha : afterHeader ls = signature :: below)
      (kind : Kind) : Fails ls (Place.error ⟨below.length + 1, signature⟩ (.unnamed kind))
  /-- The scope that it opens is not read. -/
  | inside {w : Waiting} {e : ParseError} (ho : Opens ls w) (hr : w.read = .error e) : Fails ls e

theorem readLeaf_eq_error {shape : Shape} {place : Place} {head : Head}
    (hclass : shape ≠ .openClass) (hfield : shape ≠ .fieldClass)
    (h : readLeaf shape place head below = .error e) : e = place.error .unclosed := by
  unfold readLeaf at h
  cases shape with
  | enum =>
    simp only [] at h
    split at h
    · cases h
    · exact readLines_eq_error (map_eq_error_iff.1 h)
  | openMethod => exact readLines_eq_error (map_eq_error_iff.1 h)
  | openClass => exact absurd rfl hclass
  | fieldClass => exact absurd rfl hfield
  | emptyClass | abstractMethod | emptyMethod | field | multilineField => cases h

theorem fails_of_read_eq_error {ls : List String} (h : Declaration.read ls = .error e) :
    Fails ls e := by
  cases ha : afterHeader ls with
  | nil =>
    rw [read_of_afterHeader_nil ha] at h
    cases h
    exact .endOfInput ha
  | cons signature below =>
    rw [read_of_afterHeader_cons ha] at h
    cases hc : classify signature below.head? with
    | none =>
      rw [hc] at h
      cases h
      exact .unrecognized ha hc
    | some shape =>
      simp only [hc] at h
      split at h
      · next e hbody =>
        obtain rfl := Except.error.inj h
        cases shape
        case openClass => exact .inside (.openClass ha hc) (map_eq_error_iff.1 hbody)
        case fieldClass =>
          cases below with
          | nil =>
            -- only the line below can make this shape of a signature
            have hfits := fits_of_classify hc
            simp [Shape.fits] at hfits
          | cons opener inner => exact .inside (.fieldClass ha hc) (map_eq_error_iff.1 hbody)
        all_goals
          simp only [readBody] at hbody
          rw [readLeaf_eq_error (by decide) (by decide) hbody]
          exact .unclosed ha
      · rw [named] at h
        split at h
        · cases h
        · cases h
          exact .unnamed ha _

theorem exists_opens_of_read_eq_misindented {ls : List String} {left : Nat} {text : String}
    (h : Declaration.read ls = .error (.atLine left text .misindented)) :
    ∃ w, Opens ls w ∧ w.read = .error (.atLine left text .misindented) := by
  generalize he : ParseError.atLine left text .misindented = e at h ⊢
  cases fails_of_read_eq_error h with
  | endOfInput => cases fault_of_endOfInput he.symm
  | unrecognized | unclosed | unnamed => cases he
  | inside ho hr => exact ⟨_, ho, hr⟩

/-- A refusal for indentation is the refusal of the next line, or one step leads to it. -/
theorem refuses_or_step_of_read_eq_misindented {left : Nat} {text : String}
    (h : w.read = .error (.atLine left text .misindented)) :
    (∃ below, w.lines = text :: below ∧ w.refuses text = true ∧ left = below.length + 1) ∨
      ∃ w', Step w w' ∧ w'.lines.length < w.lines.length ∧
        w'.read = .error (.atLine left text .misindented) := by
  obtain ⟨opened, dent, closer, lines⟩ := w
  cases readAll_eq_error_iff.1 h with
  | misindented hc hi => exact .inl ⟨_, rfl, refuses_iff.2 ⟨hc, hi⟩, rfl⟩
  | member hc hi _ hm =>
    -- the line begins a member: the fault lies inside that member or below it
    obtain ⟨inner, ho, he⟩ := exists_opens_of_read_eq_misindented hm
    exact .inr ⟨inner, .inside rfl (begins_iff.2 ⟨hc, hi⟩) ho, ho.length_lt, he⟩
  | later hc hi hm he =>
    exact .inr ⟨_, .next rfl (begins_iff.2 ⟨hc, hi⟩) hm, length_lt_of_read hm, he⟩

/-- A scope is refused for the indentation of a line only where that line is refused. -/
theorem exists_run_of_read_eq_misindented {left : Nat} {text : String}
    (h : w.read = .error (.atLine left text .misindented)) :
    ∃ w' below, Relation.ReflTransGen Step w w' ∧ w'.lines = text :: below ∧
      w'.refuses text = true ∧ left = below.length + 1 := by
  induction hn : w.lines.length using Nat.strongRecOn generalizing w with
  | ind n ih =>
    subst hn
    rcases refuses_or_step_of_read_eq_misindented h with ⟨below, hw⟩ | ⟨next, hstep, hlt, he⟩
    · exact ⟨w, below, .refl, hw⟩
    · obtain ⟨w', below, hrun, hw'⟩ := ih _ hlt he rfl
      exact ⟨w', below, .head hstep hrun, hw'⟩

/-- **A scope is refused for the indentation of a line exactly if that line is reached and refused.** -/
theorem read_eq_misindented_iff {left : Nat} {text : String} :
    w.read = .error (.atLine left text .misindented) ↔
      ∃ w' below, Relation.ReflTransGen Step w w' ∧ w'.lines = text :: below ∧
        w'.refuses text = true ∧ left = below.length + 1 := by
  refine ⟨exists_run_of_read_eq_misindented, ?_⟩
  rintro ⟨w', below, hrun, hl, hr, rfl⟩
  exact read_eq_error_of_run hrun (read_of_refuses hl hr)

end Waiting

/-- A declaration is refused for the indentation of a line exactly with the scope it opens. -/
theorem read_eq_misindented_iff {ls : List String} {left : Nat} {text : String} :
    read ls = .error (.atLine left text .misindented) ↔
      ∃ w, Waiting.Opens ls w ∧ w.read = .error (.atLine left text .misindented) :=
  ⟨Waiting.exists_opens_of_read_eq_misindented, fun ⟨_, ho, he⟩ => ho.read_eq_error he⟩

end Declaration

/-! ## Files -/

/-- Whether a scope waits for a member or its closing line while the file is read. -/
def SourceFile.Reaches (code : List String) (w : Declaration.Waiting) : Prop :=
  ∃ root, Declaration.Waiting.Opens (code.dropWhile isPreamble) root ∧
    Relation.ReflTransGen Declaration.Waiting.Step root w

theorem SourceFile.read_eq_misindented_iff {code : List String} {left : Nat} {text : String} :
    SourceFile.read code = .error (.atLine left text .misindented) ↔
      ∃ w below, SourceFile.Reaches code w ∧ w.lines = text :: below ∧ w.refuses text = true ∧
        left = below.length + 1 := by
  have hroot : SourceFile.read code = .error (.atLine left text .misindented) ↔
      Declaration.read (code.dropWhile isPreamble) = .error (.atLine left text .misindented) := by
    unfold SourceFile.read
    split
    · next hls =>
      rw [hls, Declaration.read_of_afterHeader_nil rfl]
      exact ⟨nofun, nofun⟩
    · split
      · next e he => rw [he, Except.error.injEq, Except.error.injEq]
      · next hr => rw [hr]; exact ⟨nofun, nofun⟩
      · next hr => rw [hr]; exact ⟨nofun, nofun⟩
  rw [hroot, Declaration.read_eq_misindented_iff]
  constructor
  · rintro ⟨root, ho, he⟩
    obtain ⟨w, below, hrun, hw⟩ := Declaration.Waiting.read_eq_misindented_iff.1 he
    exact ⟨w, below, ⟨root, ho, hrun⟩, hw⟩
  · rintro ⟨w, below, ⟨root, ho, hrun⟩, hw⟩
    exact ⟨root, ho, Declaration.Waiting.read_eq_misindented_iff.2 ⟨w, below, hrun, hw⟩⟩

theorem SourceFile.parse_eq_error_iff {lines : List String} {text : String} {fault : Fault} :
    (∃ n, SourceFile.parse lines = .error (.atLine n text fault)) ↔
      ∃ left, SourceFile.read (codeLines lines) = .error (.atLine left text fault) := by
  unfold SourceFile.parse
  cases SourceFile.read (codeLines lines) with
  | ok file => exact ⟨nofun, nofun⟩
  | error e =>
    cases e with
    | missingDeclaration => exact ⟨nofun, nofun⟩
    | atLine left text' fault' =>
      constructor
      · rintro ⟨n, h⟩
        cases h
        exact ⟨left, rfl⟩
      · rintro ⟨left', h⟩
        cases h
        exact ⟨_, rfl⟩

/-- **In a file that was read, the first line of every member stands deeper than the line that closes
its scope.  The signatures do exactly if those below a header do.**  A file is refused for the
indentation of a line exactly if the line is reached where a member may begin, and neither stands
deeper nor closes the scope. -/
theorem nests_iff_of_parse (lines : List String) :
    (∀ file, SourceFile.parse lines = .ok file →
      (∀ d ∈ file.root.postorder, d.NestsAt Declaration.firstLine) ∧
        ((∀ d ∈ file.root.postorder, d.NestsAt Declaration.signature) ↔
          ∀ d ∈ file.root.postorder, d.NestsHeaded)) ∧
    ∀ text, (∃ n, SourceFile.parse lines = .error (.atLine n text .misindented)) ↔
      ∃ w below, SourceFile.Reaches (codeLines lines) w ∧ w.lines = text :: below ∧
        w.refuses text = true := by
  refine ⟨fun file h => ?_, fun text => ?_⟩
  · have hfirst := Declaration.nestsAt_firstLine (formed_of_parse h)
    refine ⟨hfirst, forall_congr' fun d => forall_congr' fun hd => ?_⟩
    exact Declaration.nestsAt_signature_iff (hfirst d hd)
  · rw [SourceFile.parse_eq_error_iff]
    constructor
    · rintro ⟨left, h⟩
      obtain ⟨w, below, hreach, hl, hr, -⟩ := SourceFile.read_eq_misindented_iff.1 h
      exact ⟨w, below, hreach, hl, hr⟩
    · rintro ⟨w, below, hreach, hl, hr⟩
      exact ⟨_, SourceFile.read_eq_misindented_iff.2 ⟨w, below, hreach, hl, hr, rfl⟩⟩

/-- An annotated field that stands with its annotation. -/
theorem nests_of_parse_annotated :
    ∃ file, SourceFile.parse ["class A \x7b", "  @B", "  int a;", "\x7d"] = .ok file ∧
      ∀ d ∈ file.root.postorder, d.NestsAt Declaration.signature := by
  have h : SourceFile.parse ["class A \x7b", "  @B", "  int a;", "\x7d"] =
      .ok ⟨[], .scope none ⟨[], "class A \x7b"⟩ [.leaf .field ⟨["  @B"], "  int a;"⟩ []]⟩ := by
    decide +kernel
  exact ⟨_, h, ((nests_iff_of_parse _).1 _ h).2.2 (by decide)⟩

/-- A comment inside a class lets the field below it stand at the margin. -/
theorem parse_not_nests_of_comment :
    ∃ file, SourceFile.parse ["class A \x7b", "  // note", "int a;", "\x7d"] = .ok file ∧
      ¬ ∀ d ∈ file.root.postorder, d.NestsAt Declaration.signature :=
  ⟨⟨[], .scope none ⟨[], "class A \x7b"⟩ [.leaf .field ⟨["  // note"], "int a;"⟩ []]⟩,
    by decide +kernel, by decide⟩

end HouseStyle
