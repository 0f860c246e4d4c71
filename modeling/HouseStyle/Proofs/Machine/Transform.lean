import HouseStyle.Proofs.Machine.BlockPasses
import HouseStyle.Proofs.Machine.BlockReader
import HouseStyle.Proofs.Machine.BlockWriter
import HouseStyle.Proofs.Machine.DeclarationPasses
import HouseStyle.Proofs.Machine.DeclarationReader

/-!
# Transforming a text in a machine

The lines of a text weigh no more than the text and one byte.  From there on every stage is bounded by
the weight of the one before it: what is read by the lines, what a pass leaves by what was read, and
what is written by what is left.  So a text that is small enough at the start is small enough all the
way.

* `transformDeclarations?_eq`, `transformBlocks?_eq`: the two dialects.
* `transform_never_stops`: **no text stops a pass.**
-/

namespace HouseStyle.Machine

open Text Block

/-- The lines of a file of declarations after a pass. -/
def transformDeclarations? (pass : Pass) (lines : List String) :
    Steps TransformError (List String) := do
  let file ← (file? lines).adapt .parse
  let after ← liftM (applyPass? pass file)
  match after.2 with
  | some e => throw (.sort e)
  | none => liftM (composeFile? after.1)

/-- The lines of a file of blocks after a pass. -/
def transformBlocks? (pass : Pass) (lines : List String) : Steps TransformError (List String) :=
  match onBlocks? pass with
  | none => throw (.unsupported pass .python)
  | some change? => do
    let nodes ← (fileNodes? lines).adapt .parseBlocks
    let nodes ← liftM (change? nodes)
    liftM (composeNodes? nodes)

/-- A text after a pass. -/
def transform? (dialect : Dialect) (pass : Pass) (source : String) :
    Steps TransformError String := do
  let lines := ofText source
  let written ← match dialect with
    | .java => transformDeclarations? pass lines
    | .python => transformBlocks? pass lines
  liftM (toText? written)

variable {pass : Pass} {lines written : List String}

theorem adapt_ended {ε ε' α : Type} (f : ε → ε') (outcome : Except ε α) :
    (ended outcome).adapt f = ended (outcome.mapError f) := rfl

/-! ## Declarations -/

theorem writable_of_signed {file : SourceFile} (hsigned : file.Signed)
    (hbulk : fileBulk file < sizeLimit) : ∀ c ∈ file.root.postorder, Writable c := by
  intro c hc
  have hweight := weight_texts_le hc
  rw [fileBulk] at hbulk
  exact {
    signature := (hsigned c hc).isBlank_signature
    opener := fun opener ho => isBlank_of_isOpener ((hsigned c hc).opener opener ho)
    fits := fits_of_weight_lt (by omega) }

theorem transformDeclarations?_eq (h : 11 * weight lines < sizeLimit) :
    transformDeclarations? pass lines = ended (Dialect.transformDeclarations pass lines) := by
  have hlength : lines.length ≤ weight lines := length_le_weight
  have hread := file?_eq (by omega) (fits_of_weight_lt (by omega : weight lines < sizeLimit))
  rw [transformDeclarations?, hread, adapt_ended, Dialect.transformDeclarations]
  cases hparse : SourceFile.parse lines with
  | error e => rfl
  | ok file =>
    have hbulk := fileBulk_le_of_parse hparse
    have hsigned := signed_of_parse hparse
    have hafter := fileBulk_apply_le pass file
    have hwrite := composeFile?_eq (writable_of_signed (hsigned.apply pass) (by omega))
    simp only [Except.mapError, ended_ok_bind, applyPass?_eq hsigned (by omega), liftM_some]
    cases happly : pass.apply file with
    | mk after stopped =>
      rw [happly] at hwrite
      cases stopped with
      | none => rw [hwrite, liftM_some]
      | some e => rfl

theorem weight_le_of_transformDeclarations
    (h : Dialect.transformDeclarations pass lines = .ok written) :
    weight written ≤ 44 * weight lines := by
  unfold Dialect.transformDeclarations at h
  split at h
  · cases h
  · next file hparse =>
    have hbulk := fileBulk_le_of_parse hparse
    have hafter := fileBulk_apply_le pass file
    split at h
    · cases h
    · next after happly =>
      cases h
      have hwritten := weight_compose_le after
      simp only [happly] at hafter
      omega

/-! ## Blocks -/

theorem transformBlocks?_eq (h : 3 * weight lines < sizeLimit) :
    transformBlocks? pass lines = ended (Dialect.transformBlocks pass lines) := by
  have hread := fileNodes?_eq (by omega : weight lines < sizeLimit)
  rw [transformBlocks?, Dialect.transformBlocks]
  cases hchange : Dialect.onBlocks? pass with
  | none =>
    rw [onBlocks?_eq_none hchange]
    rfl
  | some change =>
    obtain ⟨change?, hchange?, heq⟩ := onBlocks?_eq hchange
    rw [hchange?, hread, adapt_ended]
    cases hparse : Block.parse lines with
    | error e => rfl
    | ok nodes =>
      have hbulk := nodesBulk_le_of_parse hparse
      have hafter := nodesBulk_of_onBlocks? hchange nodes
      have hwrite := composeNodes?_eq (by omega : nodesBulk (change nodes) < sizeLimit)
      simp only [Except.mapError, ended_ok_bind, heq nodes (by omega), liftM_some, hwrite]

theorem weight_le_of_transformBlocks (h : Dialect.transformBlocks pass lines = .ok written) :
    weight written ≤ 3 * weight lines := by
  unfold Dialect.transformBlocks at h
  split at h
  · cases h
  · next change hchange =>
    split at h
    · cases h
    · next nodes hparse =>
      cases h
      have hbulk := nodesBulk_le_of_parse hparse
      have hafter := nodesBulk_of_onBlocks? hchange nodes
      have hwritten := weight_compose_le_nodesBulk true (change nodes)
      omega

/-! ## Texts -/

/-- The text of lines that are not too many is written behind what gave the lines. -/
theorem ended_toText?_eq {ε : Type} {outcome : Except ε (List String)}
    (h : ∀ written, outcome = .ok written → weight written < sizeLimit) :
    (ended outcome >>= fun written => liftM (toText? written)) = ended (outcome.map toText) := by
  cases outcome with
  | error e => rfl
  | ok written => rw [ended_ok_bind, toText?_eq (h written rfl), liftM_some, Except.map]

/-- **No text stops a pass.**  A transformation ends with a text or an error, as it should, and what it
writes closing lines and modifiers by is never blank.  The bound is that of the widest addresses there
are, so that every text a program can hold is below it. -/
theorem transform_never_stops (dialect : Dialect) (pass : Pass) (source : String)
    (h : source.utf8ByteSize < 2 ^ 57) :
    transform? dialect pass source = ended (dialect.transform pass source) ∧
      ∀ file, SourceFile.parse (ofText source) = .ok file →
        ∀ passes, ∀ d ∈ (file.through passes).root.postorder,
          isBlank d.signature = false ∧ ∀ opener ∈ d.opener?, isBlank opener = false := by
  refine ⟨?_, fun file hparse passes d hd => ?_⟩
  · have hweight := weight_ofText_le source
    have hlimit : sizeLimit = 64 * 2 ^ 57 := by decide
    unfold transform? Dialect.transform
    cases dialect with
    | java =>
      have hlines := @transformDeclarations?_eq pass (ofText source) (by omega)
      simp only [hlines]
      refine ended_toText?_eq fun written hwritten => ?_
      have hle := weight_le_of_transformDeclarations hwritten
      omega
    | python =>
      have hlines := @transformBlocks?_eq pass (ofText source) (by omega)
      simp only [hlines]
      refine ended_toText?_eq fun written hwritten => ?_
      have hle := weight_le_of_transformBlocks hwritten
      omega
  · have hsigned := (signed_of_parse hparse).through passes d hd
    exact ⟨hsigned.isBlank_signature, fun opener ho => isBlank_of_isOpener (hsigned.opener opener ho)⟩

/-- A comment with a letter of two bytes above an anonymous class. -/
def anonymousSource : String :=
  "class A \x7b\n  // größer\n  Order o =\n    new Order() \x7b\n    \x7d;\n\x7d\n"

/-- What is read of it. -/
def anonymousFile : SourceFile :=
  ⟨[], .scope none ⟨[], "class A \x7b"⟩
    [.scope (some "    new Order() \x7b") ⟨["  // größer"], "  Order o ="⟩ []]⟩

/-- A modifier goes in below the comment, and the class below the new signature is closed as deep as
it was opened. -/
theorem transform_never_stops_anonymous :
    anonymousSource.utf8ByteSize < 2 ^ 57 ∧
      transform? .java (.visibility .isPrivate) anonymousSource = ended (.ok
        ("private class A \x7b\n  // größer\n  private Order o =\n    new Order() \x7b\n" ++
          "    \x7d;\n\x7d\n")) ∧
      SourceFile.parse (ofText anonymousSource) = .ok anonymousFile ∧
      ∃ d ∈ (anonymousFile.through [.visibility .isPrivate]).root.postorder,
        d.opener? = some "    new Order() \x7b" ∧ isBlank d.signature = false ∧
          isBlank "    new Order() \x7b" = false := by
  have hsmall : anonymousSource.utf8ByteSize < 2 ^ 57 := by decide
  obtain ⟨hruns, hkept⟩ :=
    transform_never_stops .java (.visibility .isPrivate) anonymousSource hsmall
  have hparse : SourceFile.parse (ofText anonymousSource) = .ok anonymousFile := by decide +kernel
  have hmem : Declaration.scope (some "    new Order() \x7b")
      ⟨["  // größer"], "  private Order o ="⟩ [] ∈
        (anonymousFile.through [.visibility .isPrivate]).root.postorder := by decide +kernel
  obtain ⟨hsignature, hopener⟩ := hkept _ hparse [.visibility .isPrivate] _ hmem
  exact ⟨hsmall, hruns.trans (congrArg ended (by decide +kernel)), hparse, _, hmem, rfl, hsignature,
    hopener _ rfl⟩

end HouseStyle.Machine
