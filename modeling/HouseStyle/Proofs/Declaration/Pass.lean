import HouseStyle.Dialect
import HouseStyle.Proofs.Declaration.Cases
import HouseStyle.Proofs.Declaration.CommentCase
import HouseStyle.Proofs.Declaration.Sort
import HouseStyle.Proofs.Declaration.Visibility

/-!
# Files after a pass

Each pass leaves a stable file stable, and each but the sort of cases has done all it can do after
one application.  So the text that a pass writes is read back as the file that the pass made, and a
second application of the pass writes the same text again.

* `SourceFile.Stable.apply`, `clean_compose_apply`, `Pass.apply_apply`: the passes together.
* `parse_compose_apply`: **what a pass writes is read back, and the pass leaves it alone.**
* `parse_compose_ne_of_lineFeed`: a line feed inside a line.
-/

namespace HouseStyle

open Text

variable {pass : Pass} {file changed : SourceFile}

theorem SourceFile.Stable.apply (h : file.Stable) (hp : pass.apply file = (changed, none)) :
    changed.Stable := by
  cases pass with
  | sort options => exact h.sort hp
  | visibility modifier =>
    obtain rfl := (Prod.mk.inj hp).1
    exact h.withVisibility modifier
  | comments =>
    obtain rfl := (Prod.mk.inj hp).1
    exact h.capitalizeComments
  | cases =>
    obtain rfl := (Prod.mk.inj hp).1
    exact h.sortCases

theorem SourceFile.CleanText.apply (h : file.CleanText)
    (hw : ∀ d ∈ file.root.postorder, startsWithWord d.signature = true)
    (hp : pass.apply file = (changed, none)) : changed.CleanText := by
  cases pass with
  | sort options => exact h.sort hp
  | visibility modifier =>
    obtain rfl := (Prod.mk.inj hp).1
    exact h.withVisibility modifier hw
  | comments =>
    obtain rfl := (Prod.mk.inj hp).1
    exact h.capitalizeComments
  | cases =>
    obtain rfl := (Prod.mk.inj hp).1
    exact h.sortCases

theorem clean_compose_apply {lines : List String} (h : SourceFile.parse lines = .ok file)
    (hclean : ∀ l ∈ lines, Clean l) (hp : pass.apply file = (changed, none)) :
    ∀ l ∈ changed.compose, Clean l := by
  have hwords : ∀ d ∈ file.root.postorder, startsWithWord d.signature = true := fun d hd =>
    (formed_of_parse h d hd).startsWithWord
  exact ((cleanText_of_parse h hclean).apply hwords hp).compose

/-- Every pass but the sort of cases has done all it can do after one application. -/
theorem Pass.apply_apply (hne : pass ≠ .cases) (hp : pass.apply file = (changed, none)) :
    pass.apply changed = (changed, none) := by
  cases pass with
  | sort options => exact SourceFile.sort_sort hp
  | visibility modifier =>
    obtain rfl := (Prod.mk.inj hp).1
    exact Prod.ext (SourceFile.withVisibility_withVisibility modifier modifier file) rfl
  | comments =>
    obtain rfl := (Prod.mk.inj hp).1
    exact Prod.ext (SourceFile.capitalizeComments_capitalizeComments file) rfl
  | cases => exact absurd rfl hne

theorem transform_eq_ok {source : String} (h : SourceFile.parse (ofText source) = .ok file)
    (hp : pass.apply file = (changed, none)) :
    Dialect.java.transform pass source = .ok (toText changed.compose) := by
  simp only [Dialect.transform, Dialect.transformDeclarations, h, hp, Except.map]

/-- **What a pass makes of a regular file is read back from what is written of it**, as is the file
itself, and every pass but the sort of cases leaves what it wrote alone. -/
theorem parse_compose_apply {lines : List String} (hn : ∀ line ∈ lines, '\n' ∉ line.toList)
    (h : SourceFile.parse lines = .ok file) (hr : ∀ d ∈ file.root.postorder, d.Regular) :
    SourceFile.parse file.compose = .ok file ∧
      ∀ (pass : Pass) (changed : SourceFile), pass.apply file = (changed, none) →
        SourceFile.parse changed.compose = .ok changed ∧
          (pass ≠ .cases → pass.apply changed = (changed, none) ∧
            ∀ source : String, ofText source = lines →
              Dialect.java.transform pass source = .ok (toText changed.compose) ∧
                Dialect.java.transform pass (toText changed.compose) =
                  .ok (toText changed.compose)) := by
  have hstable := stable_of_parse hn h hr
  refine ⟨parse_compose_of_stable hstable, fun pass changed hp => ?_⟩
  have hback := parse_compose_of_stable (hstable.apply hp)
  refine ⟨hback, fun hne => ?_⟩
  have hagain := pass.apply_apply hne hp
  refine ⟨hagain, fun source hsource => ?_⟩
  subst hsource
  have hlines := ofText_toText (clean_compose_apply h (fun l hl => clean_of_mem_ofText hl) hp)
  refine ⟨transform_eq_ok h hp, transform_eq_ok ?_ hagain⟩
  rw [hlines]
  exact hback

/-- A class with a field whose value is on the line below gets its modifiers, once. -/
theorem parse_compose_apply_value :
    ∃ file changed,
      SourceFile.parse ["class Pair \x7b", "  // left", "  int a =", "    2;", "\x7d"] = .ok file ∧
      (Pass.visibility .isPrivate).apply file = (changed, none) ∧
      changed.compose =
        ["private class Pair \x7b", "  // left", "  private int a =", "    2;", "\x7d"] ∧
      SourceFile.parse changed.compose = .ok changed ∧
        (Pass.visibility .isPrivate).apply changed = (changed, none) := by
  let field : Declaration := .leaf .field ⟨["  // left"], "  int a ="⟩ ["    2;"]
  let file : SourceFile := ⟨[], .scope none ⟨[], "class Pair \x7b"⟩ [field]⟩
  have hread : SourceFile.parse ["class Pair \x7b", "  // left", "  int a =", "    2;", "\x7d"] =
      .ok file := by decide +kernel
  have hregular : ∀ d ∈ [field, file.root], d.Regular := by
    refine List.forall_mem_cons.2 ⟨⟨trivial, fun _ => List.cons_ne_nil _ _, trivial⟩, ?_⟩
    refine List.forall_mem_singleton.2 ⟨⟨2, by decide, by decide⟩, trivial, fun h => ?_⟩
    exact absurd h (by decide)
  have hpasses := (parse_compose_apply (by decide) hread hregular).2 (.visibility .isPrivate) _ rfl
  exact ⟨file, _, hread, rfl, by decide +kernel, hpasses.1, (hpasses.2 (by decide)).1⟩

/-- A line feed inside a line hides from the reader that a class ends with both braces, so that it reads
a closing line, and not from the writer, which leaves that line out. -/
theorem parse_compose_ne_of_lineFeed :
    ∃ file, SourceFile.parse ["class A\n\x7b\x7d", "\x7d"] = .ok file ∧
      (∀ d ∈ file.root.postorder, d.Regular) ∧ SourceFile.parse file.compose ≠ .ok file := by
  refine ⟨⟨[], .scope none ⟨[], "class A\n\x7b\x7d"⟩ []⟩, by decide +kernel, fun d hd => ?_,
    by decide +kernel⟩
  obtain rfl := List.mem_singleton.1 hd
  exact ⟨⟨1, by decide, nofun⟩, trivial, fun _ => by decide⟩

end HouseStyle
