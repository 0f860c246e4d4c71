import HouseStyle.Proofs.Block.SortFile
import HouseStyle.Proofs.Declaration.Pass

/-!
# Normalized results

What a pass writes is normalized, whatever the text was that it read: the lines of the text are clean,
every pass makes clean lines of clean lines, and so do both writers.

* `Block.clean_compose_capitalizeComments`: blocks with their comments capitalized.
* `clean_of_transformDeclarations`, `clean_of_transformBlocks`: the lines after a pass.
* `transform_normalized`: **the text after a pass is written back as it was.**
-/

namespace HouseStyle

open Text

variable {pass : Pass} {lines written : List String}

/-! ## Capitalized comments -/

namespace Block

variable {nodes : List Node}

theorem clean_of_capitalizeComment {line line' : String} (h : capitalizeComment line = some line')
    (hline : Clean line) : Clean line' := by
  unfold capitalizeComment at h
  split at h
  · cases h
  · exact clean_of_capitalizeAfter (by decide) h hline

theorem Node.CleanText.capitalize {node : Node} (h : node.CleanText) : node.capitalize.CleanText := by
  cases h with
  | block hl hb => exact .block hl hb
  | @statement lines hl =>
    cases lines with
    | nil => exact .statement hl
    | cons line lines =>
      obtain ⟨hline, hlines⟩ := List.forall_mem_cons.1 hl
      refine .statement (List.forall_mem_cons.2 ⟨?_, hlines⟩)
      cases hc : capitalizeComment line with
      | none => exact hline
      | some line' => exact clean_of_capitalizeComment hc hline

theorem clean_compose_capitalizeComments (h : parse lines = .ok nodes)
    (hclean : ∀ l ∈ lines, Clean l) : ∀ l ∈ compose true (capitalizeComments nodes), Clean l := by
  refine clean_compose (cleanText_mapLists (fun list hlist => ?_) (cleanText_of_parse h hclean))
  exact forall_mem_mapRunHeads (P := Node.CleanText) (fun _ => Node.CleanText.capitalize) hlist

end Block

/-! ## Passes -/

theorem clean_of_transformDeclarations (h : Dialect.transformDeclarations pass lines = .ok written)
    (hclean : ∀ l ∈ lines, Clean l) : ∀ l ∈ written, Clean l := by
  unfold Dialect.transformDeclarations at h
  split at h
  · cases h
  next file hread =>
  split at h
  · cases h
  next changed hp =>
  cases h
  exact clean_compose_apply hread hclean hp

theorem clean_of_transformBlocks (h : Dialect.transformBlocks pass lines = .ok written)
    (hclean : ∀ l ∈ lines, Clean l) : ∀ l ∈ written, Clean l := by
  unfold Dialect.transformBlocks at h
  split at h
  · cases h
  next change hchange =>
  split at h
  · cases h
  next nodes hread =>
  cases h
  cases pass with
  | sort options =>
    cases hchange
    exact Block.clean_compose_sort hread hclean
  | comments =>
    cases hchange
    exact Block.clean_compose_capitalizeComments hread hclean
  | visibility modifier => cases hchange
  | cases => cases hchange

theorem exists_clean_of_transform {dialect : Dialect} {source text : String}
    (h : dialect.transform pass source = .ok text) :
    ∃ written, text = toText written ∧ ∀ l ∈ written, Clean l := by
  have hsource : ∀ l ∈ ofText source, Clean l := fun l hl => clean_of_mem_ofText hl
  cases dialect with
  | java =>
    obtain ⟨written, hwritten, rfl⟩ := exists_of_map_eq_ok h
    exact ⟨written, rfl, clean_of_transformDeclarations hwritten hsource⟩
  | python =>
    obtain ⟨written, hwritten, rfl⟩ := exists_of_map_eq_ok h
    exact ⟨written, rfl, clean_of_transformBlocks hwritten hsource⟩

/-- **The text after a pass is normalized**, in both dialects and whatever the text was before: it is
written back as it was when it is cut into lines.  Lines are read back from their text exactly if they
are clean, and a text is written back from its lines exactly if it is normalized. -/
theorem transform_normalized :
    (∀ lines : List String, ofText (toText lines) = lines ↔ ∀ l ∈ lines, Clean l) ∧
    (∀ text : String, toText (ofText text) = text ↔ Normalized text) ∧
    ∀ (dialect : Dialect) (pass : Pass) (source text : String),
      dialect.transform pass source = .ok text →
        toText (ofText text) = text ∧ Normalized text := by
  refine ⟨fun _ => ofText_toText_iff, fun _ => toText_ofText_iff, fun dialect pass source text h => ?_⟩
  obtain ⟨written, rfl, hclean⟩ := exists_clean_of_transform h
  exact ⟨congrArg toText (ofText_toText hclean), normalized_toText hclean⟩

/-- Carriage returns, a tab, a no-break space and the missing end of the last line are gone. -/
theorem transform_normalized_carriage_returns :
    Dialect.python.transform .comments "x = 1\t\r\n\r\n# one\u00a0\r\n# two" =
        .ok "x = 1\n\n# One\n# two\n" ∧
      toText (ofText "x = 1\n\n# One\n# two\n") = "x = 1\n\n# One\n# two\n" ∧
      Normalized "x = 1\n\n# One\n# two\n" := by
  have h : Dialect.python.transform .comments "x = 1\t\r\n\r\n# one\u00a0\r\n# two" =
      .ok "x = 1\n\n# One\n# two\n" := by decide +kernel
  exact ⟨h, transform_normalized.2.2 _ _ _ _ h⟩

end HouseStyle
