import HouseStyle.Dialect
import HouseStyle.Proofs.Block.CleanText
import HouseStyle.Proofs.Block.Reread
import HouseStyle.Proofs.Block.Sort

/-!
# Sorting a file of blocks

A sort writes the logical lines of a file in another order.  A node that has changed its place is
not always read there: the reader judges a comment by the code below it, and what is below is now
another block.  What a sort wrote is read back as the sorted tree exactly if that tree is settled
and nested, and then sorting it again changes nothing.

* `compose_sort_spread`: a sort keeps the logical lines of a file.
* `transform_sort_eq_ok_iff`: what a sort makes of a text.
* `transform_sort_transform`: **a sort whose tree is settled and nested may be repeated.**
* `transform_sort_ne_of_comment`: a comment at the end of a file leaves the block it was read in.
-/

namespace HouseStyle.Block

open Text

/-! ## Logical lines -/

section

variable {lines : List String} {nodes : List Node} (h : parse lines = .ok nodes)

include h

/-- A sort keeps the logical lines of a file, each with its physical lines. -/
theorem compose_sort_spread : ∃ blocks sorted, logicalLines lines = some blocks ∧
    sorted.Perm blocks ∧ Spread sorted (compose true (sort nodes)) := by
  obtain ⟨-, blocks, hblocks, -, hsegments, -, -⟩ := compose_spread h
  obtain ⟨sorted, hsorted, hperm⟩ := hsegments.sort
  exact ⟨blocks, sorted, hblocks, hperm, hsorted.spread true none⟩

theorem clean_compose_sort (hclean : ∀ l ∈ lines, Clean l) :
    ∀ l ∈ compose true (sort nodes), Clean l := by
  refine clean_compose (cleanText_mapLists (fun list hlist n hn => ?_) (cleanText_of_parse h hclean))
  exact hlist n ((sortRuns_perm list).mem_iff.1 hn)

end

end HouseStyle.Block

namespace HouseStyle

open Text Block

variable {options : SortOptions} {source text : String}

theorem transform_sort_eq_ok_iff : Dialect.python.transform (.sort options) source = .ok text ↔
    ∃ nodes, parse (ofText source) = .ok nodes ∧ text = toText (compose true (sort nodes)) := by
  simp only [Dialect.transform, Dialect.transformBlocks, Dialect.onBlocks?]
  cases parse (ofText source) with
  | error e =>
    refine ⟨fun h => ?_, fun ⟨nodes, h, _⟩ => ?_⟩
    · cases h
    · cases h
  | ok nodes =>
    refine ⟨fun h => ⟨nodes, rfl, (Except.ok.inj h).symm⟩, fun ⟨nodes', h, ht⟩ => ?_⟩
    cases h
    rw [ht]
    rfl

/-- **A sort whose tree is settled and nested may be repeated.**  A sort keeps the logical lines of a
file.  Its text is read back as the sorted tree exactly under these two conditions; a second sort then
changes nothing. -/
theorem transform_sort_transform (h : Dialect.python.transform (.sort options) source = .ok text) :
    ∃ nodes, parse (ofText source) = .ok nodes ∧ ofText text = compose true (sort nodes) ∧
      (∃ blocks sorted, logicalLines (ofText source) = some blocks ∧ sorted.Perm blocks ∧
        Spread sorted (ofText text)) ∧
      (parse (ofText text) = .ok (sort nodes) ↔
        settled (sort nodes) = true ∧ nested (sort nodes) = true) ∧
      (settled (sort nodes) = true → nested (sort nodes) = true →
        Dialect.python.transform (.sort options) text = .ok text) := by
  obtain ⟨nodes, hread, rfl⟩ := transform_sort_eq_ok_iff.1 h
  have hclean : ∀ l ∈ compose true (sort nodes), Clean l :=
    clean_compose_sort hread fun l hl => clean_of_mem_ofText hl
  have hformed : ∀ n ∈ sort nodes, Formed n :=
    formed_sort (formed_of_reads (parse_eq_ok_iff.1 hread))
  have hback := parse_compose_iff_of_formed hformed
  refine ⟨nodes, hread, ofText_toText hclean, ?_, ?_, fun hs hn => ?_⟩
  · rw [ofText_toText hclean]
    exact compose_sort_spread hread
  · rw [ofText_toText hclean]
    exact hback
  · refine transform_sort_eq_ok_iff.2 ⟨sort nodes, ?_, ?_⟩
    · rw [ofText_toText hclean]
      exact hback.2 ⟨hs, hn⟩
    · rw [sort_sort]

/-- Two functions change places for good, one of them with a list on several lines. -/
theorem transform_sort_transform_brackets :
    Dialect.python.transform (.sort {})
        "def g():\n    x = [\n\n        1]\ndef f():\n    pass\n" =
      .ok "def f():\n    pass\n\n\ndef g():\n    x = [\n\n        1]\n" ∧
    Dialect.python.transform (.sort {})
        "def f():\n    pass\n\n\ndef g():\n    x = [\n\n        1]\n" =
      .ok "def f():\n    pass\n\n\ndef g():\n    x = [\n\n        1]\n" := by
  let g : Node := .block .function [] ["def g():"] [.statement ["    x = [", "", "        1]"]]
  let f : Node := .block .function [] ["def f():"] [.statement ["    pass"]]
  have hread : parse (ofText "def g():\n    x = [\n\n        1]\ndef f():\n    pass\n") =
      .ok [g, f] := by decide +kernel
  have hsorted : sort [g, f] = [f, g] := by
    have hrun := sort_append_of_perm [] (List.cons_ne_nil g [f]) (by decide +kernel)
      (List.Perm.swap g f []) (by decide +kernel) (fun _ hn => nomatch hn)
    simpa [Node.sortBody_block, sort_cons_statement, g, f] using hrun
  have hwritten : Dialect.python.transform (.sort {})
      "def g():\n    x = [\n\n        1]\ndef f():\n    pass\n" =
        .ok "def f():\n    pass\n\n\ndef g():\n    x = [\n\n        1]\n" := by
    refine transform_sort_eq_ok_iff.2 ⟨_, hread, ?_⟩
    rw [hsorted]
    decide +kernel
  obtain ⟨nodes, hread', -, -, -, hagain⟩ := transform_sort_transform hwritten
  obtain rfl : [g, f] = nodes := Except.ok.inj (hread.symm.trans hread')
  rw [hsorted] at hagain
  exact ⟨hwritten, hagain (by decide +kernel) (by decide +kernel)⟩

/-- The comment at the end of a file belongs to the block above it until that block changes its
place: a second sort moves the comment out of the block. -/
theorem transform_sort_ne_of_comment :
    Dialect.python.transform (.sort {})
        "def b():\n    pass\ndef a():\n    pass\n    # end of a\n" =
      .ok "def a():\n    pass\n\n    # end of a\n\n\ndef b():\n    pass\n" ∧
    Dialect.python.transform (.sort {})
        "def a():\n    pass\n\n    # end of a\n\n\ndef b():\n    pass\n" ≠
      .ok "def a():\n    pass\n\n    # end of a\n\n\ndef b():\n    pass\n" := by
  let a : Node := .block .function [] ["def a():"] [.statement ["    pass"]]
  let b : Node := .block .function [] ["def b():"] [.statement ["    pass"]]
  let comment : Node := .statement ["    # end of a"]
  let whole : Node := .block .function [] ["def a():"] [.statement ["    pass"], comment]
  have hread : parse (ofText "def b():\n    pass\ndef a():\n    pass\n    # end of a\n") =
      .ok [b, whole] := by decide +kernel
  have hsorted : sort [b, whole] = [whole, b] := by
    have hrun := sort_append_of_perm [] (List.cons_ne_nil b [whole]) (by decide +kernel)
      (List.Perm.swap b whole []) (by decide +kernel) (fun _ hn => nomatch hn)
    simpa [Node.sortBody_block, sort_cons_statement, b, comment, whole] using hrun
  have hagain : parse (ofText
      "def a():\n    pass\n\n    # end of a\n\n\ndef b():\n    pass\n") =
        .ok [a, comment, b] := by decide +kernel
  have hfence : sort [a, comment, b] = [a, comment, b] := by
    have hlast := sort_append_of_perm [] (List.cons_ne_nil b []) (by decide +kernel)
      (List.Perm.refl _) (by decide +kernel) (fun _ hn => nomatch hn)
    have hfirst := sort_append_of_perm [comment, b] (List.cons_ne_nil a []) (by decide +kernel)
      (List.Perm.refl _) (by decide +kernel) (by decide +kernel)
    rw [List.append_nil] at hlast
    change sort [a, comment, b] = [a.sortBody] ++ sort [comment, b] at hfirst
    rw [hfirst, sort_cons_statement, hlast]
    simp [Node.sortBody_block, sort_cons_statement, a, b, comment]
  constructor
  · refine transform_sort_eq_ok_iff.2 ⟨_, hread, ?_⟩
    rw [hsorted]
    decide +kernel
  · intro hsame
    obtain ⟨nodes, hnodes, htext⟩ := transform_sort_eq_ok_iff.1 hsame
    obtain rfl : [a, comment, b] = nodes := Except.ok.inj (hagain.symm.trans hnodes)
    rw [hfence] at htext
    exact absurd htext (by decide +kernel)

end HouseStyle
