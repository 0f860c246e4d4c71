import HouseStyle.Files.Discovery
import HouseStyle.Proofs.Files.Path
import HouseStyle.Proofs.Files.Tree
import HouseStyle.Proofs.Reading
import Mathlib.Data.List.Perm.Subperm

/-!
# Discovered files

What is found are the files that the given paths contribute, sorted and without repetitions.  A file below a
directory is spelled as the directory joined to the names further down, so it begins with a dot if the
directory does.  A dot at the beginning is the only thing in which two spellings that are left can differ:
a file is found twice if a path with such a dot and a path without it both lead there.

* `Walk.Lawful`, `Walk.lawful_unignored`: what a walk is relied on for.
* `Tree.Contributes`, `Tree.mem_contributions_iff`: the files that a path contributes, and those collected.
* `Tree.Contributes.isDotted_eq`: a file begins with a dot if the given path does.
* `Tree.discover_distinct_iff`: **when no file is found twice.**
-/

namespace HouseStyle

/-! ## Walks -/

/-- The paths of the files among what a walk yields. -/
def filePaths (entries : List WalkEntry) : List Path := (entries.filter (·.isFile)).map (·.path)

/-- What a walk is relied on for: the files that it yields are files of the tree, each of them once, and
spelled as the root of the walk joined to the names that lead there from the directory of the root. -/
structure Walk.Lawful (walk : Walk) : Prop where
  joined {tree : Tree} {root : Path} {entries : List WalkEntry} : walk tree root = .ok entries →
    filePaths entries ≠ [] → ∃ directory entry, ∃ names : List (List String),
      tree.follow root = .ok (directory, entry) ∧
      filePaths entries = names.map (fun names => names.foldl Path.join root) ∧
      (names.map (directory ++ ·)).Subperm tree.fileLocations

theorem Tree.files_reachedBelow_sublist (tree : Tree) (directory : Location) :
    (((tree.reachedBelow directory).filter Prod.snd).map fun r => directory ++ r.1).Sublist
      tree.fileLocations := by
  let below := tree.entries.filter fun e => directory.isPrefixOf e.1
  have hback : ((below.map fun e => (e.1.drop directory.length, e.2.isFile)).filter Prod.snd).map
      (fun r => directory ++ r.1) = (below.filter fun e => e.2.isFile).map Prod.fst := by
    rw [List.filter_map, List.map_map]
    refine List.map_congr_left fun e he => ?_
    have hbegins := (List.mem_filter.1 (List.mem_filter.1 he).1).2
    obtain ⟨names, hnames⟩ := List.isPrefixOf_iff_prefix.1 hbegins
    rw [Function.comp_apply, ← hnames, List.drop_left]
  have hreached : ((tree.reachedBelow directory).filter Prod.snd).Sublist
      ((below.map fun e => (e.1.drop directory.length, e.2.isFile)).filter Prod.snd) :=
    List.filter_sublist.filter _
  have hbelow : (below.filter fun e => e.2.isFile).Sublist (tree.entries.filter fun e => e.2.isFile) :=
    List.filter_sublist.filter _
  exact (hreached.map _).trans (hback ▸ hbelow.map _)

theorem Walk.lawful_unignored : Walk.unignored.Lawful := by
  refine ⟨fun {tree root entries} h hne => ?_⟩
  unfold unignored at h
  split at h
  · cases h
    exact absurd rfl hne
  split at h
  · cases h
  next directory entry hfollow =>
  split at h
  · cases h
  cases h
  refine ⟨directory, entry, ((tree.reachedBelow directory).filter Prod.snd).map Prod.fst, hfollow, ?_, ?_⟩
  · rw [filePaths, List.filter_map, List.map_map, List.map_map]
    rfl
  · rw [List.map_map]
    exact (tree.files_reachedBelow_sublist directory).subperm

namespace Tree

variable {tree : Tree} {walk : Walk} {extensions : List String} {root path : Path}
  {paths found files : List Path}

/-! ## Contributed files -/

/-- Whether a given path contributes a path: itself if it is a file, and otherwise every file that a walk
from it yields with a listed extension. -/
def Contributes (tree : Tree) (walk : Walk) (extensions : List String) (given path : Path) : Prop :=
  (tree.hasFile given = true ∧ path = given) ∨
  (tree.hasFile given = false ∧ (∃ entries, walk tree given = .ok entries ∧ ⟨path, true⟩ ∈ entries) ∧
    path.hasExtension extensions = true)

theorem mem_contribution_iff (h : tree.contribution walk extensions root = .ok files) :
    path ∈ files ↔ tree.Contributes walk extensions root path := by
  rw [Contributes]
  unfold contribution at h
  split at h
  · next hfile =>
    cases h
    simp [hfile]
  · next hfile =>
    obtain ⟨entries, hentries, rfl⟩ := exists_of_map_eq_ok h
    simp only [hfile, hentries, Except.ok.injEq, List.mem_map, List.mem_filter, Bool.and_eq_true]
    constructor
    · rintro ⟨⟨path, isFile⟩, ⟨hmem, rfl, hextension⟩, rfl⟩
      exact .inr ⟨trivial, ⟨_, rfl, hmem⟩, hextension⟩
    · rintro (⟨hfalse, -⟩ | ⟨-, ⟨_, rfl, hmem⟩, hextension⟩)
      · cases hfalse
      · exact ⟨_, ⟨hmem, rfl, hextension⟩, rfl⟩

/-- What is collected are the files that the given paths contribute. -/
theorem mem_contributions_iff (h : tree.contributions walk extensions paths = .ok files) :
    path ∈ files ↔ ∃ given ∈ paths, tree.Contributes walk extensions given path := by
  induction paths generalizing files with
  | nil =>
    cases h
    simp
  | cons given paths ih =>
    rw [contributions] at h
    split at h
    · cases h
    next first hfirst =>
    obtain ⟨rest, hrest, rfl⟩ := exists_of_map_eq_ok h
    rw [List.mem_append, mem_contribution_iff hfirst, ih hrest, List.exists_mem_cons_iff]

theorem Contributes.isDotted_eq (hw : walk.Lawful) (h : tree.Contributes walk extensions root path) :
    path.isDotted = root.isDotted := by
  obtain ⟨-, rfl⟩ | ⟨-, ⟨entries, hentries, hmem⟩, -⟩ := h
  · rfl
  · have hfile : path ∈ filePaths entries := List.mem_map_of_mem (List.mem_filter.2 ⟨hmem, rfl⟩)
    obtain ⟨directory, entry, names, hfollow, hjoined, -⟩ :=
      hw.joined hentries (List.ne_nil_of_mem hfile)
    rw [hjoined] at hfile
    obtain ⟨names, -, rfl⟩ := List.mem_map.1 hfile
    -- the root leads somewhere, so it is not the path without characters
    exact Path.isDotted_foldl_join (of_follow_eq_ok hfollow).1 names

/-! ## What is found -/

/-- Whether a path with a dot at the beginning and a path without it contribute spellings of one file. -/
def Collides (tree : Tree) (walk : Walk) (extensions : List String) (paths : List Path) : Prop :=
  ∃ dotted ∈ paths, ∃ other ∈ paths, dotted.isDotted = true ∧ other.isDotted = false ∧
    ∃ p q, tree.Contributes walk extensions dotted p ∧ tree.Contributes walk extensions other q ∧
      p.plain = q.plain

/-- Spellings that differ in a dot at the beginning come from given paths that differ in it. -/
theorem collides_of_plain (hw : walk.Lawful) {p q : Path}
    (hp : ∃ given ∈ paths, tree.Contributes walk extensions given p)
    (hq : ∃ given ∈ paths, tree.Contributes walk extensions given q) (hdotted : p.isDotted = true)
    (hother : q.isDotted = false) (h : p.plain = q.plain) : tree.Collides walk extensions paths := by
  obtain ⟨given, hgiven, hp⟩ := hp
  obtain ⟨given', hgiven', hq⟩ := hq
  exact ⟨given, hgiven, given', hgiven', hp.isDotted_eq hw ▸ hdotted, hq.isDotted_eq hw ▸ hother,
    p, q, hp, hq, h⟩

/-- **When no file is found twice.**  The files are found in strictly increasing order, each is contributed
by a given path, and of all spellings with the same components one is found.  No two of them are equal
without their dots, unless a path with a dot at the beginning and a path without it contribute spellings of
one file. -/
theorem discover_distinct_iff (hw : walk.Lawful)
    (h : tree.discoverBy walk extensions paths = .ok found) :
    (found.Pairwise fun p q => p.compare q = .lt) ∧
    (∀ path ∈ found, ∃ given ∈ paths, tree.Contributes walk extensions given path) ∧
    (∀ given ∈ paths, ∀ path, tree.Contributes walk extensions given path →
      ∃ q ∈ found, q.components = path.components) ∧
    ((found.Pairwise fun p q => p.plain ≠ q.plain) ↔ ¬ tree.Collides walk extensions paths) := by
  obtain ⟨files, hfiles, rfl⟩ := exists_of_map_eq_ok h
  have hsorted := Path.sortDistinct_pairwise files
  have hfrom : ∀ path ∈ Path.sortDistinct files,
      ∃ given ∈ paths, tree.Contributes walk extensions given path :=
    fun path hpath => (mem_contributions_iff hfiles).1 (Path.mem_of_mem_sortDistinct hpath)
  have hall : ∀ given ∈ paths, ∀ path, tree.Contributes walk extensions given path →
      ∃ q ∈ Path.sortDistinct files, q.components = path.components :=
    fun given hgiven path hpath =>
      Path.exists_mem_sortDistinct ((mem_contributions_iff hfiles).2 ⟨given, hgiven, hpath⟩)
  refine ⟨hsorted, hfrom, hall, fun hpairwise hcollides => ?_, fun hcollides => ?_⟩
  · obtain ⟨dotted, hdotted, other, hother, hdot, hno, p, q, hp, hq, hplain⟩ := hcollides
    obtain ⟨p', hp', hpc⟩ := hall dotted hdotted p hp
    obtain ⟨q', hq', hqc⟩ := hall other hother q hq
    have hdot' : p'.isDotted = true :=
      (Path.isDotted_eq_of_components hpc).trans ((hp.isDotted_eq hw).trans hdot)
    have hno' : q'.isDotted = false :=
      (Path.isDotted_eq_of_components hqc).trans ((hq.isDotted_eq hw).trans hno)
    have hne : p' ≠ q' := by
      rintro rfl
      rw [hdot'] at hno'
      cases hno'
    have hsymm : Std.Symm fun p q : Path => p.plain ≠ q.plain := ⟨fun _ _ => Ne.symm⟩
    refine hpairwise.forall hp' hq' hne ?_
    rw [Path.plain_eq_of_components hpc, Path.plain_eq_of_components hqc, hplain]
  · refine hsorted.imp_of_mem fun {p q} hp hq hlt hplain => hcollides ?_
    cases hpd : p.isDotted <;> cases hqd : q.isDotted
    case true.false => exact collides_of_plain hw (hfrom p hp) (hfrom q hq) hpd hqd hplain
    case false.true => exact collides_of_plain hw (hfrom q hq) (hfrom p hp) hqd hpd hplain.symm
    -- with a dot in both or neither the two are equal as paths
    all_goals
      have heq := Path.compare_eq_eq_iff.2 (Path.components_eq_of_plain hplain (hpd.trans hqd.symm))
      rw [heq] at hlt
      cases hlt

/-- A directory with two files. -/
def sources : Tree :=
  ⟨[(["a"], .directory), (["a", "A.java"], .file "".toUTF8), (["a", "B.txt"], .file "".toUTF8)]⟩

/-- A directory and a file in it, both with a dot in front, contribute one file. -/
theorem discover_distinct_iff_dotted :
    sources.discover ["java"] [⟨"./a"⟩, ⟨"./a//A.java"⟩] = .ok [⟨"./a/A.java"⟩] ∧
      ¬ sources.Collides .unignored ["java"] [⟨"./a"⟩, ⟨"./a//A.java"⟩] := by
  have hfiles : sources.contributions .unignored ["java"] [⟨"./a"⟩, ⟨"./a//A.java"⟩] =
      .ok [⟨"./a/A.java"⟩, ⟨"./a//A.java"⟩] := by decide +kernel
  have hsorted : Path.sortDistinct [⟨"./a/A.java"⟩, ⟨"./a//A.java"⟩] = [⟨"./a/A.java"⟩] := by
    rw [Path.sortDistinct, List.mergeSort_of_pairwise (by decide +kernel), Path.dropRepeats,
      if_pos (by decide +kernel)]
    exact Path.dropRepeats_of_pairwise (List.pairwise_singleton _ _)
  have hfound : sources.discover ["java"] [⟨"./a"⟩, ⟨"./a//A.java"⟩] = .ok [⟨"./a/A.java"⟩] := by
    rw [discover, discoverBy, hfiles]
    exact congrArg Except.ok hsorted
  have hdistinct := discover_distinct_iff Walk.lawful_unignored hfound
  exact ⟨hfound, hdistinct.2.2.2.1 (List.pairwise_singleton _ _)⟩

/-- A file is found twice when the working directory is given, as a dot, and the file itself without one. -/
theorem discover_not_distinct :
    sources.discover ["java"] [⟨"."⟩, ⟨"a/A.java"⟩] = .ok [⟨"./a/A.java"⟩, ⟨"a/A.java"⟩] ∧
      Path.plain ⟨"./a/A.java"⟩ = Path.plain ⟨"a/A.java"⟩ ∧
      sources.LeadsTo ⟨"./a/A.java"⟩ ["a", "A.java"] ∧ sources.LeadsTo ⟨"a/A.java"⟩ ["a", "A.java"] := by
  have hfiles : sources.contributions .unignored ["java"] [⟨"."⟩, ⟨"a/A.java"⟩] =
      .ok [⟨"./a/A.java"⟩, ⟨"a/A.java"⟩] := by decide +kernel
  refine ⟨?_, by decide +kernel, ⟨_, rfl⟩, ⟨_, rfl⟩⟩
  rw [discover, discoverBy, hfiles]
  refine congrArg Except.ok ?_
  rw [Path.sortDistinct, List.mergeSort_of_pairwise (by decide +kernel)]
  exact Path.dropRepeats_of_pairwise (by decide +kernel)

end Tree

end HouseStyle
