import HouseStyle.Files.Tree

/-!
# Overwritten files

A file that gets another content stays where it is.  Paths are followed through directories alone, so
every path leads to the same location as before, and only those that lead to that file find another
content there.

* `LeadsTo`, `Distinct`: which file a path leads to, and paths that lead to different files.
* `entry?_overwrite`, `follow_overwrite`: what is at a location, and at the end of a path, afterwards.
* `read_overwrite`, `read_overwrite_self`: the texts that are read afterwards.
-/

namespace HouseStyle.Tree

variable {tree : Tree} {path other : Path} {location : Location} {content : ByteArray}

/-! ## Texts as bytes -/

theorem fromUTF8?_toUTF8 (text : String) : String.fromUTF8? text.toUTF8 = some text := by
  rw [String.fromUTF8?]
  split
  · rfl
  · next h => exact absurd text.isValidUTF8 h

theorem toUTF8_of_fromUTF8? {text : String} (h : String.fromUTF8? content = some text) :
    text.toUTF8 = content := by
  unfold String.fromUTF8? at h
  split at h
  · cases h
    rfl
  · cases h

/-! ## Locations -/

theorem entry?_eq_of_ne_nil (h : location ≠ []) :
    tree.entry? location = (tree.entries.find? fun e => e.1 = location).map Prod.snd := if_neg h

theorem fst_of_find? {entries : List (Location × Entry)} {e : Location × Entry}
    (h : entries.find? (fun e => e.1 = location) = some e) : e.1 = location := by
  have he := List.find?_some h
  exact of_decide_eq_true he

theorem any_eq_of_entry? {entry : Entry} (hne : location ≠ [])
    (h : tree.entry? location = some entry) : tree.entries.any (fun e => e.1 = location) = true := by
  rw [entry?_eq_of_ne_nil hne, Option.map_eq_some_iff] at h
  obtain ⟨e, he, -⟩ := h
  exact List.any_eq_true.2 ⟨e, List.mem_of_find?_eq_some he, decide_eq_true (fst_of_find? he)⟩

/-- An entry that replaces another one is found at its location, and all others as before. -/
theorem entry?_set {old new : Entry} (hne : location ≠ []) (h : tree.entry? location = some old)
    (l : Location) :
    Tree.entry? (tree.set location new) l =
      if l = location then some new else tree.entry? l := by
  have hany := any_eq_of_entry? hne h
  rw [set, if_pos hany]
  by_cases hl : l = []
  · subst hl
    rw [if_neg (Ne.symm hne)]
    rfl
  have hkey : ∀ e : Location × Entry,
      (if e.1 = location then (location, new) else e).1 = e.1 := by
    intro e
    split
    · next he => exact he.symm
    · rfl
  have hfind : (fun e : Location × Entry => decide (e.1 = l)) ∘
      (fun e => if e.1 = location then (location, new) else e) = fun e => decide (e.1 = l) := by
    funext e
    rw [Function.comp_apply, hkey]
  rw [entry?_eq_of_ne_nil hl, List.find?_map, hfind, entry?_eq_of_ne_nil hl]
  by_cases hlocation : l = location
  · subst hlocation
    obtain ⟨e, he⟩ := Option.isSome_iff_exists.1
      ((List.find?_isSome (p := fun e : Location × Entry => decide (e.1 = l))).2
        (List.any_eq_true.1 hany))
    rw [he, if_pos rfl, Option.map_some, Option.map_some, if_pos (fst_of_find? he)]
  · rw [if_neg hlocation, Option.map_map]
    cases he : tree.entries.find? fun e => decide (e.1 = l) with
    | none => rfl
    | some e =>
      have hel : e.1 ≠ location := fst_of_find? he ▸ hlocation
      rw [Option.map_some, Option.map_some, Function.comp_apply, if_neg hel]

/-! ## Paths -/

/-- Whether a path leads to the file at a location. -/
def LeadsTo (tree : Tree) (path : Path) (location : Location) : Prop :=
  ∃ content, tree.follow path = .ok (location, .file content)

/-- Whether no two of the paths lead to one file. -/
def Distinct (tree : Tree) (paths : List Path) : Prop :=
  paths.Pairwise fun p q => ∀ location, tree.LeadsTo p location → ¬ tree.LeadsTo q location

/-- A path that leads somewhere is not empty, its components lead to a location, and something is
there. -/
theorem of_follow_eq_ok {entry : Entry} (h : tree.follow path = .ok (location, entry)) :
    path.text ≠ "" ∧ tree.followFrom [] path.components = .ok location ∧
      tree.entry? location = some entry := by
  unfold follow at h
  split at h
  · cases h
  split at h
  · cases h
  next hempty =>
  split at h
  · cases h
  split at h
  · cases h
  next l hfollow =>
  refine ⟨by simpa using hempty, ?_⟩
  split at h
  · cases h
  · next he =>
    split at h
    · cases h
    · cases h
      exact ⟨hfollow, he⟩
  · next he =>
    cases h
    exact ⟨hfollow, he⟩

theorem entry?_of_follow {entry : Entry} (h : tree.follow path = .ok (location, entry)) :
    tree.entry? location = some entry := (of_follow_eq_ok h).2.2

theorem ne_nil_of_follow (h : tree.follow path = .ok (location, .file content)) :
    location ≠ [] := by
  rintro rfl
  have hentry := entry?_of_follow h
  cases hentry

theorem LeadsTo.unique {l l' : Location} (h : tree.LeadsTo path l) (h' : tree.LeadsTo path l') :
    l = l' := by
  obtain ⟨c, hc⟩ := h
  obtain ⟨c', hc'⟩ := h'
  rw [hc] at hc'
  exact (Prod.mk.inj (Except.ok.inj hc')).1

section Overwritten

variable {text : String} (h : tree.follow path = .ok (location, .file content))

include h

theorem overwrite_eq : tree.overwrite path text = tree.set location (.file text.toUTF8) := by
  rw [overwrite, h]

/-- Only the file that was overwritten has another content. -/
theorem entry?_overwrite (l : Location) : Tree.entry? (tree.overwrite path text) l =
    if l = location then some (.file text.toUTF8) else tree.entry? l := by
  rw [overwrite_eq h, entry?_set (ne_nil_of_follow h) (entry?_of_follow h)]

theorem followFrom_overwrite (components : List Path.Component) (l : Location) :
    (tree.overwrite path text).followFrom l components = tree.followFrom l components := by
  have hfile := entry?_of_follow h
  induction components generalizing l with
  | nil => rfl
  | cons component components ih =>
    unfold followFrom
    rw [entry?_overwrite h]
    by_cases hl : l = location
    · rw [if_pos hl, hl, hfile]
    · rw [if_neg hl]
      cases tree.entry? l with
      | none => rfl
      | some entry =>
        cases entry with
        | file _ => rfl
        | directory =>
          cases component with
          | root => rfl
          | current => exact ih l
          | parent => simp only [ih]
          | name text => simp only [ih]

/-- Every path leads to the location to which it led before. -/
theorem follow_overwrite (other : Path) : (tree.overwrite path text).follow other =
    (tree.follow other).map fun found =>
      if found.1 = location then (location, .file text.toUTF8) else found := by
  have hfile := entry?_of_follow h
  unfold follow
  split
  · rfl
  split
  · rfl
  split
  · rfl
  rw [followFrom_overwrite h]
  cases tree.followFrom [] other.components with
  | error e => rfl
  | ok l =>
    simp only [entry?_overwrite h]
    by_cases hl : l = location
    · rw [if_pos hl, hl, hfile]
      dsimp only
      split
      · rfl
      · exact (congrArg Except.ok (if_pos rfl)).symm
    · rw [if_neg hl]
      cases tree.entry? l with
      | none => rfl
      | some entry =>
        cases entry with
        | file _ =>
          dsimp only
          split
          · rfl
          · exact (congrArg Except.ok (if_neg hl)).symm
        | directory => exact (congrArg Except.ok (if_neg hl)).symm

theorem leadsTo_overwrite_iff (other : Path) (l : Location) :
    (tree.overwrite path text).LeadsTo other l ↔ tree.LeadsTo other l := by
  have hfile := entry?_of_follow h
  rw [LeadsTo, LeadsTo, follow_overwrite h]
  cases hother : tree.follow other with
  | error e => simp [Except.map]
  | ok found =>
    obtain ⟨l', entry⟩ := found
    by_cases hl' : l' = location
    · subst hl'
      -- the other path leads to the same file
      obtain rfl : entry = .file content :=
        Option.some.inj ((entry?_of_follow hother).symm.trans hfile)
      simp [Except.map]
    · simp [Except.map, hl']

theorem readBytes_overwrite (hne : ¬ tree.LeadsTo other location) :
    (tree.overwrite path text).readBytes other = tree.readBytes other := by
  have hfile := entry?_of_follow h
  rw [readBytes, readBytes, follow_overwrite h]
  cases hother : tree.follow other with
  | error e => rfl
  | ok found =>
    obtain ⟨l, entry⟩ := found
    have hl : l ≠ location := by
      rintro rfl
      obtain rfl : entry = .file content :=
        Option.some.inj ((entry?_of_follow hother).symm.trans hfile)
      exact hne ⟨content, hother⟩
    simp only [Except.map, if_neg hl]

theorem read_overwrite (hne : ¬ tree.LeadsTo other location) :
    (tree.overwrite path text).read other = tree.read other := by
  rw [read, readBytes_overwrite h hne, read]

/-- What was written is read back. -/
theorem read_overwrite_self : (tree.overwrite path text).read path = .ok text := by
  rw [read, readBytes, follow_overwrite h, h]
  simp only [Except.map, if_true, fromUTF8?_toUTF8]

end Overwritten

theorem exists_follow_of_read {text : String} (h : tree.read path = .ok text) :
    ∃ location, tree.follow path = .ok (location, .file text.toUTF8) := by
  unfold read readBytes at h
  cases hf : tree.follow path with
  | error e => rw [hf] at h; cases h
  | ok found =>
    obtain ⟨location, entry⟩ := found
    cases entry with
    | directory => rw [hf] at h; cases h
    | file content =>
      rw [hf] at h
      dsimp only at h
      split at h
      · next t ht =>
        cases h
        exact ⟨location, by rw [toUTF8_of_fromUTF8? ht]⟩
      · cases h

theorem exists_leadsTo_of_read {text : String} (h : tree.read path = .ok text) :
    ∃ location, tree.LeadsTo path location := by
  obtain ⟨location, hf⟩ := exists_follow_of_read h
  exact ⟨location, _, hf⟩

end HouseStyle.Tree
