import HouseStyle.Proofs.Declaration.CaseGroups
import HouseStyle.Proofs.Text.Order

/-!
# Runs of case groups

A body is runs of case groups and the lines between them.  Where a group ends depends on the group
alone if it has its closing line, and else on the first line behind it; where a run ends depends on
that line as well.

* `IsGroup`, `Ends`: a group, and whether it ends in front of some lines.
* `IsCaseRun`, `caseRuns_induction`: induction over the runs of a body and the lines between them.
* `IsCaseRun.caseRuns_eq`, `IsCaseRun.sortGroupsAt_eq`: what is found and sorted in front of some lines.
* `isCaseRun_extend`: a run whose last group takes in lines behind it.
-/

namespace HouseStyle

open Text

variable {dent : Nat} {line : String} {body rest g : List String} {groups : List (List String)}

/-- Whether a group has its closing line. -/
def isClosed (dent : Nat) (group : List String) : Bool := group.any (closes · dent "\x7d")

/-- Whether some lines are a case line with deeper lines below it, and perhaps a closing line. -/
def IsGroup (dent : Nat) (group : List String) : Prop :=
  ∃ line body, ∃ closer : Option String, group = line :: (body ++ closer.toList) ∧
    isCaseAt dent line = true ∧ (∀ l ∈ body, isInside dent l = true) ∧
    ∀ l ∈ closer, closes l dent "\x7d" = true

/-- Whether a group ends in front of some lines. -/
def Ends (dent : Nat) (group rest : List String) : Prop :=
  isClosed dent group = true ∨
    ∀ l ∈ rest.head?, isInside dent l = false ∧ closes l dent "\x7d" = false

/-- Whether some groups are a run in front of some lines. -/
structure IsCaseRun (dent : Nat) (groups : List (List String)) (rest : List String) : Prop where
  ne_nil : groups ≠ []
  isGroup : ∀ g ∈ groups, IsGroup dent g
  ends : ∀ g ∈ groups.getLast?, Ends dent g rest
  stop : ∀ l ∈ rest.head?, isCaseAt dent l = false

/-! ## Lines of a group -/

theorem isInside_of_closes_eq (h : closes line dent "\x7d" = true) : isInside dent line = false := by
  rw [closes_iff] at h
  rw [h, Bool.eq_false_iff, ne_eq, isInside_iff (isBlank_closingLine rfl dent),
    leadingSpaces_closingLine rfl]
  exact Nat.lt_irrefl dent

theorem isCaseAt_of_closes (h : closes line dent "\x7d" = true) : isCaseAt dent line = false := by
  rw [closes_iff] at h
  have hhead : (unindented line).head? = some '\x7d' := by
    rw [h, unindented_closingLine rfl]
    rfl
  rw [isCaseAt, isCaseLine, startsWith_eq_false_of_head (c := 'c') rfl hhead (by decide),
    startsWith_eq_false_of_head (c := 'd') rfl hhead (by decide)]
  rfl

theorem isInside_of_isCaseAt_self (h : isCaseAt dent line = true) :
    isInside dent line = false ∧ closes line dent "\x7d" = false := by
  constructor
  · rw [isInside_of_isCaseAt h]
    simp
  · refine Bool.eq_false_iff.2 fun hc => ?_
    rw [isCaseAt_of_closes hc] at h
    cases h

theorem closes_of_isInside (h : isInside dent line = true) : closes line dent "\x7d" = false := by
  refine Bool.eq_false_iff.2 fun hc => ?_
  rw [isInside_of_closes_eq hc] at h
  cases h

/-! ## Where a group ends -/

theorem splitGroup_inside (hb : ∀ l ∈ body, isInside dent l = true) (rest : List String) :
    splitGroup dent (body ++ rest) = (body ++ (splitGroup dent rest).1, (splitGroup dent rest).2) := by
  rw [splitGroup, splitGroup, List.dropWhile_append_of_pos hb, List.takeWhile_append_of_pos hb]
  split
  · rfl
  · split
    · rw [List.append_assoc]
    · rfl

theorem splitGroup_of_head (h : ∀ l ∈ rest.head?, isInside dent l = false ∧
    closes l dent "\x7d" = false) : splitGroup dent rest = ([], rest) := by
  cases rest with
  | nil => rfl
  | cons l rest =>
    obtain ⟨hl, hc⟩ := h l rfl
    have hneg : ¬ isInside dent l = true := by simp [hl]
    rw [splitGroup, List.dropWhile_cons_of_neg hneg, List.takeWhile_cons_of_neg hneg]
    dsimp only
    rw [if_neg (by simp [hc])]

theorem splitGroup_of_closes (h : closes line dent "\x7d" = true) (rest : List String) :
    splitGroup dent (line :: rest) = ([line], rest) := by
  have hneg : ¬ isInside dent line = true := by simp [isInside_of_closes_eq h]
  rw [splitGroup, List.dropWhile_cons_of_neg hneg, List.takeWhile_cons_of_neg hneg]
  dsimp only
  rw [if_pos h]
  rfl

theorem isClosed_eq_isSome {closer : Option String} (hline : isCaseAt dent line = true)
    (hbody : ∀ l ∈ body, isInside dent l = true) (hcloser : ∀ l ∈ closer, closes l dent "\x7d" = true) :
    isClosed dent (line :: (body ++ closer.toList)) = closer.isSome := by
  have hb : ∀ l ∈ body, closes l dent "\x7d" = false := fun l hl => closes_of_isInside (hbody l hl)
  cases closer with
  | none => simpa [isClosed, (isInside_of_isCaseAt_self hline).2] using hb
  | some l => simp [isClosed, hcloser l rfl]

/-- A group is found in front of lines that it ends in front of. -/
theorem IsGroup.exists_splitGroup_eq (hg : IsGroup dent g) (he : Ends dent g rest) :
    ∃ line below, g = line :: below ∧ isCaseAt dent line = true ∧
      splitGroup dent (below ++ rest) = (below, rest) := by
  obtain ⟨line, body, closer, rfl, hline, hbody, hcloser⟩ := hg
  refine ⟨line, _, rfl, hline, ?_⟩
  rw [List.append_assoc, splitGroup_inside hbody]
  cases closer with
  | some l => rw [Option.toList_some, List.singleton_append, splitGroup_of_closes (hcloser l rfl)]
  | none =>
    rcases he with he | he
    · rw [isClosed_eq_isSome hline hbody hcloser] at he
      cases he
    · rw [Option.toList_none, List.nil_append, splitGroup_of_head he]

/-- What is found below a case line is a group, and it ends there. -/
theorem isGroup_splitGroup (hline : isCaseAt dent line = true) (below : List String) :
    IsGroup dent (line :: (splitGroup dent below).1) ∧
      Ends dent (line :: (splitGroup dent below).1) (splitGroup dent below).2 := by
  have htake : ∀ l ∈ below.takeWhile (isInside dent), isInside dent l = true :=
    List.all_eq_true.1 List.all_takeWhile
  have hhead := List.head?_dropWhile_not (isInside dent) below
  rw [← List.takeWhile_append_dropWhile (p := isInside dent) (l := below), splitGroup_inside htake]
  dsimp only
  cases hdrop : below.dropWhile (isInside dent) with
  | nil => exact ⟨⟨line, _, none, rfl, hline, htake, by simp⟩, Or.inr (by simp [splitGroup])⟩
  | cons l rest =>
    rw [hdrop] at hhead
    by_cases hc : closes l dent "\x7d" = true
    · rw [splitGroup_of_closes hc]
      exact ⟨⟨line, _, some l, rfl, hline, htake, by simpa using hc⟩, Or.inl (by simp [isClosed, hc])⟩
    · have hl : ∀ l' ∈ (l :: rest).head?, isInside dent l' = false ∧ closes l' dent "\x7d" = false := by
        simpa [hc] using hhead
      rw [splitGroup_of_head hl]
      exact ⟨⟨line, _, none, rfl, hline, htake, by simp⟩, Or.inr hl⟩

/-! ## Groups of a run -/

theorem head?_flatten_append (hg : ∀ g ∈ groups, IsGroup dent g) (rest : List String) :
    (groups = [] ∧ (groups.flatten ++ rest).head? = rest.head?) ∨
      ∃ line, (groups.flatten ++ rest).head? = some line ∧ isCaseAt dent line = true := by
  cases groups with
  | nil => exact Or.inl ⟨rfl, rfl⟩
  | cons g gs =>
    obtain ⟨line, body, closer, rfl, hline, -⟩ := hg g List.mem_cons_self
    exact Or.inr ⟨line, rfl, hline⟩

theorem leadingGroups_of_isCaseAt (h : isCaseAt dent line = true) (below : List String) :
    leadingGroups dent (line :: below) = ((line :: (splitGroup dent below).1) ::
      (leadingGroups dent (splitGroup dent below).2).1,
        (leadingGroups dent (splitGroup dent below).2).2) := by
  rw [leadingGroups, if_pos h]

theorem leadingGroups_of_head (h : ∀ l ∈ rest.head?, isCaseAt dent l = false) :
    leadingGroups dent rest = ([], rest) := by
  cases rest with
  | nil => rw [leadingGroups]
  | cons l rest => rw [leadingGroups, if_neg (by simp [h l rfl])]

theorem leadingGroups_flatten (hg : ∀ g ∈ groups, IsGroup dent g)
    (he : ∀ g ∈ groups.getLast?, Ends dent g rest) (hs : ∀ l ∈ rest.head?, isCaseAt dent l = false) :
    leadingGroups dent (groups.flatten ++ rest) = (groups, rest) := by
  induction groups with
  | nil => exact leadingGroups_of_head hs
  | cons g gs ih =>
    obtain ⟨hg, hgs⟩ := List.forall_mem_cons.1 hg
    have hends : Ends dent g (gs.flatten ++ rest) := by
      rcases head?_flatten_append hgs rest with ⟨rfl, -⟩ | ⟨line, hhead, hline⟩
      · exact he g rfl
      · -- the next group begins with a case line
        refine Or.inr fun l hl => ?_
        rw [hhead] at hl
        rw [← Option.some.inj hl]
        exact isInside_of_isCaseAt_self hline
    obtain ⟨line, below, rfl, hline, hsplit⟩ := hg.exists_splitGroup_eq hends
    have hlast : ∀ g ∈ gs.getLast?, Ends dent g rest := fun g hmem =>
      he g (List.mem_getLast?_cons hmem)
    rw [List.flatten_cons, List.append_assoc, List.cons_append, leadingGroups_of_isCaseAt hline,
      hsplit, ih hgs hlast]

theorem leadingGroups_spec (dent : Nat) (ls : List String) :
    (∀ g ∈ (leadingGroups dent ls).1, IsGroup dent g) ∧
      (∀ g ∈ (leadingGroups dent ls).1.getLast?, Ends dent g (leadingGroups dent ls).2) ∧
      ∀ l ∈ (leadingGroups dent ls).2.head?, isCaseAt dent l = false := by
  fun_induction leadingGroups dent ls with
  | case1 => simp
  | case2 line below hline group more ih =>
    obtain ⟨hg, he⟩ := isGroup_splitGroup hline below
    obtain ⟨hgs, hends, hstop⟩ := ih
    refine ⟨List.forall_mem_cons.2 ⟨hg, hgs⟩, fun g hmem => ?_, hstop⟩
    cases hmore : more.1 with
    | nil =>
      rw [hmore] at hmem
      obtain rfl := Option.some.inj hmem
      have happend := leadingGroups_append dent group.2
      rw [show (leadingGroups dent group.2).1 = [] from hmore] at happend
      rwa [← show more.2 = group.2 from happend] at he
    | cons g' gs =>
      rw [hmore, List.getLast?_cons_cons, ← hmore] at hmem
      exact hends g hmem
  | case3 line below hline => simpa using hline

theorem isCaseRun_leadingGroups (h : isCaseAt dent line = true) (below : List String) :
    IsCaseRun dent (leadingGroups dent (line :: below)).1 (leadingGroups dent (line :: below)).2 := by
  obtain ⟨hg, he, hs⟩ := leadingGroups_spec dent (line :: below)
  refine ⟨?_, hg, he, hs⟩
  rw [leadingGroups_of_isCaseAt h]
  exact List.cons_ne_nil _ _

namespace IsCaseRun

variable (h : IsCaseRun dent groups rest)

include h

theorem leadingGroups_eq : leadingGroups dent (groups.flatten ++ rest) = (groups, rest) :=
  leadingGroups_flatten h.isGroup h.ends h.stop

theorem exists_cons : ∃ line below, groups.flatten ++ rest = line :: below ∧
    isCaseAt dent line = true := by
  rcases head?_flatten_append h.isGroup rest with ⟨hnil, -⟩ | ⟨line, hhead, hline⟩
  · exact absurd hnil h.ne_nil
  · obtain ⟨below, hbelow⟩ := List.head?_eq_some_iff.1 hhead
    exact ⟨line, below, hbelow, hline⟩

theorem exists_concat : ∃ gs g, groups = gs ++ [g] :=
  ⟨_, _, (List.dropLast_append_getLast h.ne_nil).symm⟩

theorem caseRuns_eq : caseRuns dent (groups.flatten ++ rest) =
    (groups, rest) :: caseRuns dent rest := by
  have hlead := h.leadingGroups_eq
  obtain ⟨line, below, heq, hline⟩ := h.exists_cons
  rw [heq, leadingGroups_of_isCaseAt hline, Prod.mk.injEq] at hlead
  rw [heq, caseRuns, if_pos hline]
  dsimp only
  rw [hlead.1, hlead.2]

theorem groupRuns_eq : groupRuns dent (groups.flatten ++ rest) = groups :: groupRuns dent rest := by
  rw [groupRuns, groupRuns, h.caseRuns_eq, List.map_cons]

theorem sortGroupsAt_eq : sortGroupsAt dent (groups.flatten ++ rest) =
    (sortGroups groups).flatten ++ sortGroupsAt dent rest := by
  have hlead := h.leadingGroups_eq
  obtain ⟨line, below, heq, hline⟩ := h.exists_cons
  rw [heq, leadingGroups_of_isCaseAt hline, Prod.mk.injEq] at hlead
  rw [heq, sortGroupsAt, if_pos hline]
  dsimp only
  rw [hlead.1, hlead.2]

/-- What stands behind a run matters by its first line alone. -/
theorem congr_head {rest' : List String} (hh : rest'.head? = rest.head?) :
    IsCaseRun dent groups rest' :=
  ⟨h.ne_nil, h.isGroup, fun g hg => (h.ends g hg).imp_right (by rw [hh]; exact id),
    by rw [hh]; exact h.stop⟩

end IsCaseRun

/-- Lines are a run if they end with a group that has its closing line. -/
theorem isCaseRun_of_isClosed {g : List String} (hg : ∀ g' ∈ groups ++ [g], IsGroup dent g')
    (hclosed : isClosed dent g = true) (hs : ∀ l ∈ rest.head?, isCaseAt dent l = false) :
    IsCaseRun dent (groups ++ [g]) rest := by
  refine ⟨by simp, hg, fun g' hg' => Or.inl ?_, hs⟩
  rw [List.getLast?_append, List.getLast?_singleton, Option.some_or] at hg'
  rwa [← Option.some.inj hg']

theorem flatten_extend (dent : Nat) (groups : List (List String)) (g behind : List String) :
    (groups ++ [g ++ (splitGroup dent behind).1]).flatten ++ (splitGroup dent behind).2 =
      (groups ++ [g]).flatten ++ behind := by
  simp [splitGroup_append]

/-- A run whose last group is open takes in lines behind it. -/
theorem isCaseRun_extend {g behind : List String} (hg : ∀ g' ∈ groups ++ [g], IsGroup dent g')
    (hopen : isClosed dent g = false)
    (hs : ∀ l ∈ (splitGroup dent behind).2.head?, isCaseAt dent l = false) :
    IsCaseRun dent (groups ++ [g ++ (splitGroup dent behind).1]) (splitGroup dent behind).2 := by
  obtain ⟨hgroups, hlast⟩ := List.forall_mem_append.1 hg
  obtain ⟨line, body, closer, rfl, hline, hbody, hcloser⟩ := hlast g List.mem_cons_self
  rw [isClosed_eq_isSome hline hbody hcloser, Option.isSome_eq_false_iff, Option.isNone_iff_eq_none]
    at hopen
  subst hopen
  have hsplit := splitGroup_inside hbody behind
  obtain ⟨hgroup, hends⟩ := isGroup_splitGroup hline (body ++ behind)
  rw [hsplit] at hgroup hends
  rw [Option.toList_none, List.append_nil, List.cons_append]
  refine ⟨by simp, List.forall_mem_append.2 ⟨hgroups, List.forall_mem_singleton.2 hgroup⟩, ?_, hs⟩
  intro g' hg'
  rw [List.getLast?_append, List.getLast?_singleton, Option.some_or] at hg'
  rwa [← Option.some.inj hg']

/-- Induction over the runs of a body and the lines between them. -/
theorem caseRuns_induction (dent : Nat) {P : List String → Prop} (nil : P [])
    (other : ∀ line below, isCaseAt dent line = false → P below → P (line :: below))
    (run : ∀ groups rest, IsCaseRun dent groups rest → P rest → P (groups.flatten ++ rest))
    (ls : List String) : P ls := by
  induction hn : ls.length using Nat.strongRecOn generalizing ls with
  | ind n ih =>
    subst hn
    cases ls with
    | nil => exact nil
    | cons line below =>
      cases hline : isCaseAt dent line with
      | false => exact other line below hline (ih _ (Nat.lt_succ_self _) below rfl)
      | true =>
        have hrun := isCaseRun_leadingGroups hline below
        rw [← leadingGroups_append dent (line :: below)]
        refine run _ _ hrun (ih _ ?_ _ rfl)
        rw [leadingGroups_of_isCaseAt hline]
        exact Nat.lt_succ_of_le (Nat.le_trans (length_leadingGroups_le dent _)
          (length_splitGroup_le dent below))

end HouseStyle
