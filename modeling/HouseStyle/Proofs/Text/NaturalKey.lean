import HouseStyle.Proofs.Text.Order
import HouseStyle.Proofs.Text.Runs
import Mathlib.Algebra.Group.Nat.Defs
import Mathlib.Data.List.TakeWhile

/-!
# Natural order by numbers

A natural key keeps the digits of a number without the zeros in front of them and compares them by their
count first.  Here a name is cut into its runs of digits and the texts around them, the digits are read as
numbers of any size, and both comparisons are shown to be one.

* `NameRun`, `IsRuns`: the runs of a name, digits read as numbers.
* `name_induction`: a name is a text, or a text, a run of digits and another name.
* `compareDigits_eq`: significant digits compare as the numbers they denote.
* `dropZeros`, `keyParts_dropZeros`: a key forgets the leading zeros of a name and nothing else.
* `compareKeys_naturalKey`: **natural keys compare as the runs of their names.**
-/

namespace HouseStyle.Text

open Std

variable {name front digits rest a b : List Char}

/-! ## Runs of a name -/

/-- A run of a name as it counts in natural order. -/
inductive NameRun where
  | text (chars : List Char)
  /-- The number that a run of digits denotes. -/
  | number (value : Nat)

/-- The number that digits denote. -/
def numberOf (digits : List Char) : Nat := Nat.ofDigitChars 10 digits 0

/-- Two runs, texts by code points and numbers by value; a text comes before a number. -/
def NameRun.compare : NameRun → NameRun → Ordering
  | .text a, .text b => a.compareLex (fun c d => Ord.compare c.toNat d.toNat) b
  | .text _, .number _ => .lt
  | .number _, .text _ => .gt
  | .number m, .number n => Ord.compare m n

/-- Whether some digits are the first ones of a name, all that stand together. -/
structure IsFirstRun (front digits rest : List Char) : Prop where
  front : ∀ c ∈ front, c.isDigit = false
  ne_nil : digits ≠ []
  digits : ∀ c ∈ digits, c.isDigit = true
  rest : ∀ c ∈ rest.head?, c.isDigit = false

/-- The runs of a name: text and number in turn, beginning and ending with a text that may be empty. -/
inductive IsRuns : List Char → List NameRun → Prop
  | last {front : List Char} (h : ∀ c ∈ front, c.isDigit = false) : IsRuns front [.text front]
  | number {front digits rest : List Char} {runs : List NameRun} (h : IsFirstRun front digits rest)
      (hrest : IsRuns rest runs) :
      IsRuns (front ++ (digits ++ rest)) (.text front :: .number (numberOf digits) :: runs)

/-- A name is a text without digits, or begins with a text, a run of digits and another name. -/
@[elab_as_elim]
theorem name_induction {motive : List Char → Prop}
    (last : ∀ front, (∀ c ∈ front, c.isDigit = false) → motive front)
    (number : ∀ front digits rest, IsFirstRun front digits rest → motive rest →
      motive (front ++ (digits ++ rest))) (name : List Char) : motive name := by
  induction hn : name.length using Nat.strongRecOn generalizing name with
  | ind n ih =>
    have hsplit := List.takeWhile_append_dropWhile (p := (! ·.isDigit)) (l := name)
    have hfront : ∀ c ∈ name.takeWhile (! ·.isDigit), c.isDigit = false := fun c hc => by
      simpa using List.all_eq_true.1 List.all_takeWhile c hc
    cases hd : name.dropWhile (! ·.isDigit) with
    | nil =>
      rw [hd, List.append_nil] at hsplit
      rw [← hsplit]
      exact last _ hfront
    | cons d ds =>
      have hhead := List.head?_dropWhile_not (! ·.isDigit) name
      rw [hd, List.head?_cons] at hhead
      have hdigit : d.isDigit = true := by simpa using hhead
      have hrun := List.takeWhile_append_dropWhile (p := Char.isDigit) (l := ds)
      have hname : name = name.takeWhile (! ·.isDigit) ++
          (d :: ds.takeWhile Char.isDigit ++ ds.dropWhile Char.isDigit) := by
        rw [List.cons_append, hrun, ← hd, hsplit]
      have hlen := congrArg List.length hname
      rw [List.length_append, List.length_append, List.length_cons] at hlen
      have hrest := ih (ds.dropWhile Char.isDigit).length (by omega) _ rfl
      rw [hname]
      refine number _ _ _ ⟨hfront, List.cons_ne_nil _ _, ?_, fun c hc => ?_⟩ hrest
      · exact List.forall_mem_cons.2 ⟨hdigit, List.all_eq_true.1 List.all_takeWhile⟩
      · have hnext := List.head?_dropWhile_not Char.isDigit ds
        rw [hc] at hnext
        simpa using hnext

/-! ## Parts of a key -/

theorem keyParts_of_text (h : ∀ c ∈ front, c.isDigit = false) : keyParts front = [.text front] := by
  have hall : ∀ c ∈ front, (! c.isDigit) = true := fun c hc => by rw [h c hc]; rfl
  have hbefore : beforeDigit front = (front, []) := by
    rw [beforeDigit, List.takeWhile_eq_self_iff.2 hall, List.dropWhile_eq_nil_iff.2 hall]
  rw [keyParts]
  split
  · rw [hbefore]
  · next h' =>
    rw [hbefore] at h'
    cases h'

theorem IsFirstRun.keyParts_eq (h : IsFirstRun front digits rest) :
    keyParts (front ++ (digits ++ rest)) =
      .text front :: .number (significant digits) :: keyParts rest := by
  obtain ⟨hfront, hne, hdigits, hrest⟩ := h
  obtain ⟨d, ds, rfl⟩ := List.exists_cons_of_ne_nil hne
  obtain ⟨hd, hds⟩ := List.forall_mem_cons.1 hdigits
  have hall : ∀ c ∈ front, (! c.isDigit) = true := fun c hc => by rw [hfront c hc]; rfl
  have hnext : ∀ c ∈ (d :: (ds ++ rest)).head?, (! c.isDigit) = false := by
    rintro c ⟨⟩
    rw [hd]
    rfl
  have hbefore : beforeDigit (front ++ (d :: (ds ++ rest))) = (front, d :: (ds ++ rest)) := by
    rw [beforeDigit, takeWhile_append_of_boundary hall hnext, dropWhile_append_of_boundary hall hnext]
  rw [List.cons_append, keyParts]
  split
  · next h' =>
    rw [hbefore] at h'
    cases h'
  · next h' =>
    rw [hbefore] at h'
    obtain ⟨rfl, rfl⟩ := List.cons.inj h'
    rw [hbefore, takeWhile_append_of_boundary hds hrest, dropWhile_append_of_boundary hds hrest]

/-! ## Significant digits -/

/-- Whether digits begin with a zero only if they are a zero alone. -/
structure IsSignificant (digits : List Char) : Prop where
  isDigit : ∀ c ∈ digits, c.isDigit = true
  ne_nil : digits ≠ []
  lead : digits.head? = some '0' → digits.length = 1

theorem significant_zero_cons (digits : List Char) :
    significant ('0' :: digits) = significant digits := by
  rw [significant, significant, List.dropWhile_cons_of_pos rfl]

theorem significant_of_head {d : Char} (h : d ≠ '0') (ds : List Char) :
    significant (d :: ds) = d :: ds := by
  rw [significant, List.dropWhile_cons_of_neg (by simpa using h)]

theorem isSignificant_significant (h : ∀ c ∈ digits, c.isDigit = true) :
    IsSignificant (significant digits) := by
  induction digits with
  | nil => exact ⟨by simp [significant], by simp [significant], fun _ => rfl⟩
  | cons d ds ih =>
    by_cases hd : d = '0'
    · rw [hd, significant_zero_cons]
      exact ih (List.forall_mem_cons.1 h).2
    · rw [significant_of_head hd]
      exact ⟨h, List.cons_ne_nil _ _, fun hhead => absurd (Option.some.inj hhead) hd⟩

theorem significant_of_isSignificant (h : IsSignificant digits) : significant digits = digits := by
  cases digits with
  | nil => exact absurd rfl h.ne_nil
  | cons d ds =>
    by_cases hd : d = '0'
    · have hlen := h.lead (congrArg some hd)
      rw [List.length_cons, Nat.add_eq_right, List.length_eq_zero_iff] at hlen
      rw [hd, hlen]
      rfl
    · exact significant_of_head hd ds

/-! ### The numbers they denote -/

theorem numberOf_cons (d : Char) (ds : List Char) :
    numberOf (d :: ds) = 10 ^ ds.length * (d.toNat - '0'.toNat) + numberOf ds := by
  rw [numberOf, Nat.ofDigitChars_cons, Nat.mul_zero, Nat.zero_add, Nat.ofDigitChars_eq_ofDigitChars_zero]
  rfl

theorem numberOf_significant (digits : List Char) : numberOf (significant digits) = numberOf digits := by
  induction digits with
  | nil => rfl
  | cons d ds ih =>
    by_cases hd : d = '0'
    · rw [hd, significant_zero_cons, ih, numberOf_cons, Nat.sub_self, Nat.mul_zero, Nat.zero_add]
    · rw [significant_of_head hd]

theorem digit_bounds {d : Char} (h : d.isDigit = true) : '0'.toNat ≤ d.toNat ∧ d.toNat ≤ '0'.toNat + 9 :=
  Char.isDigit_iff_toNat.1 h

theorem numberOf_lt (h : ∀ c ∈ digits, c.isDigit = true) : numberOf digits < 10 ^ digits.length := by
  induction digits with
  | nil => exact Nat.one_pos
  | cons d ds ih =>
    obtain ⟨hd, hds⟩ := List.forall_mem_cons.1 h
    have hbounds := digit_bounds hd
    have hle : 10 ^ ds.length * (d.toNat - '0'.toNat) ≤ 10 ^ ds.length * 9 :=
      Nat.mul_le_mul_left _ (by omega)
    have hmore := ih hds
    rw [numberOf_cons, List.length_cons, Nat.pow_succ]
    omega

theorem le_numberOf (h : IsSignificant digits) (hlen : 1 < digits.length) :
    10 ^ (digits.length - 1) ≤ numberOf digits := by
  cases digits with
  | nil => exact absurd rfl h.ne_nil
  | cons d ds =>
    have hd := digit_bounds (h.isDigit d List.mem_cons_self)
    have hne : d.toNat ≠ '0'.toNat := fun he => by
      have hlead := h.lead (congrArg some (Char.toNat_inj.1 he))
      omega
    rw [numberOf_cons, List.length_cons, Nat.add_sub_cancel]
    calc 10 ^ ds.length = 10 ^ ds.length * 1 := (Nat.mul_one _).symm
      _ ≤ 10 ^ ds.length * (d.toNat - '0'.toNat) := Nat.mul_le_mul_left _ (by omega)
      _ ≤ 10 ^ ds.length * (d.toNat - '0'.toNat) + numberOf ds := Nat.le_add_right _ _

theorem numberOf_lt_of_length_lt (ha : IsSignificant a) (hb : IsSignificant b)
    (h : a.length < b.length) : numberOf a < numberOf b := by
  have hpos := List.length_pos_of_ne_nil ha.ne_nil
  calc numberOf a < 10 ^ a.length := numberOf_lt ha.isDigit
    _ ≤ 10 ^ (b.length - 1) := Nat.pow_le_pow_right (by decide) (by omega)
    _ ≤ numberOf b := le_numberOf hb (by omega)

theorem mul_add_lt {p x m n : Nat} (hx : x < p) (h : m < n) (y : Nat) : p * m + x < p * n + y := by
  calc p * m + x < p * m + p := Nat.add_lt_add_left hx _
    _ = p * (m + 1) := (Nat.mul_succ p m).symm
    _ ≤ p * n := Nat.mul_le_mul_left p h
    _ ≤ p * n + y := Nat.le_add_right _ _

/-- Numbers compare by what counts most first. -/
theorem compare_mul_add {p x y : Nat} (hx : x < p) (hy : y < p) (m n : Nat) :
    compare (p * m + x) (p * n + y) = (compare m n).then (compare x y) := by
  rcases Nat.lt_trichotomy m n with h | rfl | h
  · rw [Nat.compare_eq_lt.2 (mul_add_lt hx h y), Nat.compare_eq_lt.2 h]
    rfl
  · rw [Nat.compare_eq_eq.2 rfl, Ordering.then, Nat.compare_eq_ite_lt, Nat.compare_eq_ite_lt]
    simp only [Nat.add_lt_add_iff_left]
  · rw [Nat.compare_eq_gt.2 (mul_add_lt hy h x), Nat.compare_eq_gt.2 h]
    rfl

theorem compare_char (c d : Char) : compare c d = compare c.toNat d.toNat := by
  have hchar : compare c d = if c.toNat < d.toNat then .lt else if c = d then .eq else .gt := rfl
  rw [hchar, Nat.compare_eq_ite_lt]
  rcases Nat.lt_trichotomy c.toNat d.toNat with h | h | h
  · rw [if_pos h, if_pos h]
  · obtain rfl := Char.toNat_inj.1 h
    simp
  · have hne : c ≠ d := fun he => by
      rw [he] at h
      exact Nat.lt_irrefl _ h
    rw [if_neg (Nat.lt_asymm h), if_neg hne, if_neg (Nat.lt_asymm h), if_pos h]

/-- Runs with equally many digits compare digit by digit as the numbers they denote. -/
theorem compareLex_digits (ha : ∀ c ∈ a, c.isDigit = true) (hb : ∀ c ∈ b, c.isDigit = true)
    (hlen : a.length = b.length) :
    a.compareLex compare b = compare (numberOf a) (numberOf b) := by
  induction a generalizing b with
  | nil =>
    cases b with
    | nil => rfl
    | cons e es => cases hlen
  | cons d ds ih =>
    cases b with
    | nil => cases hlen
    | cons e es =>
      obtain ⟨hd, hds⟩ := List.forall_mem_cons.1 ha
      obtain ⟨he, hes⟩ := List.forall_mem_cons.1 hb
      have hlength : ds.length = es.length := Nat.succ.inj hlen
      have hdbounds := digit_bounds hd
      have hebounds := digit_bounds he
      have hdigit : compare d e = compare (d.toNat - '0'.toNat) (e.toNat - '0'.toNat) := by
        have hlt : d.toNat < e.toNat ↔ d.toNat - '0'.toNat < e.toNat - '0'.toNat := by omega
        have hgt : e.toNat < d.toNat ↔ e.toNat - '0'.toNat < d.toNat - '0'.toNat := by omega
        rw [compare_char, Nat.compare_eq_ite_lt, Nat.compare_eq_ite_lt,
          if_congr hlt rfl (if_congr hgt rfl rfl)]
      rw [List.compareLex_cons_cons, ih hds hes hlength, hdigit, numberOf_cons, numberOf_cons,
        ← hlength, compare_mul_add (numberOf_lt hds) (hlength ▸ numberOf_lt hes)]

/-- **Significant digits compare as the numbers they denote.** -/
theorem compareDigits_eq (ha : IsSignificant a) (hb : IsSignificant b) :
    compareDigits a b = compare (numberOf a) (numberOf b) := by
  rw [compareDigits]
  rcases Nat.lt_trichotomy a.length b.length with h | h | h
  · rw [Nat.compare_eq_lt.2 h, Nat.compare_eq_lt.2 (numberOf_lt_of_length_lt ha hb h)]
    rfl
  · rw [Nat.compare_eq_eq.2 h]
    exact compareLex_digits ha.isDigit hb.isDigit h
  · rw [Nat.compare_eq_gt.2 h, Nat.compare_eq_gt.2 (numberOf_lt_of_length_lt hb ha h)]
    rfl

/-! ## Keys and runs -/

/-- The run that a part of a key stands for. -/
def KeyPart.run : KeyPart → NameRun
  | .text chars => .text chars
  | .number digits => .number (numberOf digits)

/-- Whether a part of a key is a number. -/
def KeyPart.isNumber : KeyPart → Bool
  | .text _ => false
  | .number _ => true

/-- Whether the digits of a part, if it is a number, are significant. -/
def KeyPart.IsReduced (part : KeyPart) : Prop := ∀ digits, part = .number digits → IsSignificant digits

theorem isReduced_keyParts (name : List Char) : ∀ part ∈ keyParts name, part.IsReduced := by
  induction name using name_induction with
  | last front h =>
    rw [keyParts_of_text h]
    exact List.forall_mem_singleton.2 nofun
  | number front digits rest h ih =>
    rw [h.keyParts_eq]
    refine List.forall_mem_cons.2 ⟨nofun, List.forall_mem_cons.2 ⟨?_, ih⟩⟩
    rintro _ ⟨⟩
    exact isSignificant_significant h.digits

/-- The parts of a key are the runs of its name, and a name has no other runs. -/
theorem isRuns_iff {runs : List NameRun} :
    IsRuns name runs ↔ runs = (keyParts name).map KeyPart.run := by
  constructor
  · intro h
    induction h with
    | last h => rw [keyParts_of_text h]; rfl
    | number h _ ih =>
      rw [h.keyParts_eq, ih, List.map_cons, List.map_cons, KeyPart.run, KeyPart.run,
        numberOf_significant]
  · rintro rfl
    induction name using name_induction with
    | last front h => rw [keyParts_of_text h]; exact .last h
    | number front digits rest h ih =>
      rw [h.keyParts_eq, List.map_cons, List.map_cons, KeyPart.run, KeyPart.run,
        numberOf_significant]
      exact .number h ih

theorem compareParts_eq {p q : KeyPart} (hp : p.IsReduced) (hq : q.IsReduced) :
    compareParts p q = p.run.compare q.run := by
  cases p with
  | text a =>
    cases q with
    | text b =>
      have hchars : (compare : Char → Char → Ordering) = fun c d => Ord.compare c.toNat d.toNat :=
        funext fun c => funext fun d => compare_char c d
      rw [compareParts, hchars]
      rfl
    | number b => rfl
  | number a =>
    cases q with
    | text b => rfl
    | number b => exact compareDigits_eq (hp a rfl) (hq b rfl)

theorem compareKeys_eq {k l : List KeyPart} (hk : ∀ p ∈ k, p.IsReduced) (hl : ∀ p ∈ l, p.IsReduced) :
    compareKeys k l = (k.map KeyPart.run).compareLex NameRun.compare (l.map KeyPart.run) := by
  rw [compareKeys]
  induction k generalizing l with
  | nil => cases l <;> rfl
  | cons p k ih =>
    cases l with
    | nil => rfl
    | cons q l =>
      obtain ⟨hp, hk⟩ := List.forall_mem_cons.1 hk
      obtain ⟨hq, hl⟩ := List.forall_mem_cons.1 hl
      rw [List.compareLex_cons_cons, List.map_cons, List.map_cons, List.compareLex_cons_cons,
        compareParts_eq hp hq, ih hk hl]

/-- Two keys have parts of one kind at every place. -/
theorem isNumber_zip_keyParts (a b : List Char) :
    ∀ pair ∈ (keyParts a).zip (keyParts b), pair.1.isNumber = pair.2.isNumber := by
  induction a using name_induction generalizing b with
  | last front h =>
    rw [keyParts_of_text h]
    induction b using name_induction with
    | last front' h' => rw [keyParts_of_text h']; exact List.forall_mem_singleton.2 rfl
    | number front' digits' rest' h' _ => rw [h'.keyParts_eq]; exact List.forall_mem_singleton.2 rfl
  | number front digits rest h ih =>
    rw [h.keyParts_eq]
    induction b using name_induction with
    | last front' h' => rw [keyParts_of_text h']; exact List.forall_mem_singleton.2 rfl
    | number front' digits' rest' h' _ =>
      rw [h'.keyParts_eq]
      exact List.forall_mem_cons.2 ⟨rfl, List.forall_mem_cons.2 ⟨rfl, ih rest'⟩⟩

/-! ## Leading zeros -/

/-- A name without the zeros in front of other digits of their number; `inside` says whether a digit that
counts stands in front. -/
def dropZeros (inside : Bool) : List Char → List Char
  | [] => []
  | c :: cs =>
    if !inside && c == '0' && cs.head?.any Char.isDigit then dropZeros false cs
    else c :: dropZeros c.isDigit cs

theorem beq_zero_of_isDigit {c : Char} (h : c.isDigit = false) : (c == '0') = false := by
  rw [beq_eq_false_iff_ne]
  rintro rfl
  cases h

theorem dropZeros_of_head (h : ∀ c ∈ rest.head?, c.isDigit = false) (inside : Bool) :
    dropZeros inside rest = dropZeros false rest := by
  cases rest with
  | nil => rfl
  | cons c cs =>
    simp [dropZeros, beq_zero_of_isDigit (h c rfl)]

theorem dropZeros_text (h : ∀ c ∈ front, c.isDigit = false) (rest : List Char) :
    dropZeros false (front ++ rest) = front ++ dropZeros false rest := by
  induction front with
  | nil => rfl
  | cons c front ih =>
    obtain ⟨hc, hfront⟩ := List.forall_mem_cons.1 h
    rw [List.cons_append, dropZeros, beq_zero_of_isDigit hc, Bool.and_false, Bool.false_and,
      if_neg Bool.false_ne_true, hc, ih hfront]
    rfl

theorem dropZeros_of_text (h : ∀ c ∈ front, c.isDigit = false) : dropZeros false front = front := by
  have htext := dropZeros_text h []
  rwa [List.append_nil, dropZeros, List.append_nil] at htext

theorem dropZeros_inside (h : ∀ c ∈ digits, c.isDigit = true) (rest : List Char) :
    dropZeros true (digits ++ rest) = digits ++ dropZeros true rest := by
  induction digits with
  | nil => rfl
  | cons d ds ih =>
    obtain ⟨hd, hds⟩ := List.forall_mem_cons.1 h
    rw [List.cons_append, dropZeros, Bool.not_true, Bool.false_and, Bool.false_and,
      if_neg Bool.false_ne_true, hd, ih hds]
    rfl

theorem dropZeros_digits (hne : digits ≠ []) (h : ∀ c ∈ digits, c.isDigit = true)
    (hrest : ∀ c ∈ rest.head?, c.isDigit = false) :
    dropZeros false (digits ++ rest) = significant digits ++ dropZeros false rest := by
  induction digits with
  | nil => exact absurd rfl hne
  | cons d ds ih =>
    obtain ⟨hd, hds⟩ := List.forall_mem_cons.1 h
    have hkept : d :: dropZeros true (ds ++ rest) = d :: (ds ++ dropZeros false rest) := by
      rw [dropZeros_inside hds, dropZeros_of_head hrest]
    rw [List.cons_append, dropZeros, hd, hkept]
    by_cases hzero : d = '0'
    · subst hzero
      cases ds with
      | nil =>
        have hlast : rest.head?.any Char.isDigit = false := by
          rw [Option.any_eq_false]
          simpa using hrest
        simp [hlast, significant]
      | cons e es =>
        have hnext : e.isDigit = true := hds e List.mem_cons_self
        rw [significant_zero_cons, ← ih (List.cons_ne_nil _ _) hds]
        simp [hnext]
    · rw [significant_of_head hzero]
      simp [hzero]

theorem head?_dropZeros (h : ∀ c ∈ rest.head?, c.isDigit = false) :
    (dropZeros false rest).head? = rest.head? := by
  cases rest with
  | nil => rfl
  | cons c cs =>
    simp [dropZeros, beq_zero_of_isDigit (h c rfl)]

theorem IsFirstRun.dropZeros_eq (h : IsFirstRun front digits rest) :
    dropZeros false (front ++ (digits ++ rest)) =
      front ++ (significant digits ++ dropZeros false rest) := by
  rw [dropZeros_text h.front, dropZeros_digits h.ne_nil h.digits h.rest]

theorem IsFirstRun.dropZeros (h : IsFirstRun front digits rest) :
    IsFirstRun front (significant digits) (dropZeros false rest) := by
  have hs := isSignificant_significant h.digits
  refine ⟨h.front, hs.ne_nil, hs.isDigit, ?_⟩
  rw [head?_dropZeros h.rest]
  exact h.rest

/-- A key forgets the leading zeros of a name. -/
theorem keyParts_dropZeros (name : List Char) : keyParts (dropZeros false name) = keyParts name := by
  induction name using name_induction with
  | last front h =>
    rw [dropZeros_of_text h]
  | number front digits rest h ih =>
    rw [h.dropZeros_eq, h.dropZeros.keyParts_eq, h.keyParts_eq, ih,
      significant_of_isSignificant (isSignificant_significant h.digits)]

/-- The characters of a part. -/
def KeyPart.chars : KeyPart → List Char
  | .text chars => chars
  | .number digits => digits

/-- A key keeps all of a name but its leading zeros. -/
theorem flatMap_chars_keyParts (name : List Char) :
    (keyParts name).flatMap KeyPart.chars = dropZeros false name := by
  induction name using name_induction with
  | last front h =>
    rw [dropZeros_of_text h, keyParts_of_text h, List.flatMap_singleton]
    rfl
  | number front digits rest h ih =>
    rw [h.dropZeros_eq, h.keyParts_eq, List.flatMap_cons, List.flatMap_cons, ih]
    rfl

/-- A name without the leading zeros of its numbers; a zero that is a number of its own stays. -/
def withoutLeadingZeros (name : String) : List Char := dropZeros false name.toList

theorem naturalKey_eq_iff {a b : String} :
    naturalKey a = naturalKey b ↔ withoutLeadingZeros a = withoutLeadingZeros b := by
  rw [naturalKey, naturalKey, withoutLeadingZeros, withoutLeadingZeros]
  constructor
  · intro h
    rw [← flatMap_chars_keyParts, ← flatMap_chars_keyParts, h]
  · intro h
    rw [← keyParts_dropZeros, ← keyParts_dropZeros b.toList, h]

/-! ## Natural order -/

/-- **Natural keys compare as the runs of their names.**  A name has one list of runs, and the keys of two
names compare as these do, run by run, digits by the numbers they denote.  The keys have parts of one kind at
every place, the comparison orders all keys and calls no two of them equal, and names have one key if they
are the same without their leading zeros. -/
theorem compareKeys_naturalKey (a b : String) :
    (∃ as bs, (∀ runs, IsRuns a.toList runs ↔ runs = as) ∧ (∀ runs, IsRuns b.toList runs ↔ runs = bs) ∧
      compareKeys (naturalKey a) (naturalKey b) = as.compareLex NameRun.compare bs) ∧
    (∀ pair ∈ (naturalKey a).zip (naturalKey b), pair.1.isNumber = pair.2.isNumber) ∧
    (TransCmp compareKeys ∧ ∀ k l, compareKeys k l = .eq ↔ k = l) ∧
    (naturalKey a = naturalKey b ↔ withoutLeadingZeros a = withoutLeadingZeros b) := by
  refine ⟨⟨_, _, fun _ => isRuns_iff, fun _ => isRuns_iff, ?_⟩, isNumber_zip_keyParts _ _,
    ⟨inferInstance, fun _ _ => LawfulEqCmp.compare_eq_iff_eq⟩, naturalKey_eq_iff⟩
  exact compareKeys_eq (isReduced_keyParts _) (isReduced_keyParts _)

/-- Numbers with more digits than a word holds, and zeros in front of a number. -/
theorem compareKeys_naturalKey_long :
    IsRuns "n99999999999999999999999".toList [.text ['n'], .number 99999999999999999999999, .text []] ∧
      IsRuns "n00100000000000000000000000".toList
        [.text ['n'], .number 100000000000000000000000, .text []] ∧
      compareKeys (naturalKey "n99999999999999999999999") (naturalKey "n00100000000000000000000000") =
        .lt ∧
      withoutLeadingZeros "v007.00" = withoutLeadingZeros "v7.0" ∧
      naturalKey "v007.00" = naturalKey "v7.0" := by
  have ha : IsRuns "n99999999999999999999999".toList
      [.text ['n'], .number 99999999999999999999999, .text []] :=
    @IsRuns.number ['n'] "99999999999999999999999".toList [] _
      ⟨List.forall_mem_singleton.2 rfl, List.cons_ne_nil _ _, List.all_eq_true.1 rfl, nofun⟩ (.last nofun)
  have hb : IsRuns "n00100000000000000000000000".toList
      [.text ['n'], .number 100000000000000000000000, .text []] :=
    @IsRuns.number ['n'] "00100000000000000000000000".toList [] _
      ⟨List.forall_mem_singleton.2 rfl, List.cons_ne_nil _ _, List.all_eq_true.1 rfl, nofun⟩ (.last nofun)
  obtain ⟨as, bs, has, hbs, hcompare⟩ :=
    (compareKeys_naturalKey "n99999999999999999999999" "n00100000000000000000000000").1
  rw [← (has _).1 ha, ← (hbs _).1 hb] at hcompare
  have hzeros : withoutLeadingZeros "v007.00" = withoutLeadingZeros "v7.0" := by decide
  exact ⟨ha, hb, hcompare, hzeros, (compareKeys_naturalKey _ _).2.2.2.2 hzeros⟩

end HouseStyle.Text
