/-!
# Edit scripts

How one sequence of lines becomes another: stretches that are kept, deleted or inserted. The script
is found by cutting the problem in two at a point on a shortest path, which a search from both ends
finds at their first meeting, and solving both halves.

* `Op`: one stretch of a script.
* `middle?`: the point at which the searches from both ends meet.
* `script`: the script between two stretches of lines.
-/

namespace HouseStyle.Diff

/-- What happens to a stretch of lines. -/
inductive Action where
  | keep
  | delete
  | insert
  | replace
  deriving DecidableEq, Repr

/-- An action on `oldLength` lines from `oldStart` of the old text, which gives `newLength` lines
from `newStart` of the new text. -/
structure Op where
  action : Action
  oldStart : Nat
  oldLength : Nat
  newStart : Nat
  newLength : Nat
  deriving DecidableEq, Repr

/-- A stretch of lines that are in both texts. -/
def Op.keep (oldStart newStart length : Nat) : Op := ⟨.keep, oldStart, length, newStart, length⟩

/-! ## Common lines -/

/-- How many lines agree from `i` and `j` on, at most `limit`. -/
def agreeFrom (a b : Array String) (i j : Nat) : (limit : Nat) → Nat
  | 0 => 0
  | limit + 1 => if a[i]? == b[j]? then agreeFrom a b (i + 1) (j + 1) limit + 1 else 0

/-- How many lines agree up to `i` and `j`, these excluded, at most `limit`. -/
def agreeUpTo (a b : Array String) (i j : Nat) : (limit : Nat) → Nat
  | 0 => 0
  | limit + 1 => if a[i - 1]? == b[j - 1]? then agreeUpTo a b (i - 1) (j - 1) limit + 1 else 0

theorem agreeFrom_le (a b : Array String) (i j limit : Nat) : agreeFrom a b i j limit ≤ limit := by
  induction limit generalizing i j with
  | zero => exact Nat.le_refl _
  | succ limit ih =>
    unfold agreeFrom
    split
    · exact Nat.succ_le_succ (ih _ _)
    · exact Nat.zero_le _

theorem agreeUpTo_le (a b : Array String) (i j limit : Nat) : agreeUpTo a b i j limit ≤ limit := by
  induction limit generalizing i j with
  | zero => exact Nat.le_refl _
  | succ limit ih =>
    unfold agreeUpTo
    split
    · exact Nat.succ_le_succ (ih _ _)
    · exact Nat.zero_le _

/-! ## Meeting in the middle -/

/-- The lines `oldStart`, …, `oldStop - 1` of the old text and `newStart`, …, `newStop - 1` of the
new one. -/
structure Box where
  oldStart : Nat
  oldStop : Nat
  newStart : Nat
  newStop : Nat

/-- The number of old lines in the box. -/
def Box.oldLength (box : Box) : Nat := box.oldStop - box.oldStart

/-- The number of new lines in the box. -/
def Box.newLength (box : Box) : Nat := box.newStop - box.newStart

/-- How far a search came after `d` changes: the number of old lines passed on each of the
diagonals `-d`, `-d + 2`, …, `d`. The diagonal is the number of old lines passed minus the number of
new lines passed. -/
abbrev Frontier := Array Nat

/-- The `i`-th diagonal after `d` changes. -/
def diagonal (d i : Nat) : Int := 2 * (i : Int) - (d : Int)

/-- The number of new lines passed. -/
def newPassed (d i passed : Nat) : Nat := ((passed : Int) - diagonal d i).toNat

/-- What was reached on a diagonal after `d` changes, if the diagonal is among them. -/
def Frontier.on? (frontier : Frontier) (d : Nat) (k : Int) : Option Nat :=
  if k.natAbs ≤ d then frontier[((k + d) / 2).toNat]? else none

/-- Where the `d`-th change leads on the `i`-th diagonal, from the frontier before it: one old line
further on the diagonal below, or along a new line on the diagonal above, whichever is farther. -/
def changeTo (before : Frontier) (d i : Nat) : Nat :=
  if d = 0 then 0
  else if i = 0 then before.getD 0 0
  else if i ≠ d ∧ before.getD (i - 1) 0 < before.getD i 0 then before.getD i 0
  else before.getD (i - 1) 0 + 1

/-- The frontier after the `d`-th change, where `run` follows the lines that agree. -/
def advance (before : Frontier) (d : Nat) (run : (i passed : Nat) → Nat) : Frontier :=
  (Array.range (d + 1)).map fun i => run i (changeTo before d i)

/-- Follows the lines that agree forward from the start of a box. -/
def runForward (a b : Array String) (box : Box) (d i passed : Nat) : Nat :=
  let passedNew := newPassed d i passed
  passed + agreeFrom a b (box.oldStart + passed) (box.newStart + passedNew)
    (min (box.oldLength - passed) (box.newLength - passedNew))

/-- Follows the lines that agree backward from the end of a box. -/
def runBackward (a b : Array String) (box : Box) (d i passed : Nat) : Nat :=
  let passedNew := newPassed d i passed
  passed + agreeUpTo a b (box.oldStop - passed) (box.newStop - passedNew)
    (min (box.oldLength - passed) (box.newLength - passedNew))

/-- The highest of the first `d + 1` diagonals on which a frontier meets the opposite one, which
stands after `d'` changes. -/
def meeting? (box : Box) (frontier : Frontier) (d : Nat) (opposite : Frontier) (d' : Nat) :
    Option Nat :=
  let delta : Int := (box.oldLength : Int) - (box.newLength : Int)
  (List.range (d + 1)).reverse.find? fun i =>
    match opposite.on? d' (delta - diagonal d i) with
    | some passed => box.oldLength ≤ frontier.getD i 0 + passed
    | none => false

/-- The point where the searches meet within the given number of rounds, which go on from the
frontiers after `d - 1` changes. Each round makes one change from the start of the box, then one
from its end; on boxes of odd and even size the meeting shows in the former and the latter. -/
def search (a b : Array String) (box : Box) : (rounds d : Nat) → (forward backward : Frontier) →
    Option (Nat × Nat)
  | 0, _, _, _ => none
  | rounds + 1, d, forward, backward =>
    let odd := (box.oldLength + box.newLength) % 2 == 1
    let forward' := advance forward d (runForward a b box d)
    let backward' := advance backward d (runBackward a b box d)
    if odd then
      match if d = 0 then none else meeting? box forward' d backward (d - 1) with
      | some i =>
        let passed := changeTo forward d i
        some (box.oldStart + passed, box.newStart + newPassed d i passed)
      | none => search a b box rounds (d + 1) forward' backward'
    else
      match meeting? box backward' d forward' d with
      | some i =>
        let passed := backward'.getD i 0
        some (box.oldStop - passed, box.newStop - newPassed d i passed)
      | none => search a b box rounds (d + 1) forward' backward'

/-- A point on a shortest path through a box. -/
def middle? (a b : Array String) (box : Box) : Option (Nat × Nat) :=
  search a b box ((box.oldLength + box.newLength + 1) / 2 + 1) 0 #[] #[]

/-! ## Scripts -/

/-- Whether a point cuts a box into two smaller ones. -/
def Box.cutBy (box : Box) (x y : Nat) : Prop :=
  box.oldStart ≤ x ∧ x ≤ box.oldStop ∧ box.newStart ≤ y ∧ y ≤ box.newStop ∧
    box.oldStart + box.newStart < x + y ∧ x + y < box.oldStop + box.newStop

instance (box : Box) (x y : Nat) : Decidable (box.cutBy x y) :=
  inferInstanceAs (Decidable (_ ∧ _))

/-- Deletes the old lines of a box and inserts the new ones, leaving out what is empty. -/
def Box.overwrite (box : Box) : List Op :=
  (if box.oldStart < box.oldStop then
    [⟨.delete, box.oldStart, box.oldLength, box.newStart, 0⟩] else []) ++
  (if box.newStart < box.newStop then
    [⟨.insert, box.oldStart, 0, box.newStart, box.newLength⟩] else [])

/-- Keeps some lines, unless there are none. -/
def keepAll (oldStart newStart length : Nat) : List Op :=
  if length = 0 then [] else [.keep oldStart newStart length]

/-- The script for a box: its common first and last lines are kept, and what is left between them
is cut in two. -/
def script (a b : Array String) (box : Box) : List Op :=
  let first := agreeFrom a b box.oldStart box.newStart (min box.oldLength box.newLength)
  let oldStart := box.oldStart + first
  let newStart := box.newStart + first
  let last := agreeUpTo a b box.oldStop box.newStop
    (min (box.oldStop - oldStart) (box.newStop - newStart))
  let inner : Box := ⟨oldStart, box.oldStop - last, newStart, box.newStop - last⟩
  let between :=
    if inner.oldStart < inner.oldStop ∧ inner.newStart < inner.newStop then
      match middle? a b inner with
      | some (x, y) =>
        if _h : inner.cutBy x y then
          script a b ⟨inner.oldStart, x, inner.newStart, y⟩ ++
            script a b ⟨x, inner.oldStop, y, inner.newStop⟩
        else inner.overwrite
      | none => inner.overwrite
    else inner.overwrite
  keepAll box.oldStart box.newStart first ++ between ++ keepAll inner.oldStop inner.newStop last
termination_by (box.oldStop - box.oldStart) + (box.newStop - box.newStart)
decreasing_by all_goals simp only [Box.cutBy, inner, oldStart, newStart] at *; omega

end HouseStyle.Diff
