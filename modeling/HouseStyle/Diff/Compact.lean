import HouseStyle.Diff.Script

/-!
# Compact scripts

A stretch of deleted or inserted lines can be moved over lines that look the same without changing
what the script does. Every such stretch is moved up as far as possible and then down as far as
possible, joining stretches of the same kind that meet, so that changes are few and stand low.

* `shiftUp`, `shiftDown`: one stretch moved over its neighbours.
* `compact`: a script with all stretches moved, deletions first.
-/

namespace HouseStyle.Diff

/-- A script around one of its stretches; what stands before it begins with the nearest. -/
structure Cursor where
  before : List Op
  current : Op
  after : List Op

/-- The lengths of some stretches, each counted one too long. -/
def weight : List Op → Nat
  | [] => 0
  | op :: ops => op.oldLength + 1 + weight ops

/-- A stretch moved up by `n` lines. -/
def Op.up (op : Op) (n : Nat) : Op :=
  { op with oldStart := op.oldStart - n, newStart := op.newStart - n }

/-- A stretch moved down by `n` lines. -/
def Op.down (op : Op) (n : Nat) : Op :=
  { op with oldStart := op.oldStart + n, newStart := op.newStart + n }

/-- A stretch with `n` more lines at its end. -/
def Op.grow (op : Op) (n : Nat) : Op :=
  { op with oldLength := op.oldLength + n, newLength := op.newLength + n }

/-- A stretch with `n` fewer lines at its end. -/
def Op.shrink (op : Op) (n : Nat) : Op :=
  { op with oldLength := op.oldLength - n, newLength := op.newLength - n }

/-- A stretch with the length of another one added. -/
def Op.join (op other : Op) : Op :=
  { op with
    oldLength := op.oldLength + other.oldLength, newLength := op.newLength + other.newLength }

/-- Kept lines put in front of the stretches below. -/
def keepBelow (kept : Op) : List Op → List Op
  | [] => [kept]
  | next :: after =>
    if next.action = .keep then (next.up kept.oldLength).grow kept.oldLength :: after
    else kept :: next :: after

/-- Kept lines put behind the stretches above, of which the nearest comes first. -/
def keepAbove (kept : Op) : List Op → List Op
  | [] => [kept]
  | previous :: before =>
    if previous.action = .keep then previous.grow kept.oldLength :: before
    else kept :: previous :: before

/-- The current stretch moved up as far as possible. -/
def shiftUp (a b : Array String) (before : List Op) (op : Op) (after : List Op) : Cursor :=
  match before with
  | [] => ⟨[], op, after⟩
  | previous :: rest =>
    if previous.action = .keep then
      let n := agreeUpTo a b (previous.oldStart + previous.oldLength) (op.newStart + op.newLength)
        (min previous.oldLength op.newLength)
      if _h : 0 < n then
        let kept := Op.keep (previous.oldStart + previous.oldLength - n)
          (op.newStart + op.newLength - n) n
        let before := if previous.oldLength = n then rest else previous.shrink n :: rest
        shiftUp a b before (op.up n) (keepBelow kept after)
      else if previous.oldLength = 0 then shiftUp a b rest op after
      else ⟨previous :: rest, op, after⟩
    else if previous.action = op.action then shiftUp a b rest (previous.join op) after
    else shiftUp a b rest op (previous :: after)
termination_by weight before
decreasing_by
  · have hn := agreeUpTo_le a b (previous.oldStart + previous.oldLength)
      (op.newStart + op.newLength) (min previous.oldLength op.newLength)
    split
    · simp only [weight]; omega
    · simp only [weight, Op.shrink]; omega
  all_goals simp only [weight]; omega

/-- The current stretch moved down as far as possible. -/
def shiftDown (a b : Array String) (before : List Op) (op : Op) (after : List Op) : Cursor :=
  match after with
  | [] => ⟨before, op, []⟩
  | next :: rest =>
    if next.action = .keep then
      let n := agreeFrom a b next.oldStart op.newStart (min next.oldLength op.newLength)
      if _h : 0 < n then
        let kept := Op.keep next.oldStart op.newStart n
        let after := if next.oldLength = n then rest else (next.down n).shrink n :: rest
        shiftDown a b (keepAbove kept before) (op.down n) after
      else if next.oldLength = 0 then shiftDown a b before op rest
      else ⟨before, op, next :: rest⟩
    else if next.action = op.action then shiftDown a b before (op.join next) rest
    else shiftDown a b (next :: before) op rest
termination_by weight after
decreasing_by
  · have hn := agreeFrom_le a b next.oldStart op.newStart (min next.oldLength op.newLength)
    split
    · simp only [weight]; omega
    · simp only [weight, Op.shrink, Op.down]; omega
  all_goals simp only [weight]; omega

/-- The script with the stretches of one kind among `ops` moved, at most `limit` times. -/
def sweep (a b : Array String) (action : Action) : (limit : Nat) → (before ops : List Op) →
    List Op
  | 0, before, ops => before.reverse ++ ops
  | _ + 1, before, [] => before.reverse
  | limit + 1, before, op :: after =>
    if op.action = action then
      let risen := shiftUp a b before op after
      let settled := shiftDown a b risen.before risen.current risen.after
      sweep a b action limit (settled.current :: settled.before) settled.after
    else sweep a b action limit (op :: before) after

/-- A script with every deletion, then every insertion, moved up and then down. -/
def compact (a b : Array String) (ops : List Op) : List Op :=
  let size := a.size + b.size + ops.length + 1
  let limit := size * size
  sweep a b .insert limit [] (sweep a b .delete limit [] ops)

end HouseStyle.Diff
