import HouseStyle.Diff.Compact

/-!
# Hunks

A diff shows the changes of a script with a few kept lines around each. Changes whose surroundings
meet share a hunk.

* `coalesce`: a script in which kept stretches and changes alternate.
* `hunks`: the hunks of such a script.
-/

namespace HouseStyle.Diff

/-- The change that a deletion and an insertion make together, if either is there. -/
def mergeChange : (deletion insertion : Option Op) → List Op
  | some d, some i => [⟨.replace, d.oldStart, d.oldLength, i.newStart, i.newLength⟩]
  | some d, none => [d]
  | none, some i => [i]
  | none, none => []

/-- A stretch with another one of its kind behind it. -/
def joinOnto (pending : Option Op) (op : Op) : Option Op :=
  match pending with
  | some first => some (first.join op)
  | none => some op

/-- The script in which neighbouring kept stretches are one and neighbouring changes are one, going
on from stretches that are not closed yet. -/
def coalesceFrom (kept deletion insertion : Option Op) : List Op → List Op
  | [] => kept.toList ++ mergeChange deletion insertion
  | op :: ops =>
    match op.action with
    | .keep => mergeChange deletion insertion ++ coalesceFrom (joinOnto kept op) none none ops
    | .delete => kept.toList ++ coalesceFrom none (joinOnto deletion op) insertion ops
    | .insert | .replace => kept.toList ++ coalesceFrom none deletion (joinOnto insertion op) ops

/-- The script in which neighbouring kept stretches are one and neighbouring changes are one. -/
def coalesce (ops : List Op) : List Op := coalesceFrom none none none ops

/-- A kept stretch without all but its last `radius` lines. -/
def Op.lastLines (op : Op) (radius : Nat) : Op :=
  let dropped := op.oldLength - radius
  (op.down dropped).shrink dropped

/-- A kept stretch without all but its first `radius` lines. -/
def Op.firstLines (op : Op) (radius : Nat) : Op := op.shrink (op.oldLength - radius)

/-- The script with its first stretch, if kept, cut to what surrounds the change behind it. -/
def cutStart (radius : Nat) : List Op → List Op
  | op :: ops => (if op.action = .keep then op.lastLines radius else op) :: ops
  | [] => []

/-- The script with its last stretch, if kept, cut to what surrounds the change in front of it. -/
def cutStop (radius : Nat) : List Op → List Op
  | [] => []
  | [op] => [if op.action = .keep then op.firstLines radius else op]
  | op :: ops => op :: cutStop radius ops

/-- The script cut in the middle of each long kept stretch; `hunk` is what the current part holds
so far, in reverse. -/
def cutLong (radius : Nat) (hunk : List Op) : List Op → List (List Op)
  | [] => [hunk.reverse]
  | op :: ops =>
    if op.action = .keep && 2 * radius < op.oldLength then
      (op.firstLines radius :: hunk).reverse :: cutLong radius [op.lastLines radius] ops
    else cutLong radius (op :: hunk) ops

/-- Whether a part of a script changes something. -/
def changes (ops : List Op) : Bool := ops.any fun op => op.action != .keep

/-- The changes of a script with up to `radius` kept lines around each. -/
def hunks (radius : Nat) (ops : List Op) : List (List Op) :=
  (cutLong radius [] (cutStop radius (cutStart radius ops))).filter changes

end HouseStyle.Diff
