/-!
# Runs

A *run* is a maximal stretch of neighbouring elements that all satisfy a predicate.

* `runs`: where the runs of a list lie.
* `mapRuns`: the list with every run replaced, all else left in place.
-/

namespace HouseStyle.Text

/-- The indices `start`, …, `stop - 1` of a list. -/
structure Run where
  start : Nat
  stop : Nat
  deriving DecidableEq, Repr

/-- The runs of a list whose first element has the given index. -/
def runsFrom {α : Type} (p : α → Bool) (index : Nat) : List α → List Run
  | [] => []
  | x :: xs =>
    if p x then
      let stop := index + 1 + (xs.takeWhile p).length
      ⟨index, stop⟩ :: runsFrom p stop (xs.dropWhile p)
    else
      runsFrom p (index + 1) xs
termination_by xs => xs.length
decreasing_by
  · exact Nat.lt_succ_of_le (List.dropWhile_sublist p).length_le
  · exact Nat.lt_succ_self _

/-- The runs of a list in increasing order. -/
def runs {α : Type} (p : α → Bool) (xs : List α) : List Run := runsFrom p 0 xs

/-- The list with every run `r` replaced by `f r`. -/
def mapRuns {α : Type} (p : α → Bool) (f : List α → List α) : List α → List α
  | [] => []
  | x :: xs =>
    if p x then f (x :: xs.takeWhile p) ++ mapRuns p f (xs.dropWhile p)
    else x :: mapRuns p f xs
termination_by xs => xs.length
decreasing_by
  · exact Nat.lt_succ_of_le (List.dropWhile_sublist p).length_le
  · exact Nat.lt_succ_self _

/-- The list with the first element of every run changed. -/
def mapRunHeads {α : Type} (p : α → Bool) (f : α → α) : List α → List α :=
  mapRuns p fun
    | [] => []
    | x :: xs => f x :: xs

end HouseStyle.Text
