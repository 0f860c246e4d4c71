import Mathlib.Data.List.Infix

/-!
# Results and places of readers

Every reader returns a value or an error.  While it takes lines off the front, a place among them is best
told by the number of lines from it to the end, which does not change.

* `exists_of_map_eq_ok`, `map_eq_error_iff`: what a mapped result comes from.
* `decidableEqExcept`: whether a reading on given lines returns a given result is decidable.
* `StandsAt`: a line with the number of lines from it to the end.
* `StandsAt.of_suffix`: a place among the last lines is a place among all.
-/

namespace HouseStyle

/-! ## Results -/

variable {ε α β : Type}

theorem exists_of_map_eq_ok {f : α → β} {x : Except ε α} {b : β} (h : x.map f = .ok b) :
    ∃ a, x = .ok a ∧ f a = b := by
  cases x with
  | error e => cases h
  | ok a => exact ⟨a, rfl, Except.ok.inj h⟩

theorem map_eq_error_iff {f : α → β} {x : Except ε α} {e : ε} :
    x.map f = .error e ↔ x = .error e := by
  cases x with
  | error e' =>
    rw [Except.error.injEq]
    exact ⟨fun h => Except.error.inj h, fun h => congrArg _ h⟩
  | ok a => exact ⟨nofun, nofun⟩

instance decidableEqExcept [DecidableEq ε] [DecidableEq α] : DecidableEq (Except ε α)
  | .ok a, .ok b => decidable_of_iff (a = b) (by simp)
  | .error a, .error b => decidable_of_iff (a = b) (by simp)
  | .ok _, .error _ | .error _, .ok _ => isFalse nofun

end HouseStyle

/-! ## Places -/

namespace HouseStyle.Text

/-- Whether a line stands among some lines, with so many lines from it to the end. -/
def StandsAt (ls : List String) (left : Nat) (text : String) : Prop :=
  ∃ before after, ls = before ++ text :: after ∧ left = after.length + 1

namespace StandsAt

variable {ls ls' : List String} {left : Nat} {text : String}

theorem head (text : String) (after : List String) :
    StandsAt (text :: after) (after.length + 1) text := ⟨[], after, rfl, rfl⟩

theorem of_suffix (h : StandsAt ls' left text) (hs : ls' <:+ ls) : StandsAt ls left text := by
  obtain ⟨before, after, rfl, hleft⟩ := h
  obtain ⟨first, rfl⟩ := hs
  exact ⟨first ++ before, after, by rw [List.append_assoc], hleft⟩

theorem le_length (h : StandsAt ls left text) : left ≤ ls.length := by
  obtain ⟨before, after, rfl, rfl⟩ := h
  rw [List.length_append, List.length_cons]
  omega

end StandsAt

end HouseStyle.Text
