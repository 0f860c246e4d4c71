import Mathlib

/-!
# A machine of words and bytes

Texts are bytes and numbers are words here: a line is cut at a byte, an element is taken at an
index, and a sum may be too large for a word.  Each of these operations can stop the program, and
where it does its result is `none`.  The memory that a run takes and the depth of its calls are not
counted.

* `word?`, `sub?`, `repeat?`, `slice?`, `cut?`, `middle?`: the operations.
* `cut?_eq_some_iff`: **a text can be cut at its characters and nowhere else.**
* `advance?`, `advance?_eq`: a cursor that moves on while a test holds.
* `Steps`: a run that may also end with an error.
-/

namespace HouseStyle.Machine

/-! ## Words -/

/-- The number of values of a word. -/
def wordValues : Nat := 2 ^ 64

/-- One more than the greatest size of a text. -/
def sizeLimit : Nat := 2 ^ 63

/-- A number as a word. -/
def word? (n : Nat) : Option Nat := if n < wordValues then some n else none

/-- The difference of two words. -/
def sub? (a b : Nat) : Option Nat := if b ≤ a then some (a - b) else none

/-- A text of one character again and again. -/
def repeat? (c : Char) (count : Nat) : Option (List Char) :=
  if count < sizeLimit then some (List.replicate count c) else none

/-- A text of a size that is computed before it is written. -/
def reserve? (size : Nat) : Option Unit := if size < sizeLimit then some () else none

theorem word?_eq {n : Nat} (h : n < wordValues) : word? n = some n := if_pos h

theorem sub?_eq {a b : Nat} (h : b ≤ a) : sub? a b = some (a - b) := if_pos h

theorem repeat?_eq {c : Char} {count : Nat} (h : count < sizeLimit) :
    repeat? c count = some (List.replicate count c) := if_pos h

theorem reserve?_eq {size : Nat} (h : size < sizeLimit) : reserve? size = some () := if_pos h

/-! ## Lists and cursors -/

section Lists

variable {α : Type} {xs rest a b : List α} {x : α} {i : Nat}

/-- The elements from one index up to another. -/
def slice? (xs : List α) (start stop : Nat) : Option (List α) :=
  if start ≤ stop ∧ stop ≤ xs.length then some ((xs.drop start).take (stop - start)) else none

theorem slice?_eq_of_drop (hi : i ≤ xs.length) (h : xs.drop i = a ++ b) :
    slice? xs i (i + a.length) = some a := by
  have hlen := congrArg List.length h
  rw [List.length_drop, List.length_append] at hlen
  rw [slice?, if_pos ⟨by omega, by omega⟩, h, Nat.add_sub_cancel_left, List.take_left]

theorem getElem?_of_drop (h : xs.drop i = x :: rest) : xs[i]? = some x := by
  rw [← List.head?_drop, h, List.head?_cons]

theorem getElem?_of_drop_nil (h : xs.drop i = []) : xs[i]? = none := by
  rw [← List.head?_drop, h, List.head?_nil]

theorem drop_succ_of_drop (h : xs.drop i = x :: rest) : xs.drop (i + 1) = rest := by
  rw [← List.tail_drop, h, List.tail_cons]

theorem lt_length_of_drop (h : xs.drop i = x :: rest) : i < xs.length :=
  (List.getElem?_eq_some_iff.1 (getElem?_of_drop h)).1

theorem drop_add_of_drop (h : xs.drop i = a ++ b) : xs.drop (i + a.length) = b := by
  rw [← List.drop_drop, h, List.drop_left]

theorem drop_of_suffix (h : rest <:+ xs) : xs.drop (xs.length - rest.length) = rest :=
  (List.suffix_iff_eq_drop.1 h).symm

theorem length_sub_of_drop (hi : i ≤ xs.length) (h : xs.drop i = a ++ b) :
    xs.length - b.length = i + a.length := by
  have hlen := congrArg List.length h
  rw [List.length_drop, List.length_append] at hlen
  omega

theorem length_sub_length_of_drop (hi : i ≤ xs.length) (h : xs.drop i = rest) :
    xs.length - rest.length = i := by
  rw [← h, List.length_drop]
  omega

/-- The first index from `i` on at which the test fails, or the end. -/
def advance? (test : α → Option Bool) (xs : List α) (i : Nat) : Option Nat :=
  match _h : xs[i]? with
  | none => some i
  | some x => do
    if ← test x then
      let _ ← word? (i + 1)
      advance? test xs (i + 1)
    else return i
termination_by xs.length - i
decreasing_by
  have := (List.getElem?_eq_some_iff.1 _h).1
  omega

/-- A cursor moves over the elements that pass the test. -/
theorem advance?_eq {test : α → Option Bool} {p : α → Bool} (hlen : xs.length < wordValues)
    (hp : ∀ x ∈ xs.drop i, test x = some (p x)) :
    advance? test xs i = some (i + ((xs.drop i).takeWhile p).length) := by
  induction hd : xs.drop i generalizing i with
  | nil =>
    rw [advance?]
    split
    · rfl
    · next h => rw [getElem?_of_drop_nil hd] at h; cases h
  | cons x rest ih =>
    have hlt := lt_length_of_drop hd
    have hrest := drop_succ_of_drop hd
    rw [hd] at hp
    rw [advance?]
    split
    · next h => rw [getElem?_of_drop hd] at h; cases h
    · next y h =>
      obtain rfl : x = y := Option.some.inj ((getElem?_of_drop hd).symm.trans h)
      rw [hp x List.mem_cons_self, Option.bind_eq_bind, Option.bind_some]
      cases hx : p x with
      | false => simp [hx]
      | true =>
        have ih := ih (fun y hy => hp y (List.mem_cons_of_mem x (hrest ▸ hy))) hrest
        rw [if_pos rfl, word?_eq (by omega), Option.bind_eq_bind, Option.bind_some, ih,
          List.takeWhile_cons_of_pos hx, List.length_cons, Nat.add_assoc, Nat.add_comm 1]

theorem mapM_eq_some {β : Type} {f : α → Option β} {g : α → β} (h : ∀ x ∈ xs, f x = some (g x)) :
    xs.mapM f = some (xs.map g) := by
  induction xs with
  | nil => rfl
  | cons x xs ih =>
    rw [List.mapM_cons, h x List.mem_cons_self, ih fun y hy => h y (List.mem_cons_of_mem x hy)]
    rfl

end Lists

/-! ## Bytes -/

section Bytes

variable {c d : Char} {text front middle back : List Char} {n : Nat}

/-- The bytes of a text. -/
def bytes (text : List Char) : List UInt8 := text.flatMap String.utf8EncodeChar

/-- The number of bytes of a text. -/
def size (text : List Char) : Nat := (bytes text).length

/-- The byte of an ASCII character. -/
def byte (c : Char) : UInt8 := UInt8.ofNat c.toNat

@[simp] theorem bytes_nil : bytes [] = [] := rfl

@[simp] theorem bytes_cons : bytes (c :: text) = String.utf8EncodeChar c ++ bytes text :=
  List.flatMap_cons

@[simp] theorem bytes_append : bytes (front ++ back) = bytes front ++ bytes back :=
  List.flatMap_append

@[simp] theorem size_nil : size [] = 0 := rfl

@[simp] theorem size_cons : size (c :: text) = c.utf8Size + size text := by
  rw [size, bytes_cons, List.length_append, String.length_utf8EncodeChar, size]

@[simp] theorem size_append : size (front ++ back) = size front + size back := by
  rw [size, bytes_append, List.length_append, size, size]

theorem size_toList (line : String) : size line.toList = line.utf8ByteSize := by
  rw [← String.size_toByteArray, ← String.utf8Encode_toList, List.utf8Encode,
    List.size_toByteArray]
  rfl

theorem utf8EncodeChar_of_le (h : c.toNat ≤ 127) : String.utf8EncodeChar c = [byte c] := by
  have hval : c.val.toNat ≤ 127 := h
  rw [String.utf8EncodeChar, if_pos hval]
  rfl

theorem utf8Size_of_le (h : c.toNat ≤ 127) : c.utf8Size = 1 := by
  rw [← String.length_utf8EncodeChar, utf8EncodeChar_of_le h, List.length_singleton]

@[simp] theorem size_replicate_space (n : Nat) : size (List.replicate n ' ') = n := by
  induction n with
  | zero => rfl
  | succ n ih =>
    rw [List.replicate_succ, size_cons, ih, utf8Size_of_le (by decide), Nat.add_comm]

/-- No byte of another character is the byte of an ASCII character. -/
theorem le_of_mem_utf8EncodeChar (h : 127 < c.toNat) {b : UInt8}
    (hb : b ∈ String.utf8EncodeChar c) : 127 < b.toNat := by
  have hnot : ¬ c.val.toNat ≤ 127 := Nat.not_le.2 h
  simp only [String.utf8EncodeChar, if_neg hnot] at hb
  split at hb
  · simp only [List.mem_cons, List.not_mem_nil, or_false] at hb
    rcases hb with rfl | rfl <;> rw [UInt8.toNat_ofNat'] <;> omega
  · split at hb
    · simp only [List.mem_cons, List.not_mem_nil, or_false] at hb
      rcases hb with rfl | rfl | rfl <;> rw [UInt8.toNat_ofNat'] <;> omega
    · simp only [List.mem_cons, List.not_mem_nil, or_false] at hb
      rcases hb with rfl | rfl | rfl | rfl <;> rw [UInt8.toNat_ofNat'] <;> omega

theorem toNat_byte (h : c.toNat ≤ 127) : (byte c).toNat = c.toNat := by
  rw [byte, UInt8.toNat_ofNat']
  omega

theorem byte_inj (hc : c.toNat ≤ 127) (hd : d.toNat ≤ 127) : byte c = byte d ↔ c = d := by
  refine ⟨fun h => ?_, congrArg byte⟩
  have hn := congrArg UInt8.toNat h
  rw [toNat_byte hc, toNat_byte hd] at hn
  exact Char.toNat_inj.1 hn

/-- A text cut at a byte. -/
def cut? : (text : List Char) → (n : Nat) → Option (List Char × List Char)
  | text, 0 => some ([], text)
  | [], _ + 1 => none
  | c :: text, n + 1 =>
    if c.utf8Size ≤ n + 1 then
      (cut? text (n + 1 - c.utf8Size)).map fun (front, back) => (c :: front, back)
    else none

theorem cut?_append : cut? (front ++ back) (size front) = some (front, back) := by
  induction front with
  | nil => rw [List.nil_append, size_nil, cut?]
  | cons c front ih =>
    obtain ⟨n, hn⟩ := Nat.exists_eq_add_one_of_ne_zero (Nat.ne_of_gt c.utf8Size_pos)
    have hsize : size (c :: front) = n + size front + 1 := by rw [size_cons, hn]; omega
    rw [List.cons_append, hsize, cut?, if_pos (by omega)]
    have hrest : n + size front + 1 - c.utf8Size = size front := by omega
    rw [hrest, ih, Option.map_some]

/-- **A text can be cut at its characters and nowhere else.** -/
theorem cut?_eq_some_iff :
    cut? text n = some (front, back) ↔ text = front ++ back ∧ n = size front := by
  constructor
  · intro h
    fun_induction cut? text n generalizing front with
    | case1 text => cases h; exact ⟨rfl, rfl⟩
    | case2 => cases h
    | case3 c text n hc ih =>
      obtain ⟨⟨front', back'⟩, hcut, he⟩ := Option.map_eq_some_iff.1 h
      cases he
      obtain ⟨rfl, hn⟩ := ih hcut
      exact ⟨rfl, by rw [size_cons]; omega⟩
    | case4 => cases h
  · rintro ⟨rfl, rfl⟩
    exact cut?_append

/-- The bytes of a text from one up to another. -/
def middle? (text : List Char) (start stop : Nat) : Option (List Char) := do
  let upTo ← cut? text stop
  let cut ← cut? upTo.1 start
  return cut.2

theorem middle?_append :
    middle? (front ++ middle ++ back) (size front) (size front + size middle) = some middle := by
  rw [middle?, ← size_append, cut?_append, Option.bind_eq_bind, Option.bind_some, cut?_append,
    Option.bind_some]
  rfl

end Bytes

/-! ## Runs that may end with an error -/

/-- A run that stops the program, or else ends with a result or an error. -/
abbrev Steps (ε α : Type) := ExceptT ε Option α

/-- The run that ends with the given outcome. -/
def ended {ε α : Type} (outcome : Except ε α) : Steps ε α := ExceptT.mk (some outcome)

/-- A run that goes on for ever counts as one that stops the program. -/
def stuck {ε α : Type} : Steps ε α := ExceptT.mk none

section Steps

variable {ε α β : Type}

@[simp] theorem ended_ok_bind (a : α) (f : α → Steps ε β) : (ended (.ok a) >>= f) = f a := rfl

@[simp] theorem ended_error_bind (e : ε) (f : α → Steps ε β) :
    (ended (.error e) >>= f) = ended (.error e) := rfl

@[simp] theorem pure_eq_ended (a : α) : (pure a : Steps ε α) = ended (.ok a) := rfl

@[simp] theorem throw_eq_ended (e : ε) : (throw e : Steps ε α) = ended (.error e) := rfl

@[simp] theorem liftM_some (a : α) : (liftM (some a) : Steps ε α) = ended (.ok a) := rfl

end Steps

end HouseStyle.Machine
