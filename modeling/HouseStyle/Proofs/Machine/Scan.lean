import HouseStyle.Proofs.Machine.Operations
import HouseStyle.Proofs.Text.Literal

/-!
# Scanning for commas and an arrow

A case line is scanned byte by byte.  A backslash in a literal passes over one byte, which may be
the first of several that make one character; the others are passed over on their own, since no
byte of such a character is one that the scanner looks for.

* `scan?`: where the commas in front of the first arrow are, and the arrow.
* `found`: the same, character by character.
* `scan?_opens`, `scan?_plain`, `scan?_quoted`, `scan?_escaped`: what one character does.
* `scan?_eq`: **the bytes say what the characters say.**
* `found_eq_offsets`: commas and arrow stand between the pieces that the line is cut into.
-/

namespace HouseStyle.Machine

open Text

/-! ## Bytes of characters -/

section Bytes

variable {c d : Char} {text rest : List Char}

/-- The bytes of a character that is not ASCII mean nothing to a scanner. -/
def Inert (bs : List UInt8) : Prop := ∀ b ∈ bs, 127 < b.toNat

theorem inert_utf8EncodeChar (h : ¬ c.toNat ≤ 127) : Inert (String.utf8EncodeChar c) :=
  fun _ hb => le_of_mem_utf8EncodeChar (Nat.not_le.1 h) hb

theorem ne_byte {b : UInt8} (hb : 127 < b.toNat) (hc : c.toNat ≤ 127) : b ≠ byte c := by
  rintro rfl
  rw [toNat_byte hc] at hb
  omega

theorem ne_of_not_le (hc : ¬ c.toNat ≤ 127) (hd : d.toNat ≤ 127) : c ≠ d := by
  rintro rfl
  exact hc hd

theorem bytes_cons_of_le (h : c.toNat ≤ 127) : bytes (c :: text) = byte c :: bytes text := by
  rw [bytes_cons, utf8EncodeChar_of_le h, List.singleton_append]

/-- A character has a first byte, and the others mean nothing. -/
theorem exists_utf8EncodeChar (c : Char) :
    ∃ b bs, String.utf8EncodeChar c = b :: bs ∧ Inert bs := by
  have hlen := String.length_utf8EncodeChar c
  by_cases hc : c.toNat ≤ 127
  · exact ⟨byte c, [], utf8EncodeChar_of_le hc, fun _ h => nomatch h⟩
  · obtain ⟨b, bs, hbytes⟩ := List.exists_cons_of_ne_nil
      (List.ne_nil_of_length_pos (Nat.lt_of_lt_of_eq c.utf8Size_pos hlen.symm))
    refine ⟨b, bs, hbytes, fun x hx => inert_utf8EncodeChar hc x ?_⟩
    rw [hbytes]
    exact List.mem_cons_of_mem b hx

theorem head?_bytes_eq_iff (hd : d.toNat ≤ 127) :
    (bytes text).head? = some (byte d) ↔ text.head? = some d := by
  cases text with
  | nil => simp
  | cons c text =>
    by_cases hc : c.toNat ≤ 127
    · rw [bytes_cons_of_le hc, List.head?_cons, List.head?_cons, Option.some_inj, Option.some_inj,
        byte_inj hc hd]
    · obtain ⟨b, bs, hb, -⟩ := exists_utf8EncodeChar c
      have hinert : 127 < b.toNat := inert_utf8EncodeChar hc b (by rw [hb]; exact List.mem_cons_self)
      rw [bytes_cons, hb, List.cons_append, List.head?_cons, List.head?_cons, Option.some_inj,
        Option.some_inj]
      exact iff_of_false (ne_byte hinert hd) (ne_of_not_le hc hd)

end Bytes

/-! ## The scanner -/

/-- Where the commas in front of the first arrow are, and the arrow, literals left out. -/
def scan? (text : List UInt8) (quote : Option UInt8) (commas : List Nat) (i : Nat) :
    Option (List Nat × Option Nat) :=
  match _h : text[i]? with
  | none => some (commas, none)
  | some b =>
    match quote with
    | some q =>
      if b = byte '\\' then do
        let _ ← word? (i + 2)
        scan? text quote commas (i + 2)
      else do
        let _ ← word? (i + 1)
        scan? text (if b = q then none else quote) commas (i + 1)
    | none => do
      let next ← word? (i + 1)
      if b = byte '\x22' ∨ b = byte '\x27' then scan? text (some b) commas (i + 1)
      else if b = byte ',' then scan? text none (commas ++ [i]) (i + 1)
      else if b = byte '-' ∧ text[next]? = some (byte '>') then return (commas, some i)
      else scan? text none commas (i + 1)
termination_by text.length - i
decreasing_by
  all_goals
    have := (List.getElem?_eq_some_iff.1 _h).1
    omega

/-- Where the code commas in front of the first code arrow are, and the arrow, in a marked text that
begins at an offset. -/
def found (offset : Nat) : List (Char × Bool) → List Nat × Option Nat
  | [] => ([], none)
  | (c, code) :: rest =>
    if code && c == '-' && (rest.head?.map Prod.fst) == some '>' then ([], some offset)
    else
      let more := found (offset + c.utf8Size) rest
      (if code && c == ',' then offset :: more.1 else more.1, more.2)

section Scan

variable {text front middle rest : List UInt8} {quote : Option UInt8} {commas : List Nat}
  {b q : UInt8} {i : Nat}

theorem getElem?_front (b : UInt8) : (front ++ b :: rest)[front.length]? = some b := by simp

theorem scan?_end : scan? text quote commas text.length = some (commas, none) := by
  rw [scan?]
  split
  · rfl
  · next h =>
    rw [List.getElem?_eq_none (Nat.le_refl _)] at h
    cases h

theorem scan?_past : scan? text quote commas (text.length + 1) = some (commas, none) := by
  rw [scan?]
  split
  · rfl
  · next h =>
    rw [List.getElem?_eq_none (Nat.le_succ _)] at h
    cases h

section Step

variable (hlen : text.length + 1 < wordValues) (hb : text[i]? = some b)

include hlen hb

theorem lt_of_getElem? : i + 2 < wordValues := by
  have := (List.getElem?_eq_some_iff.1 hb).1
  omega

theorem scan?_literal : scan? text (some q) commas i =
    if b = byte '\\' then scan? text (some q) commas (i + 2)
    else scan? text (if b = q then none else some q) commas (i + 1) := by
  have hi := lt_of_getElem? hlen hb
  rw [scan?]
  split
  · next h => rw [h] at hb; cases hb
  · next h =>
    obtain rfl := Option.some.inj (hb.symm.trans h)
    simp only [word?_eq hi, word?_eq (Nat.lt_of_succ_lt hi), Option.bind_eq_bind, Option.bind_some]

theorem scan?_code : scan? text none commas i =
    if b = byte '\x22' ∨ b = byte '\x27' then scan? text (some b) commas (i + 1)
    else if b = byte ',' then scan? text none (commas ++ [i]) (i + 1)
    else if b = byte '-' ∧ text[i + 1]? = some (byte '>') then some (commas, some i)
    else scan? text none commas (i + 1) := by
  have hi := lt_of_getElem? hlen hb
  rw [scan?]
  split
  · next h => rw [h] at hb; cases hb
  · next h =>
    obtain rfl := Option.some.inj (hb.symm.trans h)
    simp only [word?_eq (Nat.lt_of_succ_lt hi), Option.bind_eq_bind, Option.bind_some,
      Option.pure_def]

end Step

theorem scan?_inert_one (hq : ∀ q ∈ quote, q.toNat ≤ 127) (hlen : text.length + 1 < wordValues)
    (hb : text[i]? = some b) (hinert : 127 < b.toNat) :
    scan? text quote commas i = scan? text quote commas (i + 1) := by
  cases quote with
  | some q =>
    have hbq : b ≠ q := by
      rintro rfl
      exact absurd (hq b rfl) (Nat.not_le.2 hinert)
    rw [scan?_literal hlen hb, if_neg (ne_byte hinert (by decide)), if_neg hbq]
  | none =>
    rw [scan?_code hlen hb,
      if_neg (not_or.2 ⟨ne_byte hinert (by decide), ne_byte hinert (by decide)⟩),
      if_neg (ne_byte hinert (by decide)), if_neg fun h => ne_byte hinert (by decide) h.1]

theorem scan?_inert (hq : ∀ q ∈ quote, q.toNat ≤ 127) (hlen : text.length + 1 < wordValues)
    (ht : text = front ++ (middle ++ rest)) (hm : Inert middle) :
    scan? text quote commas front.length = scan? text quote commas (front ++ middle).length := by
  induction middle generalizing front with
  | nil => rw [List.append_nil]
  | cons b bs ih =>
    have hget : text[front.length]? = some b := by rw [ht, List.cons_append, getElem?_front]
    have ht' : text = (front ++ [b]) ++ (bs ++ rest) := by simp [ht]
    have ih := ih ht' fun x hx => hm x (List.mem_cons_of_mem b hx)
    rw [List.length_append, List.length_singleton, List.append_assoc, List.singleton_append] at ih
    rw [scan?_inert_one hq hlen hget (hm b List.mem_cons_self), ih]

/-! ## Characters -/

variable {c d mark : Char} {cs : List Char}

theorem append_char (ht : text = front ++ bytes (c :: cs)) :
    text = front ++ String.utf8EncodeChar c ++ bytes cs := by
  rw [ht, bytes_cons, List.append_assoc]

theorem length_append_char :
    (front ++ String.utf8EncodeChar c).length = front.length + c.utf8Size := by
  rw [List.length_append, String.length_utf8EncodeChar]

theorem append_byte (ht : text = front ++ bytes (c :: cs)) (hc : c.toNat ≤ 127) :
    text = front ++ byte c :: bytes cs := by
  rw [ht, bytes_cons_of_le hc]

theorem length_append_byte (hc : c.toNat ≤ 127) :
    (front ++ String.utf8EncodeChar c).length = front.length + 1 := by
  rw [length_append_char, utf8Size_of_le hc]

/-- A character that is not ASCII is passed over. -/
theorem scan?_char (hq : ∀ q ∈ quote, q.toNat ≤ 127) (hlen : text.length + 1 < wordValues)
    (ht : text = front ++ bytes (c :: cs)) (hc : ¬ c.toNat ≤ 127) :
    scan? text quote commas front.length =
      scan? text quote commas (front ++ String.utf8EncodeChar c).length :=
  scan?_inert hq hlen (by rw [ht, bytes_cons]) (inert_utf8EncodeChar hc)

theorem le_of_isQuote (h : isQuote c = true) : c.toNat ≤ 127 := by
  rcases isQuote_iff.1 h with rfl | rfl <;> decide

theorem scan?_opens (hlen : text.length + 1 < wordValues) (ht : text = front ++ bytes (c :: cs))
    (hquote : isQuote c = true) :
    scan? text none commas front.length =
      scan? text (some (byte c)) commas (front ++ String.utf8EncodeChar c).length := by
  have hc := le_of_isQuote hquote
  have hopens : byte c = byte '\x22' ∨ byte c = byte '\x27' :=
    (isQuote_iff.1 hquote).imp (congrArg byte) (congrArg byte)
  rw [scan?_code hlen (by rw [append_byte ht hc, getElem?_front]), if_pos hopens,
    length_append_byte hc]

/-- The byte behind an ASCII character is that of the next character, if this is ASCII. -/
theorem getElem?_behind (ht : text = front ++ bytes (c :: cs)) (hc : c.toNat ≤ 127)
    (hd : d.toNat ≤ 127) : text[front.length + 1]? = some (byte d) ↔ cs.head? = some d := by
  rw [append_char ht, ← length_append_byte hc, List.getElem?_append_right (Nat.le_refl _),
    Nat.sub_self, ← List.head?_eq_getElem?, head?_bytes_eq_iff hd]

/-- Another character of code begins the arrow, or is a comma, or is passed over. -/
theorem scan?_plain (hlen : text.length + 1 < wordValues) (ht : text = front ++ bytes (c :: cs))
    (hquote : ¬ isQuote c = true) :
    scan? text none commas front.length =
      if c = '-' ∧ cs.head? = some '>' then some (commas, some front.length)
      else scan? text none (if c = ',' then commas ++ [front.length] else commas)
        (front ++ String.utf8EncodeChar c).length := by
  by_cases hc : c.toNat ≤ 127
  · have hopens : ¬ (byte c = byte '\x22' ∨ byte c = byte '\x27') := by
      rw [byte_inj hc (by decide), byte_inj hc (by decide), ← isQuote_iff]
      exact hquote
    rw [scan?_code hlen (by rw [append_byte ht hc, getElem?_front]), if_neg hopens,
      length_append_byte hc]
    simp only [byte_inj hc (by decide : ','.toNat ≤ 127),
      byte_inj hc (by decide : '-'.toNat ≤ 127), getElem?_behind ht hc (by decide : '>'.toNat ≤ 127)]
    by_cases hcomma : c = ','
    · simp [hcomma]
    · simp [hcomma]
  · rw [scan?_char (by simp) hlen ht hc, if_neg fun h => ne_of_not_le hc (by decide) h.1,
      if_neg (ne_of_not_le hc (by decide))]

/-- A backslash in a literal passes over the first byte of the next character, and the others mean
nothing. -/
theorem scan?_escaped {q : UInt8} (hlen : text.length + 1 < wordValues)
    (ht : text = front ++ bytes ('\\' :: d :: cs)) (hq : q.toNat ≤ 127) :
    scan? text (some q) commas front.length = scan? text (some q) commas
      (front ++ String.utf8EncodeChar '\\' ++ String.utf8EncodeChar d).length := by
  obtain ⟨b, bs, hd, hinert⟩ := exists_utf8EncodeChar d
  have hsplit : text = (front ++ [byte '\\', b]) ++ (bs ++ bytes cs) := by
    rw [ht, bytes_cons_of_le (by decide), bytes_cons, hd]
    simp
  have hget : text[front.length]? = some (byte '\\') := by simp [hsplit]
  have hskip : scan? text (some q) commas _ = scan? text (some q) commas _ :=
    scan?_inert (by simpa using hq) hlen hsplit hinert
  rw [scan?_literal hlen hget, if_pos rfl]
  rw [List.length_append, List.length_cons, List.length_singleton] at hskip
  rw [hskip, hd, utf8EncodeChar_of_le (by decide)]
  simp

/-- Another character of a literal closes it exactly if it is the mark that opened it. -/
theorem scan?_quoted (hlen : text.length + 1 < wordValues) (ht : text = front ++ bytes (c :: cs))
    (hmark : mark.toNat ≤ 127) (hescape : c ≠ '\\') :
    scan? text (some (byte mark)) commas front.length =
      scan? text ((if c = mark then none else some mark).map byte) commas
        (front ++ String.utf8EncodeChar c).length := by
  by_cases hc : c.toNat ≤ 127
  · have hopen : (if byte c = byte mark then none else some (byte mark)) =
        (if c = mark then none else some mark).map byte := by
      simp only [byte_inj hc hmark]
      split <;> rfl
    rw [scan?_literal hlen (by rw [append_byte ht hc, getElem?_front]),
      if_neg (by rwa [byte_inj hc (by decide)]), hopen, length_append_byte hc]
  · rw [if_neg (ne_of_not_le hc hmark)]
    exact scan?_char (by simpa [toNat_byte hmark] using hmark) hlen ht hc

/-! ## Texts -/

theorem head?_markFrom {quote : Option Char} :
    (markFrom quote cs).head?.map Prod.fst = cs.head? := by
  rw [← List.head?_map, ← unmark, unmark_markFrom]

theorem found_literal {offset : Nat} {marked : List (Char × Bool)} :
    found offset ((c, false) :: marked) = found (offset + c.utf8Size) marked := by
  simp [found]

/-- **The bytes say what the characters say.** -/
theorem scan?_eq {quote : Option Char} (hlen : text.length + 1 < wordValues)
    (ht : text = front ++ bytes cs) (hq : ∀ q ∈ quote, isQuote q = true) :
    scan? text (quote.map byte) commas front.length =
      some (commas ++ (found front.length (markFrom quote cs)).1,
        (found front.length (markFrom quote cs)).2) := by
  fun_induction markFrom quote cs generalizing front commas with
  | case1 quote =>
    rw [bytes_nil, List.append_nil] at ht
    rw [← ht, scan?_end, found, List.append_nil]
  | case2 c cs hquote ih =>
    have hmark : ∀ q ∈ some c, isQuote q = true := by simpa using hquote
    rw [Option.map_none, scan?_opens hlen ht hquote]
    rw [← Option.map_some, ih (append_char ht) hmark, length_append_char, found_literal]
  | case3 c cs hquote ih =>
    have ih := fun commas => @ih _ commas (append_char ht) hq
    rw [Option.map_none] at ih
    rw [Option.map_none, scan?_plain hlen ht hquote, found, head?_markFrom, ih, length_append_char]
    by_cases harrow : c = '-' ∧ cs.head? = some '>'
    · simp [harrow]
    · have harrow' : (c == '-' && cs.head? == some '>') = false := by
        rw [Bool.eq_false_iff]
        simpa using harrow
      by_cases hcomma : c = ','
      · simp [hcomma]
      · simp [hcomma, harrow, harrow']
  | case4 q =>
    have hget : text[front.length]? = some (byte '\\') := by
      rw [append_byte ht (by decide), getElem?_front]
    have hpast : front.length + 2 = text.length + 1 := by
      simp [append_byte ht (by decide)]
    rw [Option.map_some, scan?_literal hlen hget, if_pos rfl, hpast, scan?_past, found_literal,
      found, List.append_nil]
  | case5 q d ds ih =>
    have hle : (byte q).toNat ≤ 127 := by
      have hqle := le_of_isQuote (hq q rfl)
      rwa [toNat_byte hqle]
    rw [Option.map_some, scan?_escaped hlen ht hle]
    rw [← Option.map_some, ih (append_char (append_char ht)) hq, length_append_char,
      length_append_char, found_literal, found_literal]
  | case6 q c cs hne ih =>
    have hmarks : ∀ mark ∈ (if c = q then none else some q), isQuote mark = true := by
      intro mark hmark
      split at hmark
      · cases hmark
      · exact hq mark hmark
    rw [Option.map_some, scan?_quoted hlen ht (le_of_isQuote (hq q rfl)) hne,
      ih (append_char ht) hmarks, length_append_char, found_literal]

end Scan

/-! ## Pieces and their offsets -/

section Pieces

variable {marked : List (Char × Bool)} {pieces : List (List Char)} {tail : List Char}
  {offset : Nat}

/-- Where the commas between some pieces are, the first of which begins at an offset. -/
def commaOffsets (offset : Nat) : List (List Char) → List Nat
  | [] | [_] => []
  | piece :: next :: pieces =>
    (offset + size piece) :: commaOffsets (offset + size piece + 1) (next :: pieces)

theorem found_eq_none (h : cutBeforeArrow marked = none) : (found offset marked).2 = none := by
  induction marked generalizing offset with
  | nil => rfl
  | cons mark rest ih =>
    obtain ⟨c, code⟩ := mark
    rw [cutBeforeArrow] at h
    split at h
    · cases h
    next harrow =>
    split at h
    · next hrest =>
      rw [found, if_neg harrow]
      exact ih hrest
    · split at h
      · cases h
      · split at h <;> cases h

/-- Commas and arrow stand between the pieces that the line is cut into. -/
theorem found_eq_offsets (h : cutBeforeArrow marked = some (pieces, tail)) :
    found offset marked =
      (commaOffsets offset pieces, some (offset + size ([','].intercalate pieces))) := by
  induction marked generalizing pieces tail offset with
  | nil => cases h
  | cons mark rest ih =>
    obtain ⟨c, code⟩ := mark
    rw [cutBeforeArrow] at h
    split at h
    · next harrow =>
      cases h
      rw [found, if_pos harrow]
      rfl
    next harrow =>
    split at h
    · cases h
    · next pieces' tail' hrest =>
      obtain ⟨hne, -⟩ := unmark_of_cutBeforeArrow hrest
      obtain ⟨piece, pieces', rfl⟩ := List.exists_cons_of_ne_nil hne
      rw [found, if_neg harrow, ih hrest]
      split at h
      · next hcomma =>
        cases h
        have hc : c = ',' := by
          rw [Bool.and_eq_true, beq_iff_eq] at hcomma
          exact hcomma.2
        have hone : ','.utf8Size = 1 := rfl
        simp only [if_pos hcomma]
        simp only [hc, hone, commaOffsets, List.intercalate_cons_cons, size_nil,
          Nat.add_zero, List.nil_append, List.singleton_append, size_cons, Nat.add_assoc]
      · next hcomma =>
        cases h
        simp only [if_neg hcomma]
        cases pieces' with
        | nil => simp [commaOffsets, Nat.add_assoc]
        | cons next pieces' =>
          simp [commaOffsets, List.intercalate_cons_cons, Nat.add_assoc]

end Pieces

end HouseStyle.Machine
