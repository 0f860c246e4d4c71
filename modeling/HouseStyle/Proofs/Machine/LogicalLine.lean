import HouseStyle.Proofs.Block.LogicalLine
import HouseStyle.Proofs.Machine.Line
import HouseStyle.Proofs.Machine.Scan

/-!
# Scanning for brackets and strings

A physical line of a statement is scanned byte by byte.  What is left of the line is cut off to look
for three quotation marks, brackets are counted in a word, and a backslash in a string passes over
one byte, which may be the first of several that make one character.

* `scanLine?`: what is open behind a line.
* `ScansOn`, `scansOn_of_moves`: what is left behind one character, in bytes and in characters.
* `scanLine?_eq`: **the bytes say what the characters say.**
* `proceed?_eq`: what is open between two lines, and `depth_advance_le`, how many brackets at most.
-/

namespace HouseStyle.Machine

open Text Block

/-- An open string, with the byte of the quotation mark that closes it. -/
inductive ByteQuote where
  | single (mark : UInt8)
  | triple (mark : UInt8)
  deriving DecidableEq

/-- What is open within a line, and whether the rest of the line is a comment. -/
structure ByteOpened where
  depth : Nat
  quote : Option ByteQuote
  comment : Bool

/-- What is open behind a byte, and how many bytes are passed over with it. -/
structure ByteStep where
  depth : Nat
  quote : Option ByteQuote
  skipped : Nat

/-- Whether three of the given marks are what begins at an index. -/
def beginsTriple? (mark : UInt8) (text : List UInt8) (i : Nat) : Option Bool := do
  let rest ← slice? text i text.length
  return [mark, mark, mark].isPrefixOf rest

/-- What a byte in a string does. -/
def quotedStep? (text : List UInt8) (depth : Nat) (quote : ByteQuote) (i : Nat) (b : UInt8) :
    Option ByteStep :=
  if b = byte '\\' then some ⟨depth, some quote, 1⟩
  else
    match quote with
    | .triple mark => do
      if ← beginsTriple? mark text i then return ⟨depth, none, 2⟩
      else return ⟨depth, some quote, 0⟩
    | .single mark => some ⟨depth, if b = mark then none else some quote, 0⟩

/-- What a byte outside strings does; no step if it begins a comment. -/
def codeStep? (text : List UInt8) (depth i : Nat) (b : UInt8) : Option (Option ByteStep) :=
  if b = byte '#' then some none
  else if b = byte '\x22' ∨ b = byte '\x27' then do
    if ← beginsTriple? b text i then return some ⟨depth, some (.triple b), 2⟩
    else return some ⟨depth, some (.single b), 0⟩
  else if b = byte '(' ∨ b = byte '[' ∨ b = byte '\x7b' then do
    let depth ← word? (depth + 1)
    return some ⟨depth, none, 0⟩
  else if b = byte ')' ∨ b = byte ']' ∨ b = byte '\x7d' then some (some ⟨depth - 1, none, 0⟩)
  else some (some ⟨depth, none, 0⟩)

/-- What a byte does; no step if it begins a comment. -/
def step? (text : List UInt8) (depth : Nat) (quote : Option ByteQuote) (i : Nat) (b : UInt8) :
    Option (Option ByteStep) :=
  match quote with
  | some quote => (quotedStep? text depth quote i b).map some
  | none => codeStep? text depth i b

/-- What is open behind a line, from an index on. -/
def scanLine? (text : List UInt8) (depth : Nat) (quote : Option ByteQuote) (i : Nat) :
    Option ByteOpened :=
  match _h : text[i]? with
  | none => some ⟨depth, quote, false⟩
  | some b => do
    match ← step? text depth quote i b with
    | none => return ⟨depth, quote, true⟩
    | some next =>
      let _ ← word? (i + next.skipped)
      let _ ← word? (i + next.skipped + 1)
      scanLine? text next.depth next.quote (i + next.skipped + 1)
termination_by text.length - i
decreasing_by
  have := (List.getElem?_eq_some_iff.1 _h).1
  omega

/-! ## Characters and bytes -/

section Bytes

variable {c : Char} {cs word : List Char}

theorem size_drop_le (n : Nat) (cs : List Char) : size (cs.drop n) ≤ size cs := by
  have hsplit := congrArg size (List.take_append_drop n cs)
  rw [size_append] at hsplit
  omega

/-- A text begins with ASCII characters exactly if its bytes begin with the bytes of them. -/
theorem isPrefixOf_bytes (h : ∀ c ∈ word, c.toNat ≤ 127) :
    (word.map byte).isPrefixOf (bytes cs) = word.isPrefixOf cs := by
  induction word generalizing cs with
  | nil => rfl
  | cons d word ih =>
    obtain ⟨hd, hword⟩ := List.forall_mem_cons.1 h
    cases cs with
    | nil => rfl
    | cons c cs =>
      by_cases hc : c.toNat ≤ 127
      · have hbyte : (byte d == byte c) = (d == c) := by
          rw [Bool.eq_iff_iff, beq_iff_eq, beq_iff_eq, byte_inj hd hc]
        rw [List.map_cons, bytes_cons_of_le hc, List.isPrefixOf_cons_cons, List.isPrefixOf_cons_cons,
          ih hword, hbyte]
      · obtain ⟨b, bs, hb, -⟩ := exists_utf8EncodeChar c
        have hinert : 127 < b.toNat :=
          inert_utf8EncodeChar hc b (by rw [hb]; exact List.mem_cons_self)
        have hbyte : (byte d == b) = false := beq_false_of_ne (ne_byte hinert hd).symm
        have hchar : (d == c) = false := beq_false_of_ne (ne_of_not_le hc hd).symm
        rw [List.map_cons, bytes_cons, hb, List.cons_append, List.isPrefixOf_cons_cons,
          List.isPrefixOf_cons_cons, hbyte, hchar, Bool.false_and, Bool.false_and]

end Bytes

/-- A string with the byte of its quotation mark. -/
def byteQuote : Quote → ByteQuote
  | .single mark => .single (byte mark)
  | .triple mark => .triple (byte mark)

/-- What is open within a line, with bytes for quotation marks. -/
def byteOpened (opened : Opened) : ByteOpened :=
  ⟨opened.depth, opened.quote.map byteQuote, opened.comment⟩

theorem isQuotationMark_iff {c : Char} :
    isQuotationMark c = true ↔ c = '\x22' ∨ c = '\x27' := by simp [isQuotationMark]

theorem le_of_isQuotationMark {c : Char} (h : isQuotationMark c = true) : c.toNat ≤ 127 := by
  rcases isQuotationMark_iff.1 h with rfl | rfl <;> decide

theorem mark_le {quote : Option Quote} (h : Marked quote) : ∀ q ∈ quote, q.mark.toNat ≤ 127 :=
  fun q hq => le_of_isQuotationMark (h q hq)

/-! ## Steps -/

section Step

variable {text front : List UInt8} {depth depth' skipped i : Nat} {quote quote' : Option ByteQuote}
  {b : UInt8} {cs : List Char} {c mark : Char}

theorem beginsTriple?_append {b : UInt8} {back : List UInt8} :
    beginsTriple? b (front ++ back) front.length = some ([b, b, b].isPrefixOf back) := by
  have hdrop : (front ++ back).drop front.length = back ++ [] := by
    rw [List.drop_left, List.append_nil]
  rw [beginsTriple?, List.length_append, slice?_eq_of_drop (by simp) hdrop]
  rfl

theorem beginsTriple?_eq (ht : text = front ++ bytes cs) (hmark : mark.toNat ≤ 127) :
    beginsTriple? (byte mark) text front.length = some (beginsTriple mark cs) := by
  have hprefix : ([mark, mark, mark].map byte).isPrefixOf (bytes cs) = [mark, mark, mark].isPrefixOf cs :=
    isPrefixOf_bytes (by simp [hmark])
  rw [ht, beginsTriple?_append]
  exact congrArg some hprefix

theorem scanLine?_step (hlen : text.length + 2 < wordValues) (hb : text[i]? = some b)
    (hskipped : skipped ≤ 2)
    (hstep : step? text depth quote i b = some (some ⟨depth', quote', skipped⟩)) :
    scanLine? text depth quote i = scanLine? text depth' quote' (i + skipped + 1) := by
  have hi := (List.getElem?_eq_some_iff.1 hb).1
  rw [scanLine?]
  split
  · next h => rw [h] at hb; cases hb
  · next h =>
    obtain rfl := Option.some.inj (hb.symm.trans h)
    simp only [hstep, Option.bind_eq_bind, Option.bind_some,
      word?_eq (by omega : i + skipped < wordValues),
      word?_eq (by omega : i + skipped + 1 < wordValues)]

theorem scanLine?_past (h : text.length ≤ i) :
    scanLine? text depth quote i = some ⟨depth, quote, false⟩ := by
  rw [scanLine?]
  split
  · rfl
  · next hb =>
    rw [List.getElem?_eq_none h] at hb
    cases hb

variable {open? : Option Quote}

theorem step?_inert {rest : List UInt8} (hmarked : Marked open?) (ht : text = front ++ b :: rest)
    (hinert : 127 < b.toNat) : step? text depth (open?.map byteQuote) front.length b =
      some (some ⟨depth, open?.map byteQuote, 0⟩) := by
  have hne : ∀ c : Char, c.toNat ≤ 127 → b ≠ byte c := fun c hc => ne_byte hinert hc
  cases open? with
  | none => simp [step?, codeStep?, hne]
  | some q =>
    have hmark := hne q.mark (mark_le hmarked q rfl)
    cases q with
    | single mark => simp [step?, quotedStep?, byteQuote, hne '\\', show b ≠ byte mark from hmark]
    | triple mark =>
      have htriple : beginsTriple? (byte mark) text front.length = some false := by
        rw [ht, beginsTriple?_append, List.isPrefixOf_cons_cons,
          beq_false_of_ne (show byte mark ≠ b from hmark.symm), Bool.false_and]
      simp [step?, quotedStep?, byteQuote, hne '\\', htriple]

theorem scanLine?_inert {middle rest : List UInt8} (hmarked : Marked open?)
    (hlen : text.length + 2 < wordValues) (ht : text = front ++ (middle ++ rest))
    (hinert : Inert middle) :
    scanLine? text depth (open?.map byteQuote) front.length =
      scanLine? text depth (open?.map byteQuote) (front ++ middle).length := by
  induction middle generalizing front with
  | nil => rw [List.append_nil]
  | cons b bs ih =>
    have ht' : text = (front ++ [b]) ++ (bs ++ rest) := by simp [ht]
    have ih := ih ht' fun x hx => hinert x (List.mem_cons_of_mem b hx)
    rw [List.length_append, List.length_singleton, List.append_assoc, List.singleton_append] at ih
    rw [scanLine?_step hlen (by rw [ht, List.cons_append, getElem?_front]) (Nat.zero_le 2)
      (step?_inert hmarked ht (hinert b List.mem_cons_self)), Nat.add_zero, ih]

/-! ## Characters -/

/-- Whether a scan from an index goes on where the given characters are left. -/
def ScansOn (text : List UInt8) (depth : Nat) (quote : Option ByteQuote) (i depth' : Nat)
    (quote' : Option ByteQuote) (rest : List Char) : Prop :=
  ∃ front, text = front ++ bytes rest ∧
    scanLine? text depth quote i = scanLine? text depth' quote' front.length

theorem scansOn_passed (hmarked : Marked open?) (hlen : text.length + 2 < wordValues)
    (ht : text = front ++ bytes (c :: cs)) (hc : ¬ c.toNat ≤ 127) :
    ScansOn text depth (open?.map byteQuote) front.length depth (open?.map byteQuote) cs := by
  rw [bytes_cons] at ht
  exact ⟨front ++ String.utf8EncodeChar c, by rw [ht, List.append_assoc],
    scanLine?_inert hmarked hlen ht (inert_utf8EncodeChar hc)⟩

/-- An ASCII character does what its byte does. -/
theorem scansOn_stepped (hlen : text.length + 2 < wordValues) (ht : text = front ++ bytes (c :: cs))
    (hc : c.toNat ≤ 127)
    (hstep : step? text depth quote front.length (byte c) = some (some ⟨depth', quote', 0⟩)) :
    ScansOn text depth quote front.length depth' quote' cs := by
  rw [bytes_cons_of_le hc] at ht
  refine ⟨front ++ [byte c], by simp [ht], ?_⟩
  rw [scanLine?_step hlen (by rw [ht, getElem?_front]) (Nat.zero_le 2) hstep, List.length_append,
    List.length_singleton, Nat.add_zero]

theorem scansOn_tripled (hlen : text.length + 2 < wordValues) (ht : text = front ++ bytes (c :: cs))
    (hmark : mark.toNat ≤ 127) (htriple : beginsTriple mark (c :: cs) = true)
    (hstep : step? text depth quote front.length (byte c) = some (some ⟨depth, quote', 2⟩)) :
    ScansOn text depth quote front.length depth quote' (cs.drop 2) := by
  obtain ⟨rest, rfl, rfl⟩ := exists_of_beginsTriple htriple
  simp only [bytes_cons_of_le hmark] at ht
  refine ⟨front ++ [byte c, byte c, byte c], by simp [ht], ?_⟩
  rw [scanLine?_step hlen (by rw [ht, getElem?_front]) (Nat.le_refl 2) hstep, List.length_append]
  rfl

/-- A backslash passes over the first byte of the next character, and the others mean nothing. -/
theorem scansOn_escaped (depth : Nat) {q : Quote} (hmarked : Marked (some q))
    (hlen : text.length + 2 < wordValues) (ht : text = front ++ bytes ('\\' :: cs)) :
    ScansOn text depth (some (byteQuote q)) front.length depth (some (byteQuote q)) (cs.drop 1) := by
  have hstep : step? text depth (some (byteQuote q)) front.length (byte '\\') =
      some (some ⟨depth, some (byteQuote q), 1⟩) := by simp [step?, quotedStep?]
  rw [bytes_cons_of_le (by decide)] at ht
  have hscan := scanLine?_step hlen (by rw [ht, getElem?_front]) (by omega) hstep
  rw [ScansOn, hscan]
  cases cs with
  | nil =>
    refine ⟨text, by simp, ?_⟩
    rw [scanLine?_past (Nat.le_refl _), scanLine?_past (by simp [ht])]
  | cons d ds =>
    obtain ⟨b, bs, hd, hinert⟩ := exists_utf8EncodeChar d
    rw [bytes_cons, hd] at ht
    have hsplit : text = (front ++ [byte '\\', b]) ++ (bs ++ bytes ds) := by simp [ht]
    have hskip : scanLine? text depth _ _ = scanLine? text depth _ _ :=
      scanLine?_inert hmarked hlen hsplit hinert
    refine ⟨front ++ [byte '\\', b] ++ bs, by simp [ht], ?_⟩
    rw [List.length_append, List.length_cons, List.length_singleton] at hskip
    exact hskip

theorem depthBehind_le (depth : Nat) (c : Char) : depthBehind depth c ≤ depth + 1 := by
  unfold depthBehind
  split_ifs <;> omega

theorem depthBehind_of_not_le (hc : ¬ c.toNat ≤ 127) : depthBehind depth c = depth := by
  have hne : ∀ d : Char, d.toNat ≤ 127 → c ≠ d := fun d hd => ne_of_not_le hc hd
  simp [depthBehind, isOpeningBracket, isClosingBracket, hne]

/-- What an ASCII character outside strings does that does not begin a comment. -/
theorem codeStep?_of_le (ht : text = front ++ bytes (c :: cs)) (hc : c.toNat ≤ 127)
    (hcomment : c ≠ '#') (hdepth : depth + 1 < wordValues) :
    codeStep? text depth front.length (byte c) = some (some
      (if isQuotationMark c then
        if beginsTriple c (c :: cs) then ⟨depth, some (.triple (byte c)), 2⟩
        else ⟨depth, some (.single (byte c)), 0⟩
      else ⟨depthBehind depth c, none, 0⟩)) := by
  have hbyte : ∀ d : Char, d.toNat ≤ 127 → (byte c = byte d ↔ c = d) := fun d hd => byte_inj hc hd
  rw [codeStep?, if_neg (by rwa [hbyte '#' (by decide)]), beginsTriple?_eq ht hc,
    word?_eq hdepth]
  simp only [hbyte '\x22' (by decide), hbyte '\x27' (by decide), hbyte '(' (by decide),
    hbyte '[' (by decide), hbyte '\x7b' (by decide), hbyte ')' (by decide),
    hbyte ']' (by decide), hbyte '\x7d' (by decide), isQuotationMark, depthBehind, isOpeningBracket,
    isClosingBracket, Bool.or_eq_true, beq_iff_eq, or_assoc, Option.bind_eq_bind, Option.bind_some]
  split_ifs <;> rfl

/-- What an ASCII character in a string of one mark does that is no backslash. -/
theorem quotedStep?_single (hc : c.toNat ≤ 127) (hmark : mark.toNat ≤ 127) (hescape : c ≠ '\\') :
    quotedStep? text depth (.single (byte mark)) i (byte c) =
      some ⟨depth, if c = mark then none else some (.single (byte mark)), 0⟩ := by
  rw [quotedStep?, if_neg (by rwa [byte_inj hc (by decide)])]
  simp only [byte_inj hc hmark]

/-- What an ASCII character in a string of three marks does that is no backslash. -/
theorem quotedStep?_triple (ht : text = front ++ bytes (c :: cs)) (hc : c.toNat ≤ 127)
    (hmark : mark.toNat ≤ 127) (hescape : c ≠ '\\') :
    quotedStep? text depth (.triple (byte mark)) front.length (byte c) =
      some (if beginsTriple mark (c :: cs) then ⟨depth, none, 2⟩
        else ⟨depth, some (.triple (byte mark)), 0⟩) := by
  rw [quotedStep?, if_neg (by rwa [byte_inj hc (by decide)]), beginsTriple?_eq ht hmark,
    Option.bind_eq_bind, Option.bind_some]
  split <;> rfl

/-! ## Moves -/

variable {open' : Option Quote} {rest : List Char}

/-- **Bytes move on as characters do.** -/
theorem scansOn_of_moves (h : Moves depth c cs open? depth' open' rest) (hmarked : Marked open?)
    (hlen : text.length + 2 < wordValues) (ht : text = front ++ bytes (c :: cs))
    (hdepth : depth + 1 < wordValues) :
    ScansOn text depth (open?.map byteQuote) front.length depth' (open'.map byteQuote) rest := by
  cases h with
  | escape q hc =>
    subst hc
    exact scansOn_escaped depth hmarked hlen ht
  | @closesTriple mark hc htriple =>
    have hmark : mark.toNat ≤ 127 := mark_le hmarked _ rfl
    obtain ⟨_, rfl, -⟩ := exists_of_beginsTriple htriple
    refine scansOn_tripled hlen ht hmark htriple ?_
    rw [Option.map_some, byteQuote, step?, quotedStep?_triple ht hmark hmark hc, if_pos htriple]
    rfl
  | @triple mark hc htriple =>
    have hmark : mark.toNat ≤ 127 := mark_le hmarked _ rfl
    by_cases hascii : c.toNat ≤ 127
    · refine scansOn_stepped hlen ht hascii ?_
      rw [Option.map_some, byteQuote, step?, quotedStep?_triple ht hascii hmark hc, htriple]
      rfl
    · exact scansOn_passed hmarked hlen ht hascii
  | @single mark hc =>
    have hmark : mark.toNat ≤ 127 := mark_le hmarked _ rfl
    by_cases hascii : c.toNat ≤ 127
    · refine scansOn_stepped hlen ht hascii ?_
      rw [Option.map_some, byteQuote, step?, quotedStep?_single hascii hmark hc]
      split <;> rfl
    · rw [if_neg (ne_of_not_le hascii hmark)]
      exact scansOn_passed hmarked hlen ht hascii
  | opensTriple hquote htriple =>
    have hc := le_of_isQuotationMark hquote
    refine scansOn_tripled hlen ht hc htriple ?_
    rw [Option.map_none, step?, codeStep?_of_le ht hc (ne_sign_of_isQuotationMark hquote) hdepth,
      if_pos hquote, if_pos htriple]
    rfl
  | opensSingle hquote htriple =>
    have hc := le_of_isQuotationMark hquote
    refine scansOn_stepped hlen ht hc ?_
    rw [Option.map_none, step?, codeStep?_of_le ht hc (ne_sign_of_isQuotationMark hquote) hdepth,
      if_pos hquote, htriple]
    rfl
  | code hcomment hquote =>
    by_cases hascii : c.toNat ≤ 127
    · refine scansOn_stepped hlen ht hascii ?_
      rw [Option.map_none, step?, codeStep?_of_le ht hascii hcomment hdepth, hquote]
      rfl
    · rw [depthBehind_of_not_le hascii]
      exact scansOn_passed hmarked hlen ht hascii

/-- A move passes over at least as many bytes as it opens brackets. -/
theorem add_size_le_of_moves (h : Moves depth c cs open? depth' open' rest) :
    depth' + size rest ≤ depth + size (c :: cs) := by
  have hc := c.utf8Size_pos
  rw [size_cons]
  cases h with
  | escape | closesTriple | opensTriple =>
    have hsize : ∀ n, size (cs.drop n) ≤ size cs := fun n => size_drop_le n cs
    have hone := hsize 1
    have htwo := hsize 2
    omega
  | triple | single | opensSingle => omega
  | code =>
    have hdepth := depthBehind_le depth c
    omega

end Step

/-! ## Lines -/

section Line

variable {text front : List UInt8} {depth : Nat} {quote : Option Quote} {cs : List Char}

/-- No more brackets are open than there are bytes. -/
theorem depth_scan_le : (scan depth quote cs).depth ≤ depth + size cs := by
  induction depth, quote, cs using scan_induction with
  | nil depth quote =>
    rw [scan]
    exact Nat.le_add_right depth _
  | comment depth cs =>
    rw [scan_opens_comment]
    exact Nat.le_add_right depth _
  | move depth c cs quote depth' quote' rest hmove ih =>
    rw [hmove.scan_eq]
    exact ih.trans (add_size_le_of_moves hmove)

/-- **The bytes say what the characters say.** -/
theorem scanLine?_eq (hlen : text.length + 2 < wordValues) (ht : text = front ++ bytes cs)
    (hmarked : Marked quote) (hdepth : depth + size cs < wordValues) :
    scanLine? text depth (quote.map byteQuote) front.length =
      some (byteOpened (scan depth quote cs)) := by
  induction depth, quote, cs using scan_induction generalizing front with
  | nil depth quote =>
    rw [bytes_nil, List.append_nil] at ht
    rw [ht, scanLine?_past (Nat.le_refl _), scan, byteOpened]
  | comment depth cs =>
    rw [bytes_cons_of_le (by decide)] at ht
    have hget : text[front.length]? = some (byte '#') := by rw [ht, getElem?_front]
    rw [Option.map_none, scan_opens_comment, scanLine?]
    split
    · next h => rw [h] at hget; cases hget
    · next h =>
      obtain rfl := Option.some.inj (hget.symm.trans h)
      rfl
  | move depth c cs quote depth' quote' rest hmove ih =>
    have hsize := add_size_le_of_moves hmove
    have hone : depth + 1 < wordValues := by
      have hc := c.utf8Size_pos
      rw [size_cons] at hdepth
      omega
    obtain ⟨front', ht', hscan⟩ := scansOn_of_moves hmove hmarked hlen ht hone
    rw [hscan, hmove.scan_eq]
    exact ih ht' (hmove.marked hmarked) (by omega)

end Line

/-! ## What is open between lines -/

/-- What is open between two lines, with bytes for quotation marks. -/
structure ByteContinuation where
  depth : Nat
  quote : Option ByteQuote
  backslash : Bool

/-- Whether the next line belongs to the statement. -/
def ByteContinuation.isOpen (state : ByteContinuation) : Bool :=
  0 < state.depth || state.quote.isSome || state.backslash

/-- What is open after one more line. -/
def proceed? (state : ByteContinuation) (line : String) : Option ByteContinuation := do
  let opened ← scanLine? (bytes line.toList) state.depth state.quote 0
  let escaped := !opened.comment && line.toList.getLast? == some '\\'
  let quote := match opened.quote with
    | some (.single mark) => if escaped then some (.single mark) else none
    | other => other
  return ⟨opened.depth, quote, escaped && quote.isNone⟩

/-- What is open between two lines, with the bytes of its marks. -/
def byteContinuation (state : Continuation) : ByteContinuation :=
  ⟨state.depth, state.quote.map byteQuote, state.backslash⟩

section Continuation

variable {state : Continuation} {line : String}

theorem isOpen_byteContinuation : (byteContinuation state).isOpen = state.isOpen := by
  rw [ByteContinuation.isOpen, Continuation.isOpen, byteContinuation, Option.isSome_map]

theorem depth_advance_le : (state.advance line).depth ≤ state.depth + size line.toList :=
  depth_scan_le

/-- A line leaves open in bytes what it leaves open in characters. -/
theorem proceed?_eq (hfits : Fits line) (hmarked : Marked state.quote)
    (hdepth : state.depth + size line.toList < wordValues) :
    proceed? (byteContinuation state) line = some (byteContinuation (state.advance line)) := by
  have hlen : (bytes line.toList).length + 2 < wordValues := by
    unfold Fits size sizeLimit at hfits
    unfold wordValues
    omega
  have hscan := scanLine?_eq hlen (List.nil_append _).symm hmarked hdepth
  rw [List.length_nil] at hscan
  rw [proceed?, byteContinuation, hscan, Continuation.advance]
  simp only [Option.bind_eq_bind, Option.bind_some, byteOpened, byteContinuation]
  cases (scan state.depth state.quote line.toList).quote with
  | none => rfl
  | some q =>
    cases q with
    | single mark =>
      simp only [Option.map_some, byteQuote]
      split <;> rfl
    | triple mark => rfl

end Continuation

end HouseStyle.Machine
