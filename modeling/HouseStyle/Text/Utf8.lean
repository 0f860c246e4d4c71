/-!
# Text from bytes

Bytes are read as UTF-8. Bytes that are no part of a text do not keep the others from being read:
every stretch of bytes that begins a character and breaks off, and every other byte that fits
nowhere, becomes one replacement character.

* `Utf8.Pending`: a character of which bytes are missing.
* `Utf8.step`: what one more byte completes, and what is pending behind it.
* `decodeUtf8`: the text of some bytes.
-/

namespace HouseStyle.Text

/-- What stands in a text for bytes that are no part of one. -/
def replacement : Char := Char.ofNat 0xfffd

namespace Utf8

/-- A character of which the first bytes have been read. -/
structure Pending where
  /-- How many bytes are missing. -/
  missing : Nat
  /-- The least value of the next byte, which keeps long forms of small numbers out. -/
  low : Nat
  /-- The greatest value of the next byte, which keeps numbers of no character out. -/
  high : Nat
  /-- The number that the bits so far denote. -/
  number : Nat
  deriving DecidableEq, Repr

/-- What a byte at the start of a character completes, and what is pending behind it. -/
def first (byte : Nat) : List Char × Option Pending :=
  if byte < 0x80 then ([Char.ofNat byte], none)
  else if byte < 0xc2 then ([replacement], none)
  else if byte < 0xe0 then ([], some ⟨1, 0x80, 0xbf, byte - 0xc0⟩)
  else if byte = 0xe0 then ([], some ⟨2, 0xa0, 0xbf, 0⟩)
  else if byte = 0xed then ([], some ⟨2, 0x80, 0x9f, 0xd⟩)
  else if byte < 0xf0 then ([], some ⟨2, 0x80, 0xbf, byte - 0xe0⟩)
  else if byte = 0xf0 then ([], some ⟨3, 0x90, 0xbf, 0⟩)
  else if byte < 0xf4 then ([], some ⟨3, 0x80, 0xbf, byte - 0xf0⟩)
  else if byte = 0xf4 then ([], some ⟨3, 0x80, 0x8f, 4⟩)
  else ([replacement], none)

/-- What one more byte completes, and what is pending behind it. -/
def step (pending : Option Pending) (byte : Nat) : List Char × Option Pending :=
  match pending with
  | none => first byte
  | some p =>
    if p.low ≤ byte && byte ≤ p.high then
      let number := 64 * p.number + (byte - 0x80)
      if p.missing = 1 then ([Char.ofNat number], none)
      else ([], some ⟨p.missing - 1, 0x80, 0xbf, number⟩)
    else (replacement :: (first byte).1, (first byte).2)

/-- The characters of some bytes behind a pending character. -/
def charsFrom (pending : Option Pending) : List UInt8 → List Char
  | [] => if pending.isSome then [replacement] else []
  | byte :: bytes =>
    let (chars, pending) := step pending byte.toNat
    chars ++ charsFrom pending bytes

end Utf8

/-- The text of some bytes. -/
def decodeUtf8 (bytes : List UInt8) : String := String.ofList (Utf8.charsFrom none bytes)

end HouseStyle.Text
