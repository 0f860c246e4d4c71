import HouseStyle.Text.EscapeRanges
import HouseStyle.Text.Word

/-!
# Quoted texts

Two ways to put a text between quotation marks: as a JSON string, and as a literal in which every
character that cannot be shown is written by its number.

* `jsonString`: the JSON string of a text.
* `literal`: the literal of a text.
-/

namespace HouseStyle.Text

/-- The hexadecimal digits of a number, without leading zeros. -/
def hexDigits (n : Nat) : List Char := Nat.toDigits 16 n

/-- How a character is written in a JSON string. -/
def jsonChar (c : Char) : List Char :=
  if c = '\x22' || c = '\\' then ['\\', c]
  else if c = '\n' then ['\\', 'n']
  else if c = '\r' then ['\\', 'r']
  else if c = '\t' then ['\\', 't']
  else if c.toNat = 8 then ['\\', 'b']
  else if c.toNat = 12 then ['\\', 'f']
  else if c.toNat < 32 then
    "\\u".toList ++ (List.replicate (4 - (hexDigits c.toNat).length) '0' ++ hexDigits c.toNat)
  else [c]

/-- The JSON string of a text. -/
def jsonString (text : String) : String :=
  String.ofList ('\x22' :: text.toList.flatMap jsonChar ++ ['\x22'])

/-- Whether a character is written by its number in a literal. -/
def isShownByNumber (c : Char) : Bool :=
  c.toNat < 32 || c.toNat == 127 || (127 < c.toNat && inRanges escapeRanges c.toNat)

/-- How a character is written in a literal. -/
def literalChar (c : Char) : List Char :=
  if c = '\x22' || c = '\\' then ['\\', c]
  else if c = '\n' then ['\\', 'n']
  else if c = '\r' then ['\\', 'r']
  else if c = '\t' then ['\\', 't']
  else if c.toNat = 0 then ['\\', '0']
  else if isShownByNumber c then "\\u\x7b".toList ++ hexDigits c.toNat ++ ['\x7d']
  else [c]

/-- The literal of a text. -/
def literal (text : String) : String :=
  String.ofList ('\x22' :: text.toList.flatMap literalChar ++ ['\x22'])

end HouseStyle.Text
