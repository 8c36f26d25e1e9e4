/-
# `Provisioning.Text.Quoted` — a text between quotes

How a text is shown inside a message or as part of a value: between single
quotes, or between double quotes when it holds a single quote and no double
one; backslash, the chosen quote and every unprintable character escaped.

    \n \r \t                line feed, carriage return, tab
    \xNN                    another unprintable character below U+0100
    \uNNNN                  below U+10000
    \UNNNNNNNN              any other
-/
import Provisioning.Text.Printable

namespace Provisioning.Text

/-- Hexadecimal digits in lower case, padded with zeros to a width. -/
def hex (width n : Nat) : List Char :=
  let digits := Nat.toDigits 16 n
  List.replicate (width - digits.length) '0' ++ digits

/-- The form of one character between the quotes `q`. -/
def escapeChar (q c : Char) : List Char :=
  if c = '\n' then ['\\', 'n']
  else if c = '\r' then ['\\', 'r']
  else if c = '\t' then ['\\', 't']
  else if c = '\\' || c = q then ['\\', c]
  else if isPrintable c then [c]
  else if c.toNat < 0x100 then '\\' :: 'x' :: hex 2 c.toNat
  else if c.toNat < 0x10000 then '\\' :: 'u' :: hex 4 c.toNat
  else '\\' :: 'U' :: hex 8 c.toNat

/-- The quote a text is shown between. -/
def quoteFor (s : List Char) : Char :=
  if s.contains '\'' && !s.contains '"' then '"' else '\''

/-- The characters of a text shown between quotes. -/
def quotedChars (s : List Char) : List Char :=
  let q := quoteFor s
  q :: s.flatMap (escapeChar q) ++ [q]

/-- A text shown between quotes. -/
def quoted (s : String) : String := String.ofList (quotedChars s.toList)

/-- A list of texts, each between quotes, in brackets. -/
def quotedList (ss : List String) : String := "[" ++ ", ".intercalate (ss.map quoted) ++ "]"

end Provisioning.Text
