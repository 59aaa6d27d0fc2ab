import Stencil.Text.Printable

/-!
# Quoted text

A text in quotes, as a message shows it: in single quotes, or in double ones if it has single
quotes and no double ones. A backslash and the quote stand behind a backslash, and what does not
show is written as its code point.
-/

set_option autoImplicit false

namespace Stencil

namespace Quoted

/-- A number in so many hexadecimal digits. -/
def hexDigits (width n : Nat) : List Char :=
  (List.range width).reverse.map fun i => Nat.digitChar (n / Nat.pow 16 i % 16)

/-- A code point behind a backslash, in the shortest of three forms. -/
def codePoint (n : Nat) : List Char :=
  if n < 0x100 then '\\' :: 'x' :: hexDigits 2 n
  else if n < 0x10000 then '\\' :: 'u' :: hexDigits 4 n
  else '\\' :: 'U' :: hexDigits 8 n

/-- A character between quotes. The quote and the backslash are escaped, three control characters
have names, and what does not show is written as its code point. -/
def char (quote c : Char) : List Char :=
  if c = '\\' ∨ c = quote then ['\\', c]
  else if c = '\n' then ['\\', 'n']
  else if c = '\r' then ['\\', 'r']
  else if c = '\t' then ['\\', 't']
  else if isPrintable c then [c]
  else codePoint c.toNat

/-- The quote that a text is put in: the single one, unless that would need escapes and the double
one none. -/
def mark (cs : List Char) : Char := if cs.contains '\'' && !cs.contains '"' then '"' else '\''

/-- The characters of a text in quotes. -/
def chars (s : String) : List Char :=
  let cs := s.toList
  mark cs :: cs.flatMap (char (mark cs)) ++ [mark cs]

end Quoted

def quoted (s : String) : String := String.ofList (Quoted.chars s)

end Stencil
