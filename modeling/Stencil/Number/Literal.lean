import Stencil.Text.Blank
import Stencil.Number.Decimal

/-!
# Number literals

An integer literal is an optional sign and ASCII digits. A double literal is an optional sign,
digits with at most one point among them, and an optional exponent; blanks around it do not count.
Every integer literal is a double literal too, so whoever asks for both asks for the integer
first.
-/

set_option autoImplicit false

namespace Stencil

namespace Literal

/-- An optional sign, and what follows it; the flag says that the sign was a minus. It is kept apart
from the digits, for a zero loses its sign as a whole number and keeps it as a double. -/
def splitSign : List Char → Bool × List Char
  | '+' :: rest => (false, rest)
  | '-' :: rest => (true, rest)
  | cs => (false, cs)

/-- One or more ASCII digits and nothing else. Digits of other scripts are letters of a name at
best, and never part of a number. -/
def natural? (cs : List Char) : Option Nat :=
  if !cs.isEmpty && cs.all Char.isDigit then some (Nat.ofDigitChars 10 cs 0) else none

def integer? (cs : List Char) : Option Int :=
  let (negative, digits) := splitSign cs
  (natural? digits).map fun n : Nat => if negative then -(n : Int) else n

def exponent? : List Char → Option Int
  | [] => some 0
  | c :: rest => if c = 'e' ∨ c = 'E' then integer? rest else none

def splitFraction : List Char → List Char × List Char
  | '.' :: rest => (rest.takeWhile Char.isDigit, rest.dropWhile Char.isDigit)
  | rest => ([], rest)

/-- Digits with at most one point, at least one digit on either side of it, and an optional
exponent. The digits of both sides are one number, which the exponent puts the point back into. -/
def decimal? (cs : List Char) : Option Decimal :=
  let whole := cs.takeWhile Char.isDigit
  let (fraction, rest) := splitFraction (cs.dropWhile Char.isDigit)
  if whole.isEmpty && fraction.isEmpty then none
  else (exponent? rest).map fun e =>
    ⟨Nat.ofDigitChars 10 (whole ++ fraction) 0, e - fraction.length⟩

def bareDouble? (cs : List Char) : Option Double :=
  let (negative, rest) := splitSign cs
  (decimal? rest).map (Decimal.toDouble negative)

end Literal

def readInteger? (s : String) : Option Int := Literal.integer? s.toList

/-- The value of a double literal, which may have blanks around it; an integer literal may not. An
integer literal is a double literal as well, so whoever wants to know which of the two a text is has
to ask for the integer first. -/
def readDouble? (s : String) : Option Double := Literal.bareDouble? (trim s.toList)

end Stencil
