import Stencil.Number.Decimal

/-!
# The text of a double

`Decimal.shortest` chooses the digits; a `DoubleLayout` says how they are laid out. There are two
layouts: `DoubleLayout.template` for output and for literals in a template's source, and
`DoubleLayout.profile` for numbers that a profile gives as text.
-/

set_option autoImplicit false

namespace Stencil

/-- How a double is laid out as text. The digits are the same in every layout; what differs is where
the point is put and how an exponent is written. -/
structure DoubleLayout where
  nan : String
  infinity : String
  /-- The least and the greatest power of ten of a leading digit that is written positionally. -/
  least : Int
  greatest : Int
  mark : Char
  /-- Whether a significand of one digit is written with a zero fraction. -/
  fraction : Bool
  /-- Whether an exponent always has a sign and at least two digits. -/
  padded : Bool

namespace DoubleLayout

/-- The layout of output and of literals. From a thousandth up to below ten million a number is
written positionally, and always with a point, by which a double is told from an integer when it is
read back. -/
def template : DoubleLayout where
  nan := "NaN"
  infinity := "Infinity"
  least := -3
  greatest := 6
  mark := 'E'
  fraction := true
  padded := false

/-- The layout of numbers that a profile gives where a text is due. From a ten thousandth up to
below `10 ^ 16` they are written positionally. -/
def profile : DoubleLayout where
  nan := "nan"
  infinity := "inf"
  least := -4
  greatest := 15
  mark := 'e'
  fraction := false
  padded := true

def zeros (n : Nat) : List Char := List.replicate n '0'

/-- Digits with the point where the leading digit's power of ten puts it, and a zero on either side
of the point if no digit stands there. The leading digit stands at the given power. -/
def positional (digits : List Char) (power : Int) : List Char :=
  if power < 0 then '0' :: '.' :: zeros (-power - 1).toNat ++ digits
  else
    let whole := power.toNat + 1
    let fraction := digits.drop whole
    digits.take whole ++ zeros (whole - digits.length) ++ '.' ::
      (if fraction.isEmpty then ['0'] else fraction)

def exponentText (l : DoubleLayout) (power : Int) : List Char :=
  let digits := Nat.toDigits 10 power.natAbs
  let sign := if power < 0 then ['-'] else if l.padded then ['+'] else []
  sign ++ (if l.padded then zeros (2 - digits.length) else []) ++ digits

def scientific (l : DoubleLayout) (digits : List Char) (power : Int) : List Char :=
  let fraction := digits.drop 1
  digits.take 1 ++
    (if fraction.isEmpty then if l.fraction then ['.', '0'] else [] else '.' :: fraction) ++
    l.mark :: l.exponentText power

/-- The text of a finite magnitude. Zero has one digit at the power zero like any other number below
ten, so it needs no case of its own. -/
def magnitudeText (l : DoubleLayout) (rank : Nat) : List Char :=
  let d := Decimal.shortest rank
  let digits := Nat.toDigits 10 d.digits
  let power := d.exponent + digits.length - 1
  if l.least ≤ power ∧ power ≤ l.greatest then positional digits power
  else l.scientific digits power

def signText (negative : Bool) : List Char := if negative then ['-'] else []

def chars (l : DoubleLayout) : Double → List Char
  | .nan => l.nan.toList
  | .infinite negative => signText negative ++ l.infinity.toList
  | .finite negative rank => signText negative ++ l.magnitudeText rank

def write (l : DoubleLayout) (x : Double) : String := String.ofList (l.chars x)

end DoubleLayout

def integerChars (n : Int) : List Char :=
  (if n < 0 then ['-'] else []) ++ Nat.toDigits 10 n.natAbs

def integerText (n : Int) : String := String.ofList (integerChars n)

end Stencil
