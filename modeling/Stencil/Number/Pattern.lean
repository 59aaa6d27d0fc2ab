import Stencil.Number.Layout

/-!
# Decimal patterns

A pattern such as `0.0#` tells how many places follow the point: every character after the point
is a place, and each `0` among them is written even if no digit other than zero stands there or
further right. What precedes the point, and grouping commas there, have no effect. A second
pattern after a semicolon is ignored.

The exact binary value is rounded, with halves to the even neighbour, by an arithmetic that has 28
digits and powers of ten down to the 1000026th place. A pattern of more places is rounded to that
place, and one of more than 2000054 places is refused.
-/

set_option autoImplicit false

namespace Stencil

/-- Why a number can not be written by a pattern. The last one is no fault of the pattern alone: a
pattern of few places can take more digits than there are for a large number. -/
inductive PatternFault where
  | unsupported (pattern : String)
  | notFinite (x : Double)
  | tooManyDigits
deriving DecidableEq

def PatternFault.message : PatternFault → String
  | .unsupported pattern => "Unsupported decimal pattern '" ++ pattern ++ "'"
  | .notFinite x => "Can not format " ++ DoubleLayout.profile.write x ++ " with a decimal pattern"
  | .tooManyDigits => "[<class 'decimal.InvalidOperation'>]"

/-- The places after the point, and how many of them are always written. This is all that the
reading of a pattern leaves: what stands in front of the point, grouping included, is gone. -/
structure DecimalPattern where
  places : Nat
  required : Nat
deriving DecidableEq

namespace DecimalArithmetic

def precision : Nat := 28

def maxPlaces : Nat := 1000026

def maxShift : Nat := 2000054

end DecimalArithmetic

namespace DecimalPattern

def positivePart (cs : List Char) : List Char := cs.takeWhile (· != ';')

def isSupported (cs : List Char) : Bool :=
  !cs.isEmpty && cs.all (fun c => c == '0' || c == '#' || c == '.' || c == ',') &&
    cs.count '.' ≤ 1

/-- Reads a pattern. Every character after the point is a place, a comma too, while only a `0` among
them is always written. -/
def ofChars? (cs : List Char) : Option DecimalPattern :=
  let positive := positivePart cs
  if isSupported positive then
    let fraction := (positive.dropWhile (· != '.')).drop 1
    some ⟨fraction.length, fraction.count '0'⟩
  else none

def dropZeros (cs : List Char) : List Char := (cs.reverse.dropWhile (· == '0')).reverse

/-- The digits after the point, without optional zeros at the end. If every place is required,
nothing is taken off. -/
def fractionDigits (p : DecimalPattern) (digits : List Char) : List Char :=
  if p.required < p.places then
    let kept := dropZeros digits
    kept ++ DoubleLayout.zeros (p.required - kept.length)
  else digits

def lastPlace (p : DecimalPattern) : Nat := min p.places DecimalArithmetic.maxPlaces

def placeDigits (places n : Nat) : List Char :=
  if places = 0 then []
  else
    let digits := Nat.toDigits 10 n
    DoubleLayout.zeros (places - digits.length) ++ digits

def layOut (p : DecimalPattern) (coefficient : Nat) : List Char :=
  let whole := coefficient / Nat.pow 10 p.lastPlace
  let rest := coefficient % Nat.pow 10 p.lastPlace
  let fraction := p.fractionDigits (placeDigits p.lastPlace rest)
  Nat.toDigits 10 whole ++ (if fraction.isEmpty then [] else '.' :: fraction)

/-- The multiple of `10 ^ -lastPlace` nearest to a magnitude, counted in such steps. The magnitude
is the exact binary one, so a half that only shows in the shortest decimal is none here. -/
def coefficient (p : DecimalPattern) (rank : Nat) : Nat :=
  roundQuotient (Double.magnitude rank * Nat.pow 10 p.lastPlace) Double.unit

/-- The text of a finite double. The sign is kept on a zero, also on one that a negative number was
rounded to. -/
def write (p : DecimalPattern) (negative : Bool) (rank : Nat) : Except PatternFault (List Char) :=
  let c := p.coefficient rank
  if p.places ≤ DecimalArithmetic.maxShift ∧ c < Nat.pow 10 DecimalArithmetic.precision then
    .ok (DoubleLayout.signText negative ++ p.layOut c)
  else .error .tooManyDigits

end DecimalPattern

/-- Writes a double by a pattern. The pattern is read before the number is looked at, so a bad one
is reported even if the number is not finite. -/
def formatDecimal (pattern : String) (x : Double) : Except PatternFault String :=
  match DecimalPattern.ofChars? pattern.toList, x with
  | none, _ => .error (.unsupported pattern)
  | some p, .finite negative rank => (p.write negative rank).map String.ofList
  | some _, x => .error (.notFinite x)

end Stencil
