import Stencil.Number.Double

/-!
# Decimal numbers and doubles

A decimal is a whole number of digits scaled by a power of ten. Reading one gives the nearest
double; writing a double gives the decimal of fewest digits that reads back as that double, of
those the nearest one, and of two equally near ones the one whose last digit is even.
-/

set_option autoImplicit false

namespace Stencil

/-- The number `digits * 10 ^ exponent`. One number has many such forms; `normalize` picks the one
without zeros at the end. -/
structure Decimal where
  digits : Nat
  exponent : Int
deriving DecidableEq

namespace Decimal

def size (n : Nat) : Nat := (Nat.toDigits 10 n).length

/-- A decimal as a quotient of two natural numbers, one of which is scaled by the power of ten,
depending on the sign of the exponent. -/
def quotient (d : Decimal) : Nat × Nat :=
  (d.digits * Nat.pow 10 d.exponent.toNat, Nat.pow 10 (-d.exponent).toNat)

/-- The double nearest to a decimal. From `10 ^ 309` on that is infinity, and below `10 ^ -324` it
is zero, so a far exponent is never raised to a power. -/
def toDouble (negative : Bool) (d : Decimal) : Double :=
  let top := (size d.digits : Int) + d.exponent
  if d.digits = 0 then Double.ofRank negative 0
  else if 310 ≤ top then .infinite negative
  else if top ≤ -324 then Double.ofRank negative 0
  else Double.ofQuotient negative (d.quotient.1 * Double.unit) d.quotient.2

/-! ## Fewest digits -/

def leadingPower (n d : Nat) : Int :=
  if d ≤ n then (size (n / d) : Int) - 1 else -(size ((d - 1) / n) : Int)

/-- The two neighbours of `n / d` among the multiples of `10 ^ exponent`, the nearer one first. If
any multiple reads back as a double, one of these two does, so no other need be tried. -/
def neighbours (n d : Nat) (exponent : Int) : List Decimal :=
  let n := n * Nat.pow 10 (-exponent).toNat
  let d := d * Nat.pow 10 exponent.toNat
  let near := roundQuotient n d
  let far := if near = n / d then n / d + 1 else n / d
  [⟨near, exponent⟩, ⟨far, exponent⟩]

/-- Takes zeros off the end of the digits. There are no more of them than digits, which bounds the
recursion. -/
def normalize (d : Decimal) : Decimal :=
  let rec go : Nat → Nat → Int → Decimal
    | 0, digits, exponent => ⟨digits, exponent⟩
    | fuel + 1, digits, exponent =>
      if digits % 10 = 0 then go fuel (digits / 10) (exponent + 1) else ⟨digits, exponent⟩
  if d.digits = 0 then d else go (size d.digits) d.digits d.exponent

def exact (rank : Nat) : Decimal :=
  ⟨Double.magnitude rank * Nat.pow 5 Double.places, -Double.places⟩

def readsBack (rank : Nat) (d : Decimal) : Bool := d.toDouble false = Double.ofRank false rank

/-- Tries grids of one digit, two digits, and so on; a double of any size is found with seventeen
digits. That need not be known for the result to be right: the search ends with the exact value,
which always reads back. -/
def shortestFrom (rank : Nat) (leading : Int) : Nat → Nat → Decimal
  | 0, _ => exact rank
  | fuel + 1, count =>
    ((neighbours (Double.magnitude rank) Double.unit (leading - count)).find? (readsBack rank)).getD
      (shortestFrom rank leading fuel (count + 1))

def shortest (rank : Nat) : Decimal :=
  if rank = 0 then ⟨0, 0⟩
  else (shortestFrom rank (leadingPower (Double.magnitude rank) Double.unit) 17 0).normalize

end Decimal

end Stencil
