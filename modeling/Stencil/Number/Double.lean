import Stencil.Number.Rounding

/-!
# Double precision numbers

The finite doubles of one sign are numbered by *rank*: rank 0 is zero, and each rank's magnitude is
the next larger one. In units of `2 ^ -1074`, the least positive magnitude, every finite double is a
whole number, so sums, products, quotients and comparisons are exact statements about natural
numbers, and a result is rounded once, by `Double.ofQuotient`.

A rank is also what the interchange format stores below the sign bit, which makes `Double.toBits`
and `Double.ofBits` plain arithmetic.
-/

set_option autoImplicit false

namespace Stencil

/-- How many finite magnitudes there are, and the rank that infinity would have. Powers are written
by `Nat.pow` here, which stays folded where the sign for powers would be multiplied out. -/
def Double.rankCount : Nat := 2047 * Nat.pow 2 52

/-- A double: not a number, an infinity, or a sign and the rank of a finite magnitude. Both zeros
are kept, since the text of a number shows its sign; of what is not a number there is only one,
since nothing shows its bits. -/
inductive Double where
  | nan
  | infinite (negative : Bool)
  | finite (negative : Bool) (rank : Fin Double.rankCount)
deriving DecidableEq

namespace Double

/-! ## Ranks and magnitudes -/

/-- The power of two that the significand of a rank counts. Each binade takes `2 ^ 52` ranks, and
the first two share the least power: cut-off subtraction makes the binade of the numbers without a
leading digit the same as the next one. -/
def binade (rank : Nat) : Nat := rank / Nat.pow 2 52 - 1

def significand (rank : Nat) : Nat := rank - binade rank * Nat.pow 2 52

def magnitude (rank : Nat) : Nat := significand rank * Nat.pow 2 (binade rank)

def places : Nat := 1074

def unit : Nat := Nat.pow 2 places

/-- The rank whose magnitude is nearest to `n / d` units, ties to the even rank. A significand that
rounds up to `2 ^ 53` is the first rank of the next binade, so no case is needed for it. Ranks from
`rankCount` on have no finite double. -/
def nearestRank (n d : Nat) : Nat :=
  -- Subtraction is cut off again: in the first binade no digit is rounded away.
  let e := Nat.log2 (n / d) - 52
  e * Nat.pow 2 52 + roundQuotient n (d * Nat.pow 2 e)

def ofRank (negative : Bool) (rank : Nat) : Double :=
  if h : rank < rankCount then .finite negative ⟨rank, h⟩ else .infinite negative

/-- The double nearest to `n / d` units under the given sign. All rounding of doubles is done here:
what comes before it is exact. -/
def ofQuotient (negative : Bool) (n d : Nat) : Double := ofRank negative (nearestRank n d)

def zero : Double := .finite false ⟨0, by decide⟩

/-! ## The interchange format -/

/-- The 64 bits: sign, then rank; the infinities follow the last finite rank. That ranks are stored
as they are is what makes a larger magnitude a larger pattern. -/
def toBits : Double → Nat
  | .nan => 0x7ff8000000000000
  | .infinite negative => (if negative then Nat.pow 2 63 else 0) + rankCount
  | .finite negative rank => (if negative then Nat.pow 2 63 else 0) + rank

def ofBits (bits : Nat) : Double :=
  let negative := decide (Nat.pow 2 63 ≤ bits)
  let rank := bits % Nat.pow 2 63
  -- The one rank that is not finite here is that of infinity.
  if rank ≤ rankCount then ofRank negative rank else .nan

/-! ## Signs, zero and order -/

def isZero : Double → Bool
  | .finite _ rank => rank.val == 0
  | _ => false

def units (negative : Bool) (rank : Nat) : Int :=
  if negative then -(magnitude rank : Int) else magnitude rank

/-- Where a double stands in the order of all doubles. Both zeros stand at 0, so they compare as
equal, and what is not a number stands nowhere, so it compares with nothing. -/
def position : Double → Option Int
  | .nan => none
  | .infinite negative => some (if negative then -(rankCount : Int) else rankCount)
  | .finite negative rank => some (if negative then -(rank.val : Int) else rank.val)

/-- The sign of the difference of two doubles. It is 0 also if either is not a number, for which
neither of the two tests for more and for less holds. -/
def compare (x y : Double) : Int :=
  match x.position, y.position with
  | some p, some q => (p - q).sign
  | _, _ => 0

/-! ## Arithmetic -/

def neg : Double → Double
  | .nan => .nan
  | .infinite negative => .infinite (!negative)
  | .finite negative rank => .finite (!negative) rank

/-- The sum, rounded once. Exact opposites add up to positive zero, and two negative zeros to
negative zero. -/
def add : Double → Double → Double
  | .nan, _ | _, .nan => .nan
  | .infinite s, .infinite t => if s = t then .infinite s else .nan
  | .infinite s, .finite _ _ => .infinite s
  | .finite _ _, .infinite t => .infinite t
  | .finite s a, .finite t b =>
    let sum := units s a + units t b
    if sum = 0 then .finite (s && t) ⟨0, by decide⟩ else ofQuotient (sum < 0) sum.natAbs 1

def sub (x y : Double) : Double := add x y.neg

def mul : Double → Double → Double
  | .nan, _ | _, .nan => .nan
  | .infinite s, .infinite t => .infinite (s ^^ t)
  | .infinite s, .finite t b => if b.val = 0 then .nan else .infinite (s ^^ t)
  | .finite s a, .infinite t => if a.val = 0 then .nan else .infinite (s ^^ t)
  | .finite s a, .finite t b => ofQuotient (s ^^ t) (magnitude a * magnitude b) unit

/-- A quotient by zero is infinite, and that of two zeros or two infinities is not a number. Whoever
takes division by zero for a fault has to ask for it before he divides. -/
def div : Double → Double → Double
  | .nan, _ | _, .nan => .nan
  | .infinite _, .infinite _ => .nan
  | .infinite s, .finite t _ => .infinite (s ^^ t)
  | .finite s _, .infinite t => .finite (s ^^ t) ⟨0, by decide⟩
  | .finite s a, .finite t b =>
    if b.val = 0 then if a.val = 0 then .nan else .infinite (s ^^ t)
    else ofQuotient (s ^^ t) (magnitude a * unit) (magnitude b)

/-! ## Whole numbers -/

def ofInt (n : Int) : Double := ofQuotient (n < 0) (n.natAbs * unit) 1

def bounded? : Double → Option Double
  | .infinite _ => none
  | x => some x

/-- The double nearest to a whole number, unless that is out of the finite range. There the
conversion of a whole number fails, while a decimal of the same size is read as infinite. -/
def ofInt? (n : Int) : Option Double := (ofInt n).bounded?

def degree : Double := ofBits 0x3f91df46a2529d39

/-- The sine of an angle in degrees, which is turned into radians by one rounded product. An
infinite angle has none, and neither has one whose product is infinite; of the sine itself nothing
is known here but that it is a double. -/
def sineOfDegrees? (x : Double) : Option Double :=
  match x with
  | .infinite _ => none
  | .nan => some .nan
  | x =>
    match mul x degree with
    | .infinite _ => none
    | angle =>
      some (ofBits (Float.ofBits (UInt64.ofNat angle.toBits)).sin.toBits.toNat)

end Double

end Stencil
