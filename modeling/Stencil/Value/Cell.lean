import Stencil.Value

/-!
# Cells

A cell holds one value and does arithmetic on it. A result is a whole number only if both operands
are; a text that a cell holds counts as a double. No operation on a cell changes it when it fails.
-/

set_option autoImplicit false

namespace Stencil

/-- A cell. The operations below never put a value of a foreign kind into one, though a caller can
ask for it: that is refused, and the cell stays as it was. -/
structure Cell where
  value : Value
deriving DecidableEq

namespace Cell

def ofValue (v : Value) : Except ValueFault Cell :=
  match v with
  | .foreign kind => .error (.unsupported kind)
  | v => .ok ⟨v⟩

/-- The value and a number combined: by `whole` if both are whole, else as doubles. So integers
never lose digits, and everything else comes out as a double, digits in a text included. -/
def combine (whole : Int → Int → Int) (real : Double → Double → Double) (v : Value) (a : Number) :
    Except ValueFault Value :=
  match v, a with
  | .integer n, .integer m => .ok (.integer (whole n m))
  | v, a => do
    let x ← v.toDouble
    let y ← a.toDouble
    .ok (.double (real x y))

/-- Adds a number; an absent value becomes that number. -/
def addNumber (c : Cell) (a : Number) : Except ValueFault Cell :=
  match c.value with
  | .absent => .ok ⟨a.toValue⟩
  | v => (combine (· + ·) Double.add v a).map Cell.mk

/-- Adds a value; an absent one changes nothing. -/
def increment (c : Cell) : Value → Except ValueFault Cell
  | .absent => .ok c
  | v => do c.addNumber (← v.toNumber)

/-- Subtracts a value by adding its opposite. An absent one changes nothing, and from an absent one
the opposite is left. -/
def decrement (c : Cell) : Value → Except ValueFault Cell
  | .absent => .ok c
  | v => do c.addNumber (← v.toNumber).neg

/-- Multiplies by a value; if either is absent, the product is the integer zero. -/
def multiply (c : Cell) : Value → Except ValueFault Cell
  | .absent => .ok ⟨.integer 0⟩
  | v => do
    let a ← v.toNumber
    match c.value with
    | .absent => .ok ⟨.integer 0⟩
    | w => (combine (· * ·) Double.mul w a).map Cell.mk

/-- Divides by a value, as doubles. Neither an absent value nor zero divides, which is refused
before the value divided is looked at; an absent value divided is the integer zero. -/
def divide (c : Cell) : Value → Except ValueFault Cell
  | .absent => .error .divisionByZero
  | v => do
    let a ← v.toNumber
    if a.isZero then .error .divisionByZero
    else
      match c.value with
      | .absent => .ok ⟨.integer 0⟩
      | w =>
        let x ← w.toDouble
        let y ← a.toDouble
        .ok ⟨.double (x.div y)⟩

/-- The sign of the difference between the value and another, both as doubles. What is not a number
counts as equal to everything here, since it is neither more nor less. -/
def compare (c : Cell) (v : Value) : Except ValueFault Int := do
  let x ← c.value.toDouble
  let y ← v.toDouble
  .ok (x.compare y)

/-! ## Operations as data -/

inductive Op where
  | increment (v : Value)
  | decrement (v : Value)
  | multiply (v : Value)
  | divide (v : Value)
  | compare (v : Value)
  | assign (v : Value)
deriving DecidableEq

/-- The answer of an operation, which only a comparison has, and the cell after it. -/
def apply (c : Cell) : Op → Except ValueFault (Option Int) × Cell
  | .increment v => update c (c.increment v)
  | .decrement v => update c (c.decrement v)
  | .multiply v => update c (c.multiply v)
  | .divide v => update c (c.divide v)
  | .compare v => ((c.compare v).map some, c)
  | .assign v => update c (ofValue v)
where
  update (c : Cell) : Except ValueFault Cell → Except ValueFault (Option Int) × Cell
    | .ok c' => (.ok none, c')
    | .error e => (.error e, c)

end Cell

end Stencil
