import Stencil.Number.Literal
import Stencil.Number.Layout

/-!
# Values

A value of a running template is absent, a whole number of any size, a double or a text; a text is
read as a number where one is needed. A caller can also hand in values of other kinds, which every
operation on values refuses.

There are two readings of a text. Where the kind of number matters, a point or a capital `E` makes
it a double, and it is an integer otherwise; where only a double is of use, every literal is a
double.
-/

set_option autoImplicit false

namespace Stencil

/-- The kinds of values that templates do not know. A caller can hand them in all the same, where
they are only good for being named in a report. -/
inductive Foreign where
  | bool
  | list
  | bytes
  | dict
deriving DecidableEq

inductive Value where
  | absent
  | integer (n : Int)
  | double (x : Double)
  | text (s : String)
  | foreign (kind : Foreign)
deriving DecidableEq

inductive Number where
  | integer (n : Int)
  | double (x : Double)
deriving DecidableEq

inductive NumberKind where
  | integer
  | double
deriving DecidableEq

def NumberKind.name : NumberKind → String
  | .integer => "integer"
  | .double => "double"

/-- Why an operation on values fails. No template can make a value that is the reason for the first
of these; the others can come of any. -/
inductive ValueFault where
  | unsupported (kind : Foreign)
  | notNumber (text : String) (kind : NumberKind)
  | divisionByZero
  | tooLarge
deriving DecidableEq

def Foreign.name : Foreign → String
  | .bool => "bool"
  | .list => "list"
  | .bytes => "bytes"
  | .dict => "dict"

namespace ValueFault

def message : ValueFault → String
  | .unsupported kind =>
    "Unsupported value kind " ++ kind.name ++ ": only integers, doubles and strings are allowed"
  | .notNumber text kind => "'" ++ text ++ "' can not be parsed to " ++ kind.name
  | .divisionByZero => "You can not divide by zero"
  | .tooLarge => "int too large to convert to float"

end ValueFault

namespace Number

def toValue : Number → Value
  | .integer n => .integer n
  | .double x => .double x

/-- A number as a double. A whole number is rounded, and one that lies beyond all doubles is a fault
of its own rather than an infinity. -/
def toDouble : Number → Except ValueFault Double
  | .integer n => (Double.ofInt? n).elim (.error .tooLarge) .ok
  | .double x => .ok x

def neg : Number → Number
  | .integer n => .integer (-n)
  | .double x => .double x.neg

def isZero : Number → Bool
  | .integer n => n == 0
  | .double x => x.isZero

/-- Reads a text, as a double if it has a point or a capital `E` and as an integer otherwise. The
small letter is no sign of a double here, although a double may be written with it; see
`Value.toDouble`. -/
def ofText (s : String) : Except ValueFault Number :=
  if s.toList.any (fun c => c == '.' || c == 'E') then
    (readDouble? s).elim (.error (.notNumber s .double)) (.ok ∘ .double)
  else
    (Literal.integer? (trim s.toList)).elim (.error (.notNumber s .integer)) (.ok ∘ .integer)

end Number

namespace Value

def kindName : Value → String
  | .absent => "NoneType"
  | .integer _ => "int"
  | .double _ => "float"
  | .text _ => "str"
  | .foreign kind => kind.name

def isSupported : Value → Bool
  | .foreign _ => false
  | _ => true

/-- A value as a number of its own kind; an absent one is the integer zero. -/
def toNumber : Value → Except ValueFault Number
  | .absent => .ok (.integer 0)
  | .integer n => .ok (.integer n)
  | .double x => .ok (.double x)
  | .text s => Number.ofText s
  | .foreign kind => .error (.unsupported kind)

/-- A value as a double; an absent one is zero. A text is read as a double at once, with no regard
to which kind of number it looks like, so `1e5` is one here and no number in `toNumber`. -/
def toDouble : Value → Except ValueFault Double
  | .absent => .ok Double.zero
  | .integer n => (Number.integer n).toDouble
  | .double x => .ok x
  | .text s => (readDouble? s).elim (.error (.notNumber s .double)) .ok
  | .foreign kind => .error (.unsupported kind)

/-- The text that a value is written as; nothing for an absent one. -/
def format : Value → Except ValueFault String
  | .absent => .ok ""
  | .integer n => .ok (integerText n)
  | .double x => .ok (DoubleLayout.template.write x)
  | .text s => .ok s
  | .foreign kind => .error (.unsupported kind)

end Value

end Stencil
