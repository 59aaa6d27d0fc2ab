import Stencil.Number.Layout

/-!
# The elements of a tag

A tag holds elements: constants, the variable of a loop, a built-in operation and the four
operators. `Element.source` is the canonical text of one, in the form that a template's source has
it.
-/

set_option autoImplicit false

namespace Stencil

inductive Operator where
  | plus
  | minus
  | times
  | divide
deriving DecidableEq

namespace Operator

def symbol : Operator → Char
  | .plus => '+'
  | .minus => '-'
  | .times => '*'
  | .divide => '/'

def ofSymbol? (c : Char) : Option Operator :=
  if c = '+' then some .plus
  else if c = '-' then some .minus
  else if c = '*' then some .times
  else if c = '/' then some .divide
  else none

end Operator

/-- An element. The text of a string is held without its quotes, the name of a function without its
sign, so that what is written around them is decided in one place, by `chars`. -/
inductive Element where
  | integer (n : Int)
  | double (x : Double)
  | string (s : String)
  | variable (name : String)
  | function (name : String)
  | operator (op : Operator)
deriving DecidableEq

namespace Element

def kindName : Element → String
  | .integer _ => "integer"
  | .double _ => "double"
  | .string _ => "string"
  | .variable _ => "variable"
  | .function _ => "function"
  | .operator _ => "operator"

/-- The canonical text of an element. It reads back as the same element, an infinite double
excepted, whose text is a name. -/
def chars : Element → List Char
  | .integer n => integerChars n
  | .double x => DoubleLayout.template.chars x
  | .string s => '"' :: s.toList ++ ['"']
  | .variable name => name.toList
  | .function name => '@' :: name.toList
  | .operator op => [op.symbol]

def source (e : Element) : String := String.ofList e.chars

end Element

end Stencil
