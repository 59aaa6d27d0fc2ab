import Stencil.Element
import Stencil.Log
import Stencil.Value.NamedStacks

/-!
# Evaluating an echo

The elements of an echo work on a stack of their own, in postfix order: constants and variables
are put on it, an operator takes two values off and puts the result on, and a built-in operation
does as it pleases. An element that fails leaves off the stack what it has taken.
-/

set_option autoImplicit false

namespace Stencil

/-- Why a template can not go on. These faults leave a run; the fault of a built-in operation does
not, and is only noted in the log. -/
inductive EvalFault where
  | value (fault : ValueFault)
  | noVariable (name : String)
  | underflow (op : Operator) (count : Nat)
  | unknownFunction (name : String)
  | loopStep (step : Int) (head : String)
  | sink (fault : SinkFault)
deriving DecidableEq

namespace EvalFault

def message : EvalFault → String
  | .value fault => fault.message
  | .noVariable name => (StackFault.noStack name).message
  | .underflow op count =>
    "Stack underflow: operator '" ++ String.singleton op.symbol ++ "' needs 2 operands, got " ++
      toString count
  | .unknownFunction name => "Unknown function '@" ++ name ++ "'"
  | .loopStep step head =>
    "Loop step must be positive, got " ++ integerText step ++ " in " ++ head
  | .sink fault => fault.message

end EvalFault

namespace Operator

def apply : Operator → Double → Double → Double
  | .plus => Double.add
  | .minus => Double.sub
  | .times => Double.mul
  | .divide => Double.div

/-- Takes two operands, the right one on top, and puts the result in their place. The right
operand is read first, and zero divides nothing. -/
def run (op : Operator) : List Value → Except EvalFault Unit × List Value
  | r :: l :: rest =>
    match r.toDouble with
    -- The right operand is off the stack by now, and the left one is not.
    | .error e => (.error (.value e), l :: rest)
    | .ok right =>
      match l.toDouble with
      | .error e => (.error (.value e), rest)
      | .ok left =>
        if op = .divide ∧ right.isZero then (.error (.value .divisionByZero), rest)
        else (.ok (), .double (op.apply left right) :: rest)
  | stack => (.error (.underflow op stack.length), stack)

end Operator

/-- What the elements of an echo work on: the stack with its top first, the sink, and the log with
its newest record first. -/
structure Echo (σ : Type) where
  stack : List Value
  sink : σ
  log : List LogRecord

namespace Echo

variable {σ : Type} [Sink σ]

def push (e : Echo σ) (v : Value) : Except EvalFault Unit × Echo σ :=
  (.ok (), { e with stack := v :: e.stack })

/-- Carries out a built-in operation; its failure is only noted. The operation leaves its stack also
when it fails, so what it took before is gone. -/
def call (e : Echo σ) (op : Builtin) : Echo σ :=
  match op.call e.stack e.sink with
  | .ok (stack, sink) => { e with stack, sink }
  | .error (fault, stack) => { e with stack, log := .operationFailed op fault :: e.log }

/-- Evaluates an element. An echo reads the values of variables and never changes them, which is why
`vars` is no part of what it works on. -/
def evaluate (vars : NamedStacks) (e : Echo σ) : Element → Except EvalFault Unit × Echo σ
  | .integer n => e.push (.integer n)
  | .double x => e.push (.double x)
  | .string s => e.push (.text s)
  | .variable name =>
    match vars.tryPeek name with
    | some c => e.push c.value
    | none => (.error (.noVariable name), e)
  | .function name =>
    match Builtin.ofName? name with
    | some op => (.ok (), e.call op)
    | none => (.error (.unknownFunction name), e)
  | .operator op =>
    let (answer, stack) := op.run e.stack
    (answer, { e with stack })

def evaluateAll (vars : NamedStacks) (e : Echo σ) : List Element → Except EvalFault Unit × Echo σ
  | [] => (.ok (), e)
  | element :: rest =>
    match e.evaluate vars element with
    | (.ok (), e) => evaluateAll vars e rest
    | (.error fault, e) => (.error fault, e)

def writeAll (sink : σ) : List Value → Except EvalFault Unit × σ
  | [] => (.ok (), sink)
  | v :: rest =>
    match v.format with
    | .error fault => (.error (.value fault), sink)
    | .ok text =>
      match Sink.write sink text with
      | (.ok (), sink) => writeAll sink rest
      | (.error fault, sink) => (.error (.sink fault), sink)

end Echo

end Stencil
