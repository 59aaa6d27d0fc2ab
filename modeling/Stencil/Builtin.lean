import Stencil.Number.Pattern
import Stencil.Sink
import Stencil.Value

/-!
# Built-in operations

A tag can call twelve operations by name. Each takes its operands off the stack of the tag and
puts its results on it. A failing one is no error of the template: it leaves the sink as it was
and the stack without the operands that it had already taken, and is reported in the log.
-/

set_option autoImplicit false

namespace Stencil

/-- Why a built-in operation fails. None of these ends a run: the fault is noted in the log, under
the class that it belongs to, and the tag goes on with its next element. -/
inductive BuiltinFault where
  | noOperand
  | notText (kind : String)
  | value (fault : ValueFault)
  | infiniteAngle
  | pattern (fault : PatternFault)
  | sink (fault : SinkFault)
deriving DecidableEq

namespace BuiltinFault

/-- The class of a fault, as the log names it. Faults of one class can have several causes, which
only the message tells apart. -/
def className : BuiltinFault → String
  | .noOperand => "IndexError"
  | .notText _ => "TypeError"
  | .value (.unsupported _) => "UnsupportedValueError"
  | .value (.notNumber _ _) => "NumberFormatError"
  | .value .divisionByZero => "DivisionByZeroError"
  | .value .tooLarge => "OverflowError"
  | .infiniteAngle => "ValueError"
  | .pattern .tooManyDigits => "InvalidOperation"
  | .pattern _ => "ValueError"
  | .sink .headerSent => "HeaderGeneratedError"
  | .sink (.unknownEncoding _) => "LookupError"
  | .sink .nullCharacter => "ValueError"
  | .sink .unencodable => "UnicodeEncodeError"
  | .sink .undecodable => "UnicodeDecodeError"

def message : BuiltinFault → String
  | .noOperand => "pop from empty list"
  | .notText kind => "Expected text argument, got " ++ kind
  | .value fault => fault.message
  | .infiniteAngle => "math domain error"
  | .pattern fault => fault.message
  | .sink fault => fault.message

end BuiltinFault

/-! ## The operations -/

inductive Builtin where
  | sine
  | formatNumber
  | duplicate
  | swap
  | setMimeType
  | getParameter (scope : Scope)
  | setParameter (scope : OwnScope)
  | deleteParameter (scope : OwnScope)
deriving DecidableEq

namespace Builtin

def all : List Builtin :=
  [.sine, .formatNumber, .duplicate, .swap, .setMimeType,
    .getParameter .request, .getParameter (.own .persistent), .getParameter (.own .temporary),
    .setParameter .persistent, .setParameter .temporary,
    .deleteParameter .persistent, .deleteParameter .temporary]

def name : Builtin → String
  | .sine => "sin"
  | .formatNumber => "decfmt"
  | .duplicate => "dup"
  | .swap => "swap"
  | .setMimeType => "setMimeType"
  | .getParameter .request => "paramGet"
  | .getParameter (.own .persistent) => "pparamGet"
  | .getParameter (.own .temporary) => "tparamGet"
  | .setParameter .persistent => "pparamSet"
  | .setParameter .temporary => "tparamSet"
  | .deleteParameter .persistent => "pparamDel"
  | .deleteParameter .temporary => "tparamDel"

/-- The operation of a name. Case counts here, while the words that open a tag are met in any case.
-/
def ofName? (name : String) : Option Builtin := all.find? (·.name == name)

/-! ## Taking operands -/

/-- A fault, and the stack that is left. What was taken off before the fault stays off, so the stack
can not be left out of the answer. Stacks are lists with the top first. -/
abbrev Failure := BuiltinFault × List Value

def pop : List Value → Except Failure (Value × List Value)
  | [] => .error (.noOperand, [])
  | v :: rest => .ok (v, rest)

/-- Takes an operand that must be a text; one that is none is off the stack all the same. -/
def popText (stack : List Value) : Except Failure (String × List Value) := do
  match ← pop stack with
  | (.text s, rest) => .ok (s, rest)
  | (v, rest) => .error (.notText v.kindName, rest)

/-- The reading of an operand that has been taken off the stack `rest`. A fault of the reading is a
fault of the operation, which is left with that stack. -/
def read {α : Type} (rest : List Value) (r : Except ValueFault α) : Except Failure α :=
  r.mapError fun e => (.value e, rest)

/-! ## What they do -/

/-- An operation on the operands alone. It never sees the sink, so it can do nothing to it. What it
has taken off stays off if it fails, and this is how a failure can leave less than there was. -/
def onStack (f : List Value → Except Failure (List Value)) {σ : Type} (stack : List Value)
    (sink : σ) : Except Failure (List Value × σ) := (f stack).map (·, sink)

/-- The sine of an angle in degrees. A double that is not a number has one, namely itself; an
infinite angle has none. -/
def sineOf (stack : List Value) : Except Failure (List Value) := do
  let (v, rest) ← pop stack
  let x ← read rest v.toDouble
  match x.sineOfDegrees? with
  | some y => .ok (.double y :: rest)
  | none => .error (.infiniteAngle, rest)

/-- A number rounded by a decimal pattern, which lies on top. The text that the pattern gives is
read back, so what is put on the stack is a double again. -/
def formatNumberOf (stack : List Value) : Except Failure (List Value) := do
  let (pattern, rest) ← popText stack
  let (v, rest) ← pop rest
  let x ← read rest v.toDouble
  match formatDecimal pattern x with
  | .error e => .error (.pattern e, rest)
  | .ok text =>
    let y ← read rest (Value.text text).toDouble
    .ok (.double y :: rest)

def duplicateOf (stack : List Value) : Except Failure (List Value) := do
  let (v, rest) ← pop stack
  .ok (v :: v :: rest)

def swapOf (stack : List Value) : Except Failure (List Value) := do
  let (a, rest) ← pop stack
  let (b, rest) ← pop rest
  .ok (b :: a :: rest)

/-- Two operands, a value on top of a name: the name, and the text of the value. The value is turned
into a text before the name is taken, so a value of an unknown kind leaves the name on the stack. -/
def popEntry (stack : List Value) : Except Failure (String × String × List Value) := do
  let (v, rest) ← pop stack
  let value ← read rest v.format
  let (name, rest) ← popText rest
  .ok (name, value, rest)

/-- Carries out an operation: the stack and the sink after it, or the fault and the stack. The sink
comes last in every case, so an operation that fails has not touched it. -/
def call {σ : Type} [Sink σ] (op : Builtin) (stack : List Value) (sink : σ) :
    Except Failure (List Value × σ) :=
  match op with
  | .sine => onStack sineOf stack sink
  | .formatNumber => onStack formatNumberOf stack sink
  | .duplicate => onStack duplicateOf stack sink
  | .swap => onStack swapOf stack sink
  | .setMimeType => do
    let (mimeType, rest) ← popText stack
    match Sink.setMimeType sink mimeType with
    | .ok sink => .ok (rest, sink)
    | .error e => .error (.sink e, rest)
  | .getParameter scope => do
    let (name, value, rest) ← popEntry stack
    .ok (.text (((Sink.scopes sink).get? scope name).getD value) :: rest, sink)
  | .setParameter scope => do
    let (name, value, rest) ← popEntry stack
    .ok (rest, Sink.withScopes sink ((Sink.scopes sink).put scope name value))
  | .deleteParameter scope => do
    let (name, rest) ← popText stack
    .ok (rest, Sink.withScopes sink ((Sink.scopes sink).erase scope name))

end Builtin

end Stencil
