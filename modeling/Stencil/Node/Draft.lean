import Stencil.Missing
import Stencil.Node

/-!
# Trees given piece by piece

A tree that does not come from a template may lack parts that a node needs. `Draft.build` makes
the node of a draft, parent first and then its children in order, and reports the first part that
is missing or unfit.
-/

set_option autoImplicit false

namespace Stencil

/-- Why a draft is no node. A template can not lead here: what it lacks is found by the reader of
its tags, which reports it in other words. -/
inductive DraftFault where
  | missing (part : Missing)
  | operator (symbol : String)
  | emptyEcho
deriving DecidableEq

def DraftFault.message : DraftFault → String
  | .missing part => part.message
  | .operator symbol => "Unsupported operator '" ++ symbol ++ "'"
  | .emptyEcho => "Echo node must contain at least one element"

inductive DraftElement where
  | ready (e : Element)
  | string (s : Option String)
  | operator (symbol : String)

def DraftElement.build : DraftElement → Except DraftFault Element
  | .ready e => .ok e
  | .string (some s) => .ok (.string s)
  | .string none => .error (.missing .stringValue)
  | .operator symbol =>
    match symbol.toList with
    | [c] =>
      match Operator.ofSymbol? c with
      | some op => .ok (.operator op)
      | none => .error (.operator symbol)
    | _ => .error (.operator symbol)

inductive Draft where
  | missing
  | document (children : List Draft)
  | text (content : String)
  | echo (elements : List DraftElement)
  | forLoop (name : Option String) (start stop step : Option Int) (body : List Draft)

namespace Draft

mutual

/-- The node of a draft. What a node needs itself is checked before its children are built, so of
two faults the outer one is reported. -/
def build : Draft → Except DraftFault Node
  | .missing => .error (.missing .child)
  | .document children => (buildAll children).map .document
  | .text content => .ok (.text content)
  | .echo elements => do
    let elements ← elements.mapM DraftElement.build
    if elements.isEmpty then .error .emptyEcho else .ok (.echo elements)
  | .forLoop name start stop step body => do
    match name, start, stop with
    | some name, some start, some stop =>
      let body ← buildAll body
      .ok (.forLoop ⟨name, start, stop, step⟩ body)
    | _, _, _ => .error (.missing .loopPart)

def buildAll : List Draft → Except DraftFault (List Node)
  | [] => .ok []
  | d :: ds => do
    let n ← build d
    let ns ← buildAll ds
    .ok (n :: ns)

end

end Draft

end Stencil
