/-!
# Parts that must be given

A caller may leave out what a call needs. Each such part has its own report; what may be left out
(the step of a loop, the age of a cookie) is an `Option` where it is used and never reported.
-/

set_option autoImplicit false

namespace Stencil

inductive Missing where
  | text
  | mode
  | stringValue
  | loopPart
  | child
  | documentOrSink
  | stream
deriving DecidableEq

namespace Missing

def message : Missing → String
  | .text => "Text must not be None"
  | .mode => "State must not be None"
  | .stringValue => "String constant value must not be None"
  | .loopPart => "Only the step expression can be None"
  | .child => "Child node must not be None"
  | .documentOrSink => "Document node and sink must not be None"
  | .stream => "Output stream must not be None"

end Missing

def required {α : Type} (missing : Missing) : Option α → Except Missing α
  | some a => .ok a
  | none => .error missing

end Stencil
