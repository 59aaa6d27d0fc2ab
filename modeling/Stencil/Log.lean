import Stencil.Builtin

/-!
# The log

What is noted while templates are read and run. Failing built-in operations are errors; the rest
is told only to those who ask for details.
-/

set_option autoImplicit false

namespace Stencil

inductive LogLevel where
  | debug
  | error
deriving DecidableEq

def LogLevel.name : LogLevel → String
  | .debug => "DEBUG"
  | .error => "ERROR"

inductive LogRecord where
  | parsed (nodes : Nat)
  | executing
  | loopFinished (name : String) (turns : Nat)
  | operationFailed (operation : Builtin) (fault : BuiltinFault)
deriving DecidableEq

namespace LogRecord

def level : LogRecord → LogLevel
  | .operationFailed _ _ => .error
  | _ => .debug

def message : LogRecord → String
  | .parsed nodes => "Parsed template: " ++ toString nodes ++ " top-level node(s)"
  | .executing => "Executing SmartScript document"
  | .loopFinished name turns =>
    "Loop '" ++ name ++ "' finished after " ++ toString turns ++ " iteration(s)"
  | .operationFailed operation fault =>
    "Error during '" ++ operation.name ++ "' operation: " ++ fault.className ++ ": " ++
      fault.message

end LogRecord

end Stencil
