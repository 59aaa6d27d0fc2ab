import Stencil.Dictionary
import Stencil.Text.Blank

/-!
# Assignments

A parameter is given on the command line as `NAME=VALUE`. The name is trimmed; the value is
everything behind the first equals sign, blanks and further signs included.
-/

set_option autoImplicit false

namespace Stencil

inductive AssignmentFault where
  | noSign (item : String)
  | noName (item : String)
deriving DecidableEq

def AssignmentFault.message : AssignmentFault → String
  | .noSign item => "Invalid parameter format '" ++ item ++ "'. Expected 'NAME=VALUE'"
  | .noName item => "Empty parameter name in '" ++ item ++ "'"

namespace Assignment

/-- The name and the value of an assignment. That there is a sign is asked first, so an item of
blanks alone lacks a sign and not a name. -/
def read (item : String) : Except AssignmentFault (String × String) :=
  match item.toList.dropWhile (· ≠ '=') with
  | [] => .error (.noSign item)
  | _ :: value =>
    let name := trim (item.toList.takeWhile (· ≠ '='))
    if name.isEmpty then .error (.noName item)
    else .ok (String.ofList name, String.ofList value)

/-- The names and values of assignments. All of them are read before any is put to use, and the
first that is none refuses them all. -/
def readAll : List String → Except AssignmentFault (List (String × String))
  | [] => .ok []
  | item :: items => do
    let a ← read item
    return a :: (← readAll items)

end Assignment

/-- Parameters with assignments put over them, from left to right: of two for one name the later one
counts, and both count more than what was there. -/
def Dictionary.assign (d : Dictionary String) (items : List String) :
    Except AssignmentFault (Dictionary String) :=
  (Assignment.readAll items).map d.putAll

end Stencil
