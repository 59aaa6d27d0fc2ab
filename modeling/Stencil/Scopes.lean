import Stencil.Dictionary

/-!
# Parameters

A template reads parameters from three scopes. Those of the request are given and never change; the
persistent ones outlive the run; the temporary ones start out empty. The last two can be written.
-/

set_option autoImplicit false

namespace Stencil

/-- A scope that a template can write. The parameters of the request are none, which the type says,
so no function can be given them to change. -/
inductive OwnScope where
  | persistent
  | temporary
deriving DecidableEq

/-- A scope that a template can read. -/
inductive Scope where
  | request
  | own (scope : OwnScope)
deriving DecidableEq

structure Scopes where
  request : Dictionary String
  persistent : Dictionary String
  temporary : Dictionary String
deriving DecidableEq

namespace Scopes

/-- The scopes before a run: nothing temporary is there yet. -/
def start (request persistent : Dictionary String) : Scopes := ⟨request, persistent, .empty⟩

def parameters (s : Scopes) : Scope → Dictionary String
  | .request => s.request
  | .own .persistent => s.persistent
  | .own .temporary => s.temporary

def get? (s : Scopes) (scope : Scope) (name : String) : Option String :=
  (s.parameters scope).get? name

/-- The names of a scope's parameters in ascending order. It is the order of code points and not the
order in which the parameters were set. -/
def names (s : Scopes) (scope : Scope) : List String := (s.parameters scope).sortedNames

/-- Changes the parameters of one scope. Every writing goes through here, so that the other scopes
stay is said once. -/
def modify (s : Scopes) (scope : OwnScope) (f : Dictionary String → Dictionary String) : Scopes :=
  match scope with
  | .persistent => { s with persistent := f s.persistent }
  | .temporary => { s with temporary := f s.temporary }

def put (s : Scopes) (scope : OwnScope) (name value : String) : Scopes :=
  s.modify scope (·.put name value)

def erase (s : Scopes) (scope : OwnScope) (name : String) : Scopes :=
  s.modify scope (·.erase name)

@[simp] theorem request_modify (s : Scopes) (scope : OwnScope)
    (f : Dictionary String → Dictionary String) : (s.modify scope f).request = s.request := by
  cases scope <;> rfl

end Scopes

end Stencil
